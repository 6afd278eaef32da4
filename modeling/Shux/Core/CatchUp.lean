/-
# Catching up

A subscriber that kept a mirror of the graph and comes back asks for the events since its last one.
The gap it is told counts the ones that are gone. When there are none, replaying the answer brings
the mirror up to date.
-/

import Shux.Core.History
import Shux.Core.Replay

namespace Shux.HistoryBus

open List

/-- A cut of the issued events, asked for what came after the first posts. -/
theorem data_issued_drop {δ : Type} (fullEventType : δ → Str) (before since : List (Post δ))
    (k : Nat) :
    (((issued fullEventType (before ++ since)).drop k).filter
        fun event => decide (before.length + 1 ≤ event.seq)).map BusEvent.data =
      (since.map Prod.fst).drop (k - before.length) := by
  have hseq : ∀ post ∈ (before.zipIdx 1).drop k, ¬before.length + 1 ≤ post.2 := by
    intro post hpost
    have hlt := (mem_zipIdx (mem_of_mem_drop hpost)).2.1
    omega
  have hseq' : ∀ post ∈ (since.zipIdx (1 + before.length)).drop (k - before.length),
      before.length + 1 ≤ post.2 := by
    intro post hpost
    have hle := (mem_zipIdx (mem_of_mem_drop hpost)).1
    omega
  unfold issued
  rw [zipIdx_append, ← map_drop, drop_append, length_zipIdx, filter_map, map_map, filter_append,
    filter_eq_nil_iff.mpr fun post hpost => by simpa using hseq post hpost,
    filter_eq_self.mpr fun post hpost => by simpa using hseq' post hpost, nil_append, map_drop]
  exact congrArg _ ((map_map (g := Prod.fst) (f := Prod.fst)).symm.trans
    (congrArg _ (zipIdx_map_fst _ since)))

/-- What a bus that published the events of a run after others answers: the newest of them, as many
as it keeps, and how many it no longer has. With all of them a mirror catches up. -/
theorem catch_up {R : Type} [Host] [F32 R] (fullEventType : EventData → Str)
    (cmds later : List (GraphCommand R)) {capacity : Nat} (hcap : 1 ≤ capacity)
    (before since : List (Post EventData)) {m : Mirror} :
    let g := SessionGraph.newWithEventBus.run cmds
    let g' := g.run later
    let answer := (run fullEventType capacity (before ++ since)).history.eventsFromSeq
      (before.length + 1)
    g'.eventBus.log = g.eventBus.log ++ since.map Prod.fst → Mirrors m g.state →
      answer.1.map BusEvent.data = (since.map Prod.fst).drop (since.length - capacity) ∧
      answer.2 = since.length - capacity ∧
      (answer.2 = 0 → Mirrors (m.replay (answer.1.map BusEvent.data)) g'.state) := by
  intro g g' answer hlog hm
  have hlength : (before ++ since).length = before.length + since.length := length_append
  obtain ⟨-, hcapacity, hfollows⟩ := @run_follows _ _ fullEventType hcap (before ++ since)
  have hdata : answer.1.map BusEvent.data =
      (since.map Prod.fst).drop (since.length - capacity) := by
    show map _ (filter _ _) = _
    rw [hfollows, Ring.dropped, length_issued, hcapacity, data_issued_drop,
      show (before ++ since).length - capacity - before.length = since.length - capacity by omega]
  have hgap : answer.2 = since.length - capacity := by
    show (EventHistory.oldestSeq _).getD 0 - _ = _
    unfold EventHistory.oldestSeq
    rw [← head?_map, seq_history hcap, head?_range']
    split_ifs with hempty
    · show 0 - _ = _
      omega
    · show (before ++ since).length - capacity + 1 - (before.length + 1) = _
      omega
  refine ⟨hdata, hgap, fun hnone => ?_⟩
  obtain ⟨n, evs, hadvances⟩ := run_moves g later fun cmd _ => Set.subset_univ cmd.kinds
  have hevs : since.map Prod.fst = evs := append_cancel_left (hlog.symm.trans hadvances.log)
  rw [hdata, ← hgap, hnone, drop_zero, hevs]
  exact hadvances.trace.mirrors (Reachable.sound ⟨cmds, rfl⟩) hm

open Sample in
/-- A subscriber from before the first session hears of it. -/
theorem catch_up_first :
    let g : SessionGraph ℚ := SessionGraph.newWithEventBus.run [create]
    let answer := (run (fun _ => []) 4 ([] ++ g.eventBus.log.map (·, none))).history.eventsFromSeq 1
    Mirrors (Mirror.empty.replay (answer.1.map BusEvent.data)) g.state := by
  intro g answer
  refine (catch_up (fun _ => []) [] [create] (by decide : 1 ≤ 4) [] _ ?_
    ⟨fun _ => rfl, fun _ => rfl, fun _ => rfl⟩).2.2 (by decide +kernel)
  rw [map_map]
  exact (map_id _).symm

end Shux.HistoryBus
