/-
# Replies and pastes that are cut into chunks

The queue learns from each chunk that was written whether the program is inside a paste, and it
looks for the markers in that chunk alone. As long as no start marker runs across two chunks, no
reply is written behind a start marker that no end marker has followed. A marker that is cut is
not seen, and a reply lands inside the paste.
-/

import Shux.Io.InputQueue

namespace Shux.Io

open Chunks List

variable {κ : Type}
variable {chunk : Bytes}

namespace InputTask

/-- The bytes of one write. -/
def wrote (task : InputTask κ) (more : Nat) : Bytes :=
  if task.queue.isEmpty then []
  else task.queue.next.take (min (more + 1) task.queue.next.length)

def wroteReply (task : InputTask κ) (more : Nat) : Bytes :=
  if task.queue.replying then task.wrote more else []

def wroteInput (task : InputTask κ) (more : Nat) : Bytes :=
  if task.queue.replying then [] else task.wrote more

variable [DecidableEq κ]

/-- The input bytes that a run has written. -/
def inputWritten (free : κ → Nat) (events : List (InputEvent κ)) : Bytes :=
  (events.foldl (fun (s : InputTask κ × Bytes) event =>
    (s.1.step event, match event with
      | .write more => s.2 ++ s.1.wroteInput more
      | _ => s.2)) (new free, [])).2

theorem inputWritten_concat (free : κ → Nat) (events : List (InputEvent κ)) (event : InputEvent κ) :
    inputWritten free (events ++ [event]) = match event with
      | .write more => inputWritten free events ++ (run free events).wroteInput more
      | _ => inputWritten free events := by
  have hrun : ∀ events : List (InputEvent κ), (events.foldl (fun (s : InputTask κ × Bytes) event =>
      (s.1.step event, match event with
        | .write more => s.2 ++ s.1.wroteInput more
        | _ => s.2)) (new free, [])).1 = run free events := by
    intro events
    induction events using List.reverseRecOn with
    | nil => rfl
    | append_singleton events event ih =>
      unfold run
      rw [foldl_append, foldl_append]
      exact congrArg (·.step event) ih
  unfold inputWritten
  rw [foldl_append]
  show (match event with
    | .write more => _ ++ InputTask.wroteInput _ more
    | _ => _) = _
  rw [hrun]

end InputTask

/-- The chunks that are pushed. -/
def chunksOf (events : List (InputEvent κ)) : List Bytes :=
  events.filterMap fun
    | .input data => some data.bytes
    | _ => none

theorem mem_windows {marker : Bytes} (hne : marker ≠ []) (i : Nat) :
    i ∈ (List.range (chunk.length + 1 - marker.length)).filter
      (fun i => marker.isPrefixOf (chunk.drop i)) ↔ At marker chunk i := by
  rw [mem_filter, mem_range, isPrefixOf_iff_prefix]
  refine ⟨And.right, fun hat => ⟨?_, hat⟩⟩
  have hlength := At.le_length hat
  have hpos := length_pos_iff.mpr hne
  omega

theorem lastWindow_none {marker : Bytes} (hne : marker ≠ []) :
    lastWindow chunk marker = none ↔ ∀ i, ¬ At marker chunk i := by
  unfold lastWindow
  rw [List.getLast?_eq_none_iff, eq_nil_iff_forall_not_mem]
  exact forall_congr' fun i => not_congr (mem_windows hne i)

theorem lastWindow_some {marker : Bytes} (hne : marker ≠ []) {s : Nat}
    (h : lastWindow chunk marker = some s) :
    At marker chunk s ∧ ∀ i, At marker chunk i → i ≤ s := by
  have hsorted : ((List.range (chunk.length + 1 - marker.length)).filter
      fun i => marker.isPrefixOf (chunk.drop i)).Pairwise (· < ·) :=
    List.Pairwise.filter _ pairwise_lt_range
  have hmem := @mem_windows chunk marker hne
  unfold lastWindow at h
  obtain ⟨windows, hwindows⟩ := List.getLast?_eq_some_iff.mp h
  rw [hwindows] at hsorted hmem
  refine ⟨(hmem s).mp (mem_append_right _ mem_cons_self), fun i hat => ?_⟩
  rcases mem_append.mp ((hmem i).mpr hat) with hbefore | hlast
  · exact ((pairwise_append.mp hsorted).2.2 i hbefore s mem_cons_self).le
  · exact (mem_singleton.mp hlast).le

/-- The two markers do not stand at one place. -/
theorem markers_differ {i : Nat} (hstart : At pasteStart chunk i) : ¬ At pasteEnd chunk i := by
  intro hend
  have hsame := prefix_of_prefix_length_le hstart hend (by decide)
  exact absurd hsame (by decide)

/-- A paste that a chunk opens, or that was open and the chunk does not end, is seen. -/
theorem pasteAfter_of_opened {inPaste : Bool}
    (h : Opened pasteStart pasteEnd chunk ∨ (inPaste = true ∧ ∀ j, ¬ At pasteEnd chunk j)) :
    pasteAfter chunk inPaste = true := by
  unfold pasteAfter
  have hstartne : pasteStart ≠ [] := by decide
  have hendne : pasteEnd ≠ [] := by decide
  rcases h with ⟨i, hstart, hlater⟩ | ⟨hopen, hnone⟩
  · cases hfound : lastWindow chunk pasteStart with
    | none => exact ((lastWindow_none hstartne).mp hfound i hstart).elim
    | some s =>
      obtain ⟨hats, hlast⟩ := lastWindow_some hstartne hfound
      cases hends : lastWindow chunk pasteEnd with
      | none => rfl
      | some e =>
        obtain ⟨hate, -⟩ := lastWindow_some hendne hends
        have hbefore : e ≤ i := Nat.not_lt.mp fun hlt => hlater e hlt hate
        have hle := hlast i hstart
        have hne : e ≠ s := by
          rintro rfl
          exact markers_differ hats hate
        exact decide_eq_true (by omega)
  · rw [(lastWindow_none hendne).mpr hnone]
    cases lastWindow chunk pasteStart with
    | none => exact hopen
    | some s => rfl

/-- The bytes that were written of the first chunk. -/
def PtyInputQueue.part (q : PtyInputQueue κ) : Bytes :=
  match q.input with
  | [] => []
  | front :: _ => front.bytes.take q.written

/-- Some chunks were written, the others wait, and an open paste is known. -/
structure Paced (task : InputTask κ) (written : Bytes) (pushed sent : List Bytes) : Prop where
  pushed : pushed.filter (fun c => !c.isEmpty) = sent ++ task.queue.input.map PaneInput.bytes
  written : written = sent.flatten ++ task.queue.part
  idle : task.queue.input = [] → task.queue.written = 0
  within : ∀ front rest, task.queue.input = front :: rest → task.queue.written < front.bytes.length
  inPaste : Opened pasteStart pasteEnd sent.flatten → task.queue.inPaste = true

variable {task : InputTask κ} {written : Bytes} {pushed sent : List Bytes}

theorem Paced.new (free : κ → Nat) : Paced (InputTask.new free) [] [] [] := by
  refine ⟨rfl, rfl, fun _ => rfl, ?_, ?_⟩
  · rintro front rest hinput
    cases hinput
  · rintro ⟨i, hstart, -⟩
    have hlength := hstart.le_length
    exact absurd hlength (by simp [pasteStart])

section

variable [DecidableEq κ]

theorem Paced.reply (h : Paced task written pushed sent) (text : Bytes) :
    Paced (task.step (.reply text)) written pushed sent := by
  unfold InputTask.step PtyInputQueue.push
  dsimp only
  by_cases hfull : PtyInputQueue.cap < task.queue.replies.length + text.length
  · rw [if_pos hfull]
    exact ⟨h.pushed, h.written, h.idle, h.within, h.inPaste⟩
  · rw [if_neg hfull]
    exact ⟨h.pushed, h.written, h.idle, h.within, h.inPaste⟩

theorem Paced.input (h : Paced task written pushed sent) (data : PaneInput κ) :
    Paced (task.step (.input data)) written (pushed ++ [data.bytes]) sent := by
  unfold InputTask.step PtyInputQueue.pushInput
  dsimp only
  by_cases hempty : data.bytes.isEmpty = true
  · rw [if_pos hempty]
    refine ⟨?_, h.written, h.idle, h.within, h.inPaste⟩
    rw [filter_append, h.pushed, filter_singleton, hempty]
    exact append_nil _
  · have hfull : data.bytes.isEmpty = false := Bool.eq_false_iff.mpr hempty
    rw [if_neg hempty]
    refine ⟨?_, ?_, ?_, ?_, h.inPaste⟩
    · rw [filter_append, h.pushed, filter_singleton, hfull, map_append, append_assoc]
      rfl
    · rw [h.written]
      unfold PtyInputQueue.part
      dsimp only
      cases hinput : task.queue.input with
      | nil =>
        dsimp only [nil_append]
        rw [h.idle hinput, take_zero]
      | cons front rest => rfl
    · intro hnil
      exact absurd hnil (by simp)
    · intro front rest hcons
      dsimp only at hcons ⊢
      cases hinput : task.queue.input with
      | nil =>
        rw [hinput, nil_append, List.cons.injEq] at hcons
        rw [h.idle hinput, ← hcons.1]
        exact length_pos_iff.mpr (isEmpty_eq_false_iff.mp hfull)
      | cons first others =>
        rw [hinput, cons_append, List.cons.injEq] at hcons
        rw [← hcons.1]
        exact h.within first others hinput

omit [DecidableEq κ] in
/-- What is written is a reply or the next chunk. -/
theorem Paced.input_ne_nil (h : Paced task written pushed sent)
    (hidle : task.queue.isEmpty = false) (hreplying : task.queue.replying = false) :
    task.queue.input ≠ [] := by
  intro hnil
  unfold PtyInputQueue.isEmpty at hidle
  unfold PtyInputQueue.replying at hreplying
  rw [hnil, isEmpty_nil, Bool.true_and, Bool.or_eq_false_iff] at hidle
  rw [h.idle hnil, hidle.1, hidle.2] at hreplying
  cases hreplying

/-- A chunk goes on, or its end is reached and the paste it leaves open is seen. -/
theorem Paced.write (h : Paced task written pushed sent) (hcut : Uncut pasteStart pushed)
    (more : Nat) : ∃ sent', Paced (task.step (.write more)) (written ++ task.wroteInput more)
      pushed sent' := by
  unfold InputTask.step InputTask.wroteInput InputTask.wrote
  dsimp only
  cases hidle : task.queue.isEmpty with
  | true =>
    refine ⟨sent, ?_⟩
    rw [if_pos rfl, if_pos rfl, ite_self, append_nil]
    exact h
  | false =>
    rw [if_neg Bool.false_ne_true, if_neg Bool.false_ne_true]
    unfold PtyInputQueue.consume PtyInputQueue.next
    cases hreplying : task.queue.replying with
    | true =>
      refine ⟨sent, ?_⟩
      rw [if_pos rfl, if_pos rfl, if_pos rfl, append_nil]
      exact ⟨h.pushed, h.written, h.idle, h.within, h.inPaste⟩
    | false =>
      rw [if_neg Bool.false_ne_true, if_neg Bool.false_ne_true, if_neg Bool.false_ne_true]
      cases hinput : task.queue.input with
      | nil => exact (h.input_ne_nil hidle hreplying hinput).elim
      | cons front rest =>
        have hlt := h.within front rest hinput
        have hwritten := h.written
        have hpushed := h.pushed
        have hfilled : ∀ data ∈ rest, data.bytes ≠ [] := by
          intro data hdata
          have hmem : data.bytes ∈ pushed.filter fun c => !c.isEmpty := by
            rw [hpushed, hinput]
            exact mem_append_right _
              (mem_map_of_mem (mem_cons_of_mem _ hdata))
          have hne := (mem_filter.mp hmem).2
          rwa [Bool.not_eq_true', isEmpty_eq_false_iff] at hne
        unfold PtyInputQueue.part at hwritten
        rw [hinput] at hwritten hpushed
        dsimp only at hwritten ⊢
        rw [front.wrote_bytes, length_drop, hwritten, append_assoc, ← take_add]
        by_cases hend : front.bytes.length = task.queue.written +
            min (more + 1) (front.bytes.length - task.queue.written)
        · rw [if_pos hend]
          refine ⟨sent ++ [front.bytes], ?_, ?_, fun _ => rfl, ?_, ?_⟩
          · rw [hpushed, map_cons, append_assoc, singleton_append]
          · rw [← hend, take_length, flatten_append, flatten_singleton]
            unfold PtyInputQueue.part
            cases rest with
            | nil | cons next others => exact (append_nil _).symm
          · intro next others hcons
            refine length_pos_iff.mpr (hfilled next ?_)
            rw [show rest = next :: others from hcons]
            exact mem_cons_self
          · intro hopened
            rw [flatten_append, flatten_singleton] at hopened
            have huncut := hcut.filter
            rw [hpushed, map_cons] at huncut
            refine pasteAfter_of_opened ?_
            exact (hopened.of_append (by decide) huncut.next).imp_right
              (And.imp_left h.inPaste)
        · rw [if_neg hend]
          refine ⟨sent, ?_, ?_, ?_, ?_, h.inPaste⟩
          · rw [hpushed, map_cons, map_cons, front.wrote_bytes]
          · unfold PtyInputQueue.part
            dsimp only
            rw [front.wrote_bytes]
          · intro hnil
            cases hnil
          · rintro next others hcons
            obtain ⟨rfl, -⟩ := List.cons.inj hcons
            rw [front.wrote_bytes]
            show task.queue.written + _ < _
            omega

theorem Paced.run (free : κ → Nat) {events : List (InputEvent κ)}
    (hmode : .leavePaste ∉ events) (hcut : Uncut pasteStart (chunksOf events)) :
    ∃ sent, Paced (InputTask.run free events) (InputTask.inputWritten free events)
      (chunksOf events) sent := by
  induction events using List.reverseRecOn with
  | nil => exact ⟨[], Paced.new free⟩
  | append_singleton events event ih =>
    have hchunks : chunksOf (events ++ [event]) = chunksOf events ++ chunksOf [event] :=
      filterMap_append
    rw [hchunks] at hcut
    obtain ⟨sent, hpaced⟩ := ih (fun hmem => hmode (mem_append_left _ hmem)) hcut.append_left
    have hrun : InputTask.run free (events ++ [event]) =
        (InputTask.run free events).step event := foldl_append
    rw [hchunks, hrun, InputTask.inputWritten_concat]
    cases event with
    | reply text =>
      refine ⟨sent, ?_⟩
      rw [show chunksOf [InputEvent.reply (κ := κ) text] = [] from rfl, append_nil]
      exact hpaced.reply text
    | input data => exact ⟨sent, hpaced.input data⟩
    | write more =>
      rw [show chunksOf [InputEvent.write (κ := κ) more] = [] from rfl, append_nil]
      exact hpaced.write hcut.append_left more
    | leavePaste => exact (hmode (mem_append_right _ mem_cons_self)).elim

/-- However replies, chunks and writes of any size follow each other while the program stays in
paste mode, no reply byte is written inside a paste, as long as no start marker is cut across two
chunks. -/
theorem reply_outside_paste (free : κ → Nat) (events : List (InputEvent κ))
    (hmode : .leavePaste ∉ events) (hcut : Uncut pasteStart (chunksOf events))
    (before after : List (InputEvent κ)) (more : Nat)
    (hevents : events = before ++ .write more :: after)
    (hreply : (InputTask.run free before).wroteReply more ≠ []) :
    ¬ Opened pasteStart pasteEnd (InputTask.inputWritten free before) := by
  intro hopened
  have hchunks : chunksOf events = chunksOf before ++ chunksOf (.write more :: after) := by
    rw [hevents]
    exact filterMap_append
  rw [hchunks] at hcut
  obtain ⟨sent, hpaced⟩ := Paced.run free
    (fun hmem => hmode (hevents ▸ mem_append_left _ hmem)) hcut.append_left
  have hreplying : (InputTask.run free before).queue.replying = true := by
    by_contra hno
    exact hreply (if_neg hno)
  unfold PtyInputQueue.replying at hreplying
  rw [Bool.and_eq_true, Bool.and_eq_true, beq_iff_eq, Bool.not_eq_true'] at hreplying
  obtain ⟨⟨hwritten, hout⟩, -⟩ := hreplying
  have hpart : (InputTask.run free before).queue.part = [] := by
    unfold PtyInputQueue.part
    rw [hwritten]
    cases (InputTask.run free before).queue.input with
    | nil => rfl
    | cons front rest => rfl
  rw [hpaced.written, hpart, append_nil] at hopened
  rw [hpaced.inPaste hopened] at hout
  cases hout

end

/-- A paste whose start marker comes in two chunks, and a reply behind them. -/
def cutPaste : List (InputEvent Unit) :=
  [.input ⟨[0x1b, 0x5b, 0x32, 0x30], none⟩, .input ⟨[0x30, 0x7e, 0x61], none⟩, .write 9, .write 9,
    .reply [0x63]]

/-- The reply is written inside the paste. -/
theorem reply_inside_cut_paste : .leavePaste ∉ cutPaste ∧
    (InputTask.run (fun _ => 0) cutPaste).wroteReply 0 = [0x63] ∧
    Opened pasteStart pasteEnd (InputTask.inputWritten (fun _ => 0) cutPaste) := by
  have hwritten : InputTask.inputWritten (fun _ => 0) cutPaste = pasteStart ++ [0x61] := by decide
  refine ⟨by simp [cutPaste], by decide, ?_⟩
  rw [hwritten]
  refine ⟨0, by decide, fun j hj hend => ?_⟩
  have hlength := hend.le_length
  have hone : j = 1 := by
    simp [pasteStart, pasteEnd] at hlength
    omega
  subst hone
  exact absurd hend (by decide)

/-- A paste that comes in one chunk, a chunk that ends it, and a reply from before. -/
theorem reply_outside_paste_sample :
    ¬ Opened pasteStart pasteEnd (InputTask.inputWritten (κ := Unit) (fun _ => 0)
      [.input ⟨pasteStart, none⟩, .write 9, .reply [0x63], .input ⟨pasteEnd, none⟩, .write 9]) := by
  refine reply_outside_paste (fun _ => 0)
    [.input ⟨pasteStart, none⟩, .write 9, .reply [0x63], .input ⟨pasteEnd, none⟩, .write 9,
      .write 0] (by simp) (by decide) _ [] 0 rfl (by decide)

end Shux.Io
