/-
# The life of a command

Whatever the order of operations, the four maps of the engine agree: a pane has one command,
what is tracked is running or among the last finished, bytes are held for busy panes only, and
a result, once set, stays until it is forgotten.

Each operation is taken apart into moves on the engine, and what holds of a run is what every
move keeps.
-/

import Shux.Pty.Command

namespace Shux.Pty

open Search List FinMap TrackedCommand Option

namespace CommandEngine

/-- The maps of the engine agree. -/
structure Tidy (e : CommandEngine) : Prop where
  id_eq : ∀ id cmd, e.commands.get id = some cmd → cmd.id = id
  /-- A pane's command is tracked, and runs in that pane. -/
  active : ∀ p id, e.active.get p = some id → ∃ cmd, e.commands.get id = some cmd ∧ cmd.paneId = p
  /-- What is tracked holds its pane or has finished. -/
  tracked : ∀ id cmd, e.commands.get id = some cmd →
    e.active.get cmd.paneId = some id ∨ id ∈ e.finished
  finished : ∀ id ∈ e.finished, ∃ cmd, e.commands.get id = some cmd ∧
    cmd.result.isSome = true ∧ e.active.get cmd.paneId ≠ some id
  finished_nodup : e.finished.Nodup
  finished_le : e.finished.length ≤ keepFinished
  /-- Bytes are held for busy panes only. -/
  pending : ∀ p held, e.pending.get p = some held → ∃ id, e.active.get p = some id
  running : ∀ id cmd, e.commands.get id = some cmd → (cmd.state = .running ↔ cmd.result = none)
  /-- No command's caller was answered twice. -/
  sent_nodup : (e.sent.map CommandResult.commandId).Nodup
  /-- A caller was sent its command's result. -/
  sent_result : ∀ r ∈ e.sent, ∀ cmd, e.commands.get r.commandId = some cmd → cmd.result = some r

/-- A change that leaves the frame of a command: only what was read of its output. -/
structure SameFrame (cmd cmd' : TrackedCommand) : Prop where
  id : cmd'.id = cmd.id
  paneId : cmd'.paneId = cmd.paneId
  marker : cmd'.marker = cmd.marker
  state : cmd'.state = cmd.state
  result : cmd'.result = cmd.result

/-- What an operation other than a registration does, in small steps. -/
inductive Move : CommandEngine → CommandEngine → Prop where
  | hold {e : CommandEngine} {p id : Uuid} (held : List UInt8)
      (hactive : e.active.get p = some id) :
      Move e { e with pending := e.pending.insert p held }
  | drop {e : CommandEngine} (p : Uuid) : Move e { e with pending := e.pending.remove p }
  | feed {e : CommandEngine} {id : Uuid} {cmd cmd' : TrackedCommand}
      (hcmd : e.commands.get id = some cmd) (hframe : SameFrame cmd cmd') :
      Move e { e with commands := e.commands.insert id cmd' }
  | finish {e : CommandEngine} {id : Uuid} {cmd cmd' : TrackedCommand} {r : CommandResult}
      (hcmd : e.commands.get id = some cmd) (hrunning : cmd.state = .running)
      (hid : cmd'.id = cmd.id) (hpane : cmd'.paneId = cmd.paneId) (hstate : cmd'.state ≠ .running)
      (hresult : cmd'.result = some r) (hr : r.commandId = id) {sent : List CommandResult}
      (hsent : sent = e.sent ∨ sent = e.sent ++ [r]) :
      Move e { e with commands := e.commands.insert id cmd', sent := sent }
  | release {e : CommandEngine} {id : Uuid} {cmd : TrackedCommand}
      (hcmd : e.commands.get id = some cmd) (hactive : e.active.get cmd.paneId = some id)
      (hresult : cmd.result.isSome = true) :
      Move e (evict { e with
        active := e.active.remove cmd.paneId
        pending := e.pending.remove cmd.paneId
        finished := e.finished ++ [id] })

section Keep

variable {e e' : CommandEngine}
variable {sent : List CommandResult} {cmd : TrackedCommand} {id : Uuid}
variable {cmd' : TrackedCommand}

theorem Tidy.hold (h : Tidy e) {p : Uuid} (held : List UInt8) (hactive : e.active.get p = some id) :
    Tidy { e with pending := e.pending.insert p held } where
  __ := h
  pending := forall_insert ⟨id, hactive⟩ h.pending

theorem Tidy.drop (h : Tidy e) (p : Uuid) : Tidy { e with pending := e.pending.remove p } where
  __ := h
  pending := forall_remove p h.pending

/-- Another record under the id of a tracked command, in the same pane. -/
theorem Tidy.update (h : Tidy e) (hcmd : e.commands.get id = some cmd) (hid : cmd'.id = cmd.id)
    (hpane : cmd'.paneId = cmd.paneId) (hrunning : cmd'.state = .running ↔ cmd'.result = none)
    (hkeeps : ∀ r, cmd.result = some r → cmd'.result = some r)
    (hnodup : (sent.map CommandResult.commandId).Nodup)
    (hsent : ∀ r ∈ sent, r ∈ e.sent ∨ cmd'.result = some r ∧ r.commandId = id) :
    Tidy { e with commands := e.commands.insert id cmd', sent := sent } where
  id_eq := forall_insert (hid.trans (h.id_eq id cmd hcmd)) h.id_eq
  active p k hk := exists_replace hcmd hpane.trans (h.active p k hk)
  tracked := forall_insert (hpane ▸ h.tracked id cmd hcmd) h.tracked
  finished k hk := by
    refine exists_replace hcmd ?_ (h.finished k hk)
    rintro ⟨hresult, hne⟩
    obtain ⟨r, hr⟩ := Option.isSome_iff_exists.mp hresult
    exact ⟨by rw [hkeeps r hr]; rfl, hpane ▸ hne⟩
  finished_nodup := h.finished_nodup
  finished_le := h.finished_le
  pending := h.pending
  running := forall_insert hrunning h.running
  sent_nodup := hnodup
  sent_result r hr c hc := by
    rw [get_insert] at hc
    split_ifs at hc with heq
    · cases hc
      obtain hold | ⟨hnew, -⟩ := hsent r hr
      · exact hkeeps r (h.sent_result r hold cmd (heq ▸ hcmd))
      · exact hnew
    · obtain hold | ⟨-, hnew⟩ := hsent r hr
      · exact h.sent_result r hold c hc
      · exact absurd hnew heq

theorem Tidy.feed (h : Tidy e) (hcmd : e.commands.get id = some cmd) (hframe : SameFrame cmd cmd') :
    Tidy { e with commands := e.commands.insert id cmd' } := by
  refine h.update hcmd hframe.id hframe.paneId ?_ ?_ h.sent_nodup fun r hr => .inl hr
  · rw [hframe.state, hframe.result]
    exact h.running id cmd hcmd
  · intro r hr
    rw [hframe.result, hr]

theorem Tidy.finish (h : Tidy e) {r : CommandResult}
    (hcmd : e.commands.get id = some cmd) (hrunning : cmd.state = .running)
    (hid : cmd'.id = cmd.id) (hpane : cmd'.paneId = cmd.paneId) (hstate : cmd'.state ≠ .running)
    (hresult : cmd'.result = some r) (hr : r.commandId = id)
    (hsent : sent = e.sent ∨ sent = e.sent ++ [r]) :
    Tidy { e with commands := e.commands.insert id cmd', sent := sent } := by
  have hnone : cmd.result = none := (h.running id cmd hcmd).mp hrunning
  -- A running command's caller has not been answered.
  have hunsent : id ∉ e.sent.map CommandResult.commandId := by
    intro hmem
    obtain ⟨r', hr', hid'⟩ := mem_map.mp hmem
    have hresult' := h.sent_result r' hr' cmd (hid' ▸ hcmd)
    rw [hnone] at hresult'
    cases hresult'
  refine h.update hcmd hid hpane ?_ ?_ ?_ ?_
  · rw [hresult]
    exact iff_of_false hstate (some_ne_none r)
  · intro r' hr'
    rw [hnone] at hr'
    cases hr'
  · obtain rfl | rfl := hsent
    · exact h.sent_nodup
    · rw [map_append, map_singleton, hr, nodup_append_comm]
      exact nodup_cons.mpr ⟨hunsent, h.sent_nodup⟩
  · intro r' hr'
    obtain rfl | rfl := hsent
    · exact .inl hr'
    · obtain hold | hnew := mem_append.mp hr'
      · exact .inl hold
      · rw [mem_singleton] at hnew
        rw [hnew]
        exact .inr ⟨hresult, hr⟩

/-- A list without duplicates falls into its first items and the others. -/
theorem mem_drop_iff {α : Type} {list : List α} (hnodup : list.Nodup) (n : Nat) {k : α}
    (hk : k ∈ list) : k ∈ list.drop n ↔ k ∉ list.take n := by
  constructor
  · exact fun hdrop htake => disjoint_take_drop hnodup le_rfl htake hdrop
  · intro hnot
    rw [← take_append_drop n list, mem_append] at hk
    exact hk.resolve_left hnot

/-- A command moves from its pane to the finished ones, and the oldest of these go. -/
theorem Tidy.release (h : Tidy e)
    (hcmd : e.commands.get id = some cmd) (hactive : e.active.get cmd.paneId = some id)
    (hresult : cmd.result.isSome = true) :
    Tidy (evict { e with
      active := e.active.remove cmd.paneId
      pending := e.pending.remove cmd.paneId
      finished := e.finished ++ [id] }) := by
  have hnew : id ∉ e.finished := by
    intro hmem
    obtain ⟨c, hc, -, hne⟩ := h.finished id hmem
    rw [hcmd] at hc
    cases hc
    exact hne hactive
  have hnodup : (e.finished ++ [id]).Nodup := by
    rw [nodup_append_comm]
    exact nodup_cons.mpr ⟨hnew, h.finished_nodup⟩
  generalize hlist : e.finished ++ [id] = list at hnodup
  have hlist' : ∀ k, k ∈ list ↔ k ∈ e.finished ∨ k = id := by
    intro k
    rw [← hlist, mem_append, mem_singleton]
  have hother : ∀ k, k ≠ id → ∀ c, e.commands.get k = some c → e.active.get c.paneId = some k →
      c.paneId ≠ cmd.paneId := by
    intro k hk c hc hck heq
    rw [heq, hactive, Option.some.injEq] at hck
    exact hk hck.symm
  unfold evict
  constructor
  case id_eq => exact forall_removeAll _ h.id_eq
  case active =>
    intro p k hk
    rw [get_remove] at hk
    split_ifs at hk with hp
    obtain ⟨c, hc, hcp⟩ := h.active p k hk
    refine ⟨c, ?_, hcp⟩
    rw [get_removeAll, if_neg ?_]
    · exact hc
    · intro hmem
      obtain hfin | rfl := (hlist' k).mp (mem_of_mem_take hmem)
      · obtain ⟨c', hc', -, hne⟩ := h.finished k hfin
        rw [hc] at hc'
        cases hc'
        exact hne (hcp ▸ hk)
      · rw [hcmd] at hc
        cases hc
        exact hp hcp.symm
  case tracked =>
    intro k c hk
    rw [get_removeAll] at hk
    split_ifs at hk with hmem
    by_cases heq : k = id
    · exact .inr ((mem_drop_iff hnodup _ ((hlist' k).mpr (.inr heq))).mpr hmem)
    · obtain hact | hfin := h.tracked k c hk
      · left
        rw [get_remove, if_neg (hother k heq c hk hact)]
        exact hact
      · exact .inr ((mem_drop_iff hnodup _ ((hlist' k).mpr (.inl hfin))).mpr hmem)
  case finished =>
    intro k hk
    rw [get_removeAll, if_neg ((mem_drop_iff hnodup _ (mem_of_mem_drop hk)).mp hk)]
    obtain hfin | rfl := (hlist' k).mp (mem_of_mem_drop hk)
    · obtain ⟨c, hc, hcresult, hne⟩ := h.finished k hfin
      refine ⟨c, hc, hcresult, fun hget => ?_⟩
      rw [get_remove] at hget
      split_ifs at hget
      exact hne hget
    · refine ⟨cmd, hcmd, hresult, fun hget => ?_⟩
      rw [get_remove, if_pos rfl] at hget
      cases hget
  case finished_nodup => exact hnodup.sublist (drop_sublist _ _)
  case finished_le =>
    show (list.drop (list.length - keepFinished)).length ≤ keepFinished
    rw [length_drop]
    omega
  case pending =>
    intro p held hp
    rw [get_remove] at hp
    split_ifs at hp with hne
    obtain ⟨k, hk⟩ := h.pending p held hp
    refine ⟨k, ?_⟩
    rw [get_remove, if_neg hne]
    exact hk
  case running => exact forall_removeAll _ h.running
  case sent_nodup => exact h.sent_nodup
  case sent_result =>
    intro r hr c hc
    rw [get_removeAll] at hc
    split_ifs at hc
    exact h.sent_result r hr c hc

theorem Move.tidy (h : Move e e') (htidy : Tidy e) : Tidy e' := by
  cases h with
  | hold held hactive => exact htidy.hold held hactive
  | drop p => exact htidy.drop p
  | feed hcmd hframe => exact htidy.feed hcmd hframe
  | finish hcmd hrunning hid hpane hstate hresult hr hsent =>
    exact htidy.finish hcmd hrunning hid hpane hstate hresult hr hsent
  | release hcmd hactive hresult => exact htidy.release hcmd hactive hresult

end Keep

/-- Whether a command is tracked, and its result if it has one. -/
def phase (e : CommandEngine) (id : Uuid) : Option (Option CommandResult) :=
  (e.commands.get id).map TrackedCommand.result

/-- A command that is gone stays away, and one with a result keeps it until it goes. -/
structure Ages (before after : Option (Option CommandResult)) : Prop where
  gone : before = none → after = none
  frozen : ∀ r, before = some (some r) → after = some (some r) ∨ after = none

namespace Ages

variable {a b c : Option (Option CommandResult)}

theorem refl (a : Option (Option CommandResult)) : Ages a a := ⟨id, fun _ h => .inl h⟩

theorem trans (hab : Ages a b) (hbc : Ages b c) : Ages a c where
  gone h := hbc.gone (hab.gone h)
  frozen r h := by
    obtain hb | hb := hab.frozen r h
    · exact hbc.frozen r hb
    · exact .inr (hbc.gone hb)

theorem of_none (a : Option (Option CommandResult)) : Ages a none :=
  ⟨fun _ => rfl, fun _ _ => .inr rfl⟩

end Ages

/-- All ids the engine ever had, at most. -/
structure Known (used : Set Uuid) (e : CommandEngine) : Prop where
  tracked : ∀ id cmd, e.commands.get id = some cmd → id ∈ used
  sent : ∀ r ∈ e.sent, r.commandId ∈ used

section Moves

variable {e e' : CommandEngine}

theorem phase_insert (e : CommandEngine) (id k : Uuid) (cmd : TrackedCommand) :
    phase { e with commands := e.commands.insert id cmd } k =
      if k = id then some cmd.result else phase e k := by
  unfold phase
  rw [get_insert]
  split_ifs <;> rfl

theorem Move.ages (h : Move e e') (htidy : Tidy e) (k : Uuid) : Ages (e.phase k) (e'.phase k) := by
  cases h with
  | hold held hactive => exact .refl _
  | drop p => exact .refl _
  | @feed id cmd cmd' hcmd hframe =>
    rw [phase_insert]
    split_ifs with heq
    · rw [heq, phase, hcmd, map_some, hframe.result]
      exact .refl _
    · exact .refl _
  | @finish id cmd cmd' r hcmd hrunning hid hpane hstate hresult hr sent hsent =>
    show Ages (e.phase k) (phase { e with commands := e.commands.insert id cmd' } k)
    rw [phase_insert]
    split_ifs with heq
    · -- It was running, so that it had no result to keep.
      rw [heq, phase, hcmd, map_some, (htidy.running id cmd hcmd).mp hrunning]
      exact ⟨nofun, nofun⟩
    · exact .refl _
  | @release id cmd hcmd hactive hresult =>
    unfold evict phase
    rw [get_removeAll]
    split_ifs
    · exact .of_none _
    · exact .refl _

theorem Move.known {used : Set Uuid} (h : Move e e') (hknown : Known used e) : Known used e' := by
  have hinsert : ∀ id cmd (cmd' : TrackedCommand), e.commands.get id = some cmd →
      ∀ k c, (e.commands.insert id cmd').get k = some c → k ∈ used := by
    intro id cmd cmd' hcmd
    exact forall_insert (hknown.tracked id cmd hcmd) hknown.tracked
  cases h with
  | hold held hactive | drop p => exact ⟨hknown.tracked, hknown.sent⟩
  | @feed id cmd cmd' hcmd hframe => exact ⟨hinsert id cmd cmd' hcmd, hknown.sent⟩
  | @finish id cmd cmd' r hcmd hrunning hid hpane hstate hresult hr sent hsent =>
    refine ⟨hinsert id cmd cmd' hcmd, fun r' hr' => ?_⟩
    obtain rfl | rfl := hsent
    · exact hknown.sent r' hr'
    · obtain hold | hnew := mem_append.mp hr'
      · exact hknown.sent r' hold
      · rw [mem_singleton.mp hnew, hr]
        exact hknown.tracked id cmd hcmd
  | @release id cmd hcmd hactive hresult =>
    exact ⟨forall_removeAll _ hknown.tracked, hknown.sent⟩

/-- Any number of moves. -/
def Moves : CommandEngine → CommandEngine → Prop := Relation.ReflTransGen Move

theorem Moves.keep (h : Moves e e') (htidy : Tidy e) :
    Tidy e' ∧ (∀ k, Ages (e.phase k) (e'.phase k)) ∧ ∀ used, Known used e → Known used e' := by
  induction h with
  | refl => exact ⟨htidy, fun k => .refl _, fun used hknown => hknown⟩
  | tail _ hmove ih =>
    obtain ⟨htidy', hages, hknown⟩ := ih
    exact ⟨hmove.tidy htidy', fun k => (hages k).trans (hmove.ages htidy' k),
      fun used h => hmove.known (hknown used h)⟩

end Moves

/-! ## Operations as moves -/

theorem SameFrame.refl (cmd : TrackedCommand) : SameFrame cmd cmd := ⟨rfl, rfl, rfl, rfl, rfl⟩

theorem SameFrame.trans {a b c : TrackedCommand} (h : SameFrame a b) (h' : SameFrame b c) :
    SameFrame a c where
  id := h'.id.trans h.id
  paneId := h'.paneId.trans h.paneId
  marker := h'.marker.trans h.marker
  state := h'.state.trans h.state
  result := h'.result.trans h.result

theorem sameFrame_keep (cmd : TrackedCommand) (payload : List UInt8) :
    SameFrame cmd (cmd.keep payload) := by
  unfold keep
  split
  · exact .refl cmd
  · exact ⟨rfl, rfl, rfl, rfl, rfl⟩

/-- The command a scan returns. -/
def EndScan.cmd : TrackedCommand.EndScan → TrackedCommand
  | .more cmd _ => cmd
  | .exit cmd _ => cmd

theorem sameFrame_scanEnd (cmd : TrackedCommand) (buf : List UInt8) :
    SameFrame cmd (EndScan.cmd (cmd.scanEnd buf)) := by
  fun_induction scanEnd cmd buf with
  | case1 | case2 => exact sameFrame_keep _ _
  | case3 cmd buf start hfind hnot ih => exact (sameFrame_keep _ _).trans ih
  | case4 => exact sameFrame_keep _ _

section Operations

variable [Transcript] {e : CommandEngine}

/-- After finishing, a command has a result and is where it was. -/
theorem finish_moves (e : CommandEngine) (htidy : Tidy e) (now : Nat) (id : Uuid)
    (state : CommandState) (hstate : state ≠ .running) (exitCode : Option Nat) :
    Moves e (e.finish now id state exitCode).1 ∧
      (e.finish now id state exitCode).1.active = e.active ∧
      ∀ cmd, e.commands.get id = some cmd →
        ∃ cmd', (e.finish now id state exitCode).1.commands.get id = some cmd' ∧
          cmd'.paneId = cmd.paneId ∧ cmd'.result.isSome = true := by
  unfold finish
  cases hcmd : e.commands.get id with
  | none => exact ⟨.refl, rfl, fun _ h => by cases h⟩
  | some cmd =>
    dsimp only
    by_cases hrunning : cmd.state = .running
    · rw [if_neg (not_not.mpr hrunning)]
      generalize hkept : (if state ≠ .completed ∧ cmd.begun = true then _ else cmd) = kept
      have hframe : SameFrame cmd kept := by
        rw [← hkept]
        split
        · exact sameFrame_keep cmd _
        · exact .refl cmd
      refine ⟨.single ?_, rfl, ?_⟩
      · refine .finish hcmd hrunning ?_ ?_ ?_ rfl rfl ?_
        · exact hframe.id
        · exact hframe.paneId
        · exact hstate
        · split
          · exact .inr rfl
          · exact .inl rfl
      · intro c hc
        cases hc
        exact ⟨_, get_insert_self _ _ _, hframe.paneId, rfl⟩
    · rw [if_pos hrunning]
      refine ⟨.refl, rfl, fun c hc => ?_⟩
      cases hc
      refine ⟨cmd, hcmd, rfl, ?_⟩
      rw [isSome_iff_ne_none]
      exact fun hnone => hrunning ((htidy.running id cmd hcmd).mpr hnone)

omit [Transcript] in
theorem release_moves {id : Uuid} {cmd : TrackedCommand} (hcmd : e.commands.get id = some cmd)
    (hresult : cmd.result.isSome = true) : Moves e (e.release id) := by
  unfold release
  rw [hcmd]
  dsimp only
  split_ifs with hactive
  · exact .refl
  · exact .single (.release hcmd (not_not.mp hactive) hresult)

/-- A command finishes and leaves its pane. -/
theorem finish_release_moves (e : CommandEngine) (htidy : Tidy e) (now : Nat) (id : Uuid)
    (state : CommandState) (hstate : state ≠ .running) (exitCode : Option Nat) :
    Moves e ((e.finish now id state exitCode).1.release id) := by
  obtain ⟨hmoves, -, hafter⟩ := finish_moves e htidy now id state hstate exitCode
  refine hmoves.trans ?_
  cases hcmd : e.commands.get id with
  | none =>
    have hsame : (e.finish now id state exitCode).1 = e := by
      unfold finish
      rw [hcmd]
    rw [hsame]
    unfold release
    rw [hcmd]
  | some cmd =>
    obtain ⟨cmd', hcmd', -, hresult⟩ := hafter cmd hcmd
    exact release_moves hcmd' hresult

theorem processOutput_moves (htidy : Tidy e) (now : Nat) (p : Uuid) (output : List UInt8) :
    Moves e (e.processOutput now p output).1 := by
  unfold processOutput
  cases hactive : e.active.get p with
  | none => exact .refl
  | some id =>
    dsimp only
    have hdrop : Move e { e with pending := e.pending.remove p } := .drop p
    obtain ⟨cmd, hcmd, hpane⟩ := htidy.active p id hactive
    rw [hcmd]
    dsimp only
    split
    · next held _ => exact (Relation.ReflTransGen.single hdrop).tail (.hold held hactive)
    · next rest _ =>
      have hframe := sameFrame_scanEnd { cmd with begun := true } rest
      have hfeed : Move { e with pending := e.pending.remove p }
          { e with
            commands := e.commands.insert id (EndScan.cmd (scanEnd { cmd with begun := true } rest))
            pending := e.pending.remove p } :=
        .feed hcmd ⟨hframe.id, hframe.paneId, hframe.marker, hframe.state, hframe.result⟩
      split
      · next cmd' held hscan =>
        rw [hscan] at hfeed
        exact ((Relation.ReflTransGen.single hdrop).tail hfeed).tail (.hold held hactive)
      · next cmd' code hscan =>
        rw [hscan] at hfeed
        have hfed := (Relation.ReflTransGen.single hdrop).tail hfeed
        exact hfed.trans
          (finish_release_moves _ (hfeed.tidy (hdrop.tidy htidy)) now id .completed (by decide) _)

theorem timeOut_moves (htidy : Tidy e) (now : Nat) (id : Uuid) : Moves e (e.timeOut now id).1 := by
  unfold timeOut
  cases hcmd : e.commands.get id with
  | none => exact .refl
  | some cmd => exact (finish_moves e htidy now id .timedOut (by decide) _).1

theorem checkTimeouts_moves (htidy : Tidy e) (now : Nat) (listing : Listing) :
    Moves e (e.checkTimeouts now listing).1 := by
  have hloop : ∀ (ids : List Uuid) (e : CommandEngine) (out : List (Uuid × CommandResult)),
      Tidy e → Moves e (ids.foldl (fun s id =>
        ((s.1.timeOut now id).1, s.2 ++ (s.1.timeOut now id).2.toList)) (e, out)).1 := by
    intro ids
    induction ids with
    | nil => exact fun e out _ => .refl
    | cons id ids ih =>
      intro e out htidy
      have hmoves := timeOut_moves htidy now id
      exact hmoves.trans (ih _ _ (hmoves.keep htidy).1)
  exact hloop _ e [] htidy

theorem cancelCommand_moves (htidy : Tidy e) (now : Nat) (id : Uuid) :
    Moves e (e.cancelCommand now id).1 := by
  unfold cancelCommand
  cases hcmd : e.commands.get id with
  | none => exact .refl
  | some cmd =>
    dsimp only
    split_ifs with hactive
    · exact .refl
    · exact finish_release_moves e htidy now id .cancelled (by decide) _

theorem forgetPane_moves (htidy : Tidy e) (now : Nat) (p : Uuid) :
    Moves e (e.forgetPane now p) := by
  unfold forgetPane
  dsimp only
  split
  · next id _ => exact (finish_release_moves e htidy now id .paneGone (by decide) _).tail (.drop p)
  · exact .single (.drop p)

omit [Transcript] in
/-- A new command takes an idle pane. -/
theorem Tidy.register (htidy : Tidy e) (now : Nat) (p : Uuid) (prepared : PreparedCommand)
    (timeout : Nat) (completionTx : Bool) (hfresh : e.commands.get prepared.id = none)
    (hunsent : ∀ r ∈ e.sent, r.commandId ≠ prepared.id) :
    Tidy (e.register now p prepared timeout completionTx).1 := by
  unfold CommandEngine.register
  cases hactive : e.active.get p with
  | some running => exact htidy
  | none =>
    dsimp only
    have hother : ∀ k c, e.commands.get k = some c → k ≠ prepared.id := by
      rintro k c hk rfl
      rw [hfresh] at hk
      cases hk
    constructor
    case id_eq => exact forall_insert rfl htidy.id_eq
    case active =>
      intro q k hk
      rw [get_insert] at hk
      split_ifs at hk with hq
      · cases hk
        exact ⟨_, get_insert_self _ _ _, hq.symm⟩
      · obtain ⟨c, hc, hcq⟩ := htidy.active q k hk
        rw [get_insert, if_neg (hother k c hc)]
        exact ⟨c, hc, hcq⟩
    case tracked =>
      intro k c hk
      rw [get_insert] at hk
      split_ifs at hk with heq
      · cases hk
        rw [heq]
        exact .inl (get_insert_self _ _ _)
      · obtain hact | hfin := htidy.tracked k c hk
        · left
          rw [get_insert, if_neg]
          · exact hact
          · intro hq
            rw [hq, hactive] at hact
            cases hact
        · exact .inr hfin
    case finished =>
      intro k hk
      obtain ⟨c, hc, hresult, hne⟩ := htidy.finished k hk
      rw [get_insert, if_neg (hother k c hc)]
      refine ⟨c, hc, hresult, fun hget => ?_⟩
      rw [get_insert] at hget
      split_ifs at hget
      · cases hget
        exact hother _ c hc rfl
      · exact hne hget
    case finished_nodup => exact htidy.finished_nodup
    case finished_le => exact htidy.finished_le
    case pending =>
      intro q held hq
      obtain ⟨k, hk⟩ := htidy.pending q held hq
      rw [get_insert]
      split_ifs
      · exact ⟨_, rfl⟩
      · exact ⟨k, hk⟩
    case running => exact forall_insert (iff_of_true rfl rfl) htidy.running
    case sent_nodup => exact htidy.sent_nodup
    case sent_result =>
      intro r hr c hc
      rw [get_insert, if_neg (hunsent r hr)] at hc
      exact htidy.sent_result r hr c hc

end Operations

section Runs

variable [Transcript] {e : CommandEngine}

/-- What one operation keeps, if the id it brings in is new. -/
theorem step_keep {used : Set Uuid} (htidy : Tidy e) (hknown : Known used e) (op : Op)
    (hfresh : ∀ id, op.registers = some id → id ∉ used) :
    Tidy (e.step op) ∧ Known (used ∪ {id | op.registers = some id}) (e.step op) ∧
      ∀ k ∈ used, Ages (e.phase k) ((e.step op).phase k) := by
  have hmono : ∀ e', Known used e' → Known (used ∪ {id | op.registers = some id}) e' := by
    intro e' h
    exact ⟨fun id cmd hid => .inl (h.tracked id cmd hid), fun r hr => .inl (h.sent r hr)⟩
  have hmoves : Moves e (e.step op) → Tidy (e.step op) ∧
      Known (used ∪ {id | op.registers = some id}) (e.step op) ∧
      ∀ k ∈ used, Ages (e.phase k) ((e.step op).phase k) := by
    intro h
    obtain ⟨htidy', hages, hknown'⟩ := h.keep htidy
    exact ⟨htidy', hmono _ (hknown' used hknown), fun k _ => hages k⟩
  cases op with
  | register now p prepared timeout completionTx =>
    have hnew : prepared.id ∉ used := hfresh prepared.id rfl
    have hnone : e.commands.get prepared.id = none := by
      rw [eq_none_iff_forall_ne_some]
      exact fun cmd hcmd => hnew (hknown.tracked _ cmd hcmd)
    have hunsent : ∀ r ∈ e.sent, r.commandId ≠ prepared.id :=
      fun r hr heq => hnew (heq ▸ hknown.sent r hr)
    refine ⟨htidy.register now p prepared timeout completionTx hnone hunsent, ?_, ?_⟩
    · show Known _ (e.register now p prepared timeout completionTx).1
      unfold register
      split
      · exact hmono _ hknown
      · exact ⟨forall_insert (.inr rfl) fun k c hk => .inl (hknown.tracked k c hk),
          fun r hr => .inl (hknown.sent r hr)⟩
    · intro k hk
      show Ages _ ((e.register now p prepared timeout completionTx).1.phase k)
      unfold register
      split
      · exact .refl _
      · unfold phase
        rw [get_insert, if_neg]
        · exact .refl _
        · rintro rfl
          exact hnew hk
  | processOutput now p output => exact hmoves (processOutput_moves htidy now p output)
  | checkTimeouts now listing => exact hmoves (checkTimeouts_moves htidy now listing)
  | cancelCommand now id => exact hmoves (cancelCommand_moves htidy now id)
  | forgetPane now p => exact hmoves (forgetPane_moves htidy now p)
  | getStatus now id => exact hmoves .refl

/-- The ids that operations bring in. -/
def registered (ops : List Op) : List Uuid := ops.filterMap Op.registers

/-- What a run keeps, if the ids it brings in are new and distinct. -/
theorem run_keep {used : Set Uuid} (htidy : Tidy e) (hknown : Known used e) {ops : List Op}
    (hnodup : (registered ops).Nodup) (hfresh : ∀ id ∈ registered ops, id ∉ used) :
    Tidy (e.run ops) ∧ Known (used ∪ {id | id ∈ registered ops}) (e.run ops) ∧
      ∀ k ∈ used, Ages (e.phase k) ((e.run ops).phase k) := by
  induction ops generalizing e used with
  | nil =>
    refine ⟨htidy, ?_, fun k _ => .refl _⟩
    exact ⟨fun id cmd h => .inl (hknown.tracked id cmd h), fun r hr => .inl (hknown.sent r hr)⟩
  | cons op ops ih =>
    have hop : ∀ id, op.registers = some id → id ∉ used ∧ id ∉ registered ops := by
      intro id hid
      have hcons : registered (op :: ops) = id :: registered ops := filterMap_cons_some hid
      rw [hcons] at hnodup hfresh
      exact ⟨hfresh id mem_cons_self, (nodup_cons.mp hnodup).1⟩
    have hrest : ∀ id ∈ registered ops, id ∈ registered (op :: ops) := by
      intro id hid
      exact (sublist_cons_self op ops).filterMap Op.registers |>.subset hid
    obtain ⟨htidy', hknown', hages⟩ := step_keep htidy hknown op fun id hid => (hop id hid).1
    have hnodup' : (registered ops).Nodup :=
      hnodup.sublist ((sublist_cons_self op ops).filterMap Op.registers)
    obtain ⟨htidy'', hknown'', hages'⟩ := ih htidy' hknown' hnodup' (by
      rintro id hid (hold | hnew)
      · exact hfresh id (hrest id hid) hold
      · exact (hop id hnew).2 hid)
    refine ⟨htidy'', ⟨fun id cmd h => ?_, fun r hr => ?_⟩, fun k hk => ?_⟩
    · obtain (hused | hop') | hin := hknown''.tracked id cmd h
      · exact .inl hused
      · exact .inr (mem_filterMap.mpr ⟨op, mem_cons_self, hop'⟩)
      · exact .inr (hrest id hin)
    · obtain (hused | hop') | hin := hknown''.sent r hr
      · exact .inl hused
      · exact .inr (mem_filterMap.mpr ⟨op, mem_cons_self, hop'⟩)
      · exact .inr (hrest _ hin)
    · exact (hages k hk).trans (hages' k (.inl hk))

omit [Transcript] in
theorem tidy_new : Tidy new where
  id_eq _ _ h := by cases h
  active := nofun
  tracked _ _ h := by cases h
  finished := nofun
  finished_nodup := .nil
  finished_le := Nat.zero_le _
  pending := nofun
  running _ _ h := by cases h
  sent_nodup := .nil
  sent_result := nofun

/-- After any operations with new ids. -/
theorem run_new_keep {ops : List Op} (hnodup : (registered ops).Nodup) :
    Tidy (new.run ops) ∧ Known {id | id ∈ registered ops} (new.run ops) := by
  have hempty : Known (∅ : Set Uuid) new :=
    ⟨(fun _ _ h => by cases h), (fun _ h => by cases h)⟩
  obtain ⟨htidy, hknown, -⟩ := run_keep tidy_new hempty hnodup fun id _ => Set.notMem_empty id
  rw [Set.empty_union] at hknown
  exact ⟨htidy, hknown⟩

/-- The END marker of a command, whole, somewhere in a buffer. -/
def HasEnd (cmd : TrackedCommand) (buf : List UInt8) : Prop :=
  ∃ digits : List UInt8, digits ≠ [] ∧ digits.length ≤ 3 ∧ digits.all isAsciiDigit = true ∧
    cmd.endText ++ digits ++ endSuffix <:+: buf

section

omit [Transcript]

theorem endMarker_eq_exit {rest : List UInt8} {code : Nat} (h : endMarker rest = .exit code) :
    ∃ digits more : List UInt8, digits ≠ [] ∧ digits.length ≤ 3 ∧
      digits.all isAsciiDigit = true ∧ rest = digits ++ endSuffix ++ more ∧
        code = codeOf digits := by
  unfold endMarker at h
  dsimp only at h
  split_ifs at h with hlong hshort hpart hnot
  cases h
  rw [Bool.or_eq_true, not_or, Bool.not_eq_true, Bool.not_eq_true, Bool.not_eq_false',
    isPrefixOf_iff_prefix] at hnot
  obtain ⟨hne, more, hmore⟩ := hnot
  refine ⟨rest.takeWhile isAsciiDigit, more, isEmpty_eq_false_iff.mp hne, by omega,
    all_takeWhile, ?_, rfl⟩
  rw [append_assoc, hmore, takeWhile_append_dropWhile]

theorem HasEnd.mono {cmd cmd' : TrackedCommand} {buf buf' : List UInt8} (h : HasEnd cmd' buf)
    (hmarker : cmd'.marker = cmd.marker) (hbuf : buf <:+ buf') : HasEnd cmd buf' := by
  obtain ⟨digits, hne, hlen, hdigits, hin⟩ := h
  unfold endText at hin
  rw [hmarker] at hin
  exact ⟨digits, hne, hlen, hdigits, hin.trans hbuf.isInfix⟩

theorem hasEnd_of_scanEnd (cmd : TrackedCommand) (buf : List UInt8) {cmd' : TrackedCommand}
    {code : Nat} (h : cmd.scanEnd buf = .exit cmd' code) : HasEnd cmd buf := by
  fun_induction scanEnd cmd buf with
  | case1 => cases h
  | case2 => cases h
  | case3 cmd buf start hfind hnot ih =>
    exact (ih h).mono (sameFrame_keep cmd _).marker (drop_suffix _ _)
  | case4 cmd buf start hfind found hexit =>
    obtain ⟨digits, more, hne, hlen, hdigits, hrest, -⟩ := endMarker_eq_exit hexit
    obtain ⟨tail, htail⟩ := (find_eq_some hfind).1
    refine ⟨digits, hne, hlen, hdigits, buf.take start, more, ?_⟩
    have hsplit : tail = digits ++ endSuffix ++ more := by
      rw [← hrest, ← drop_drop, ← htail, drop_left]
    rw [append_assoc cmd.endText, append_assoc, append_assoc cmd.endText,
      ← hsplit, htail, take_append_drop]

theorem suffix_of_scanBegin {cmd : TrackedCommand} {buf rest : List UInt8}
    (h : cmd.scanBegin buf = .begun rest) : rest <:+ buf := by
  unfold scanBegin at h
  split at h
  · cases h
    exact suffix_refl _
  · split at h
    · cases h
    · split at h
      · cases h
      · cases h
        exact drop_suffix _ _

end

/-- What frees a pane of its command. -/
def Frees (e : CommandEngine) (p id : Uuid) : Op → Prop
  | .processOutput _ q output => q = p ∧ ∃ cmd, e.commands.get id = some cmd ∧
      HasEnd cmd ((e.pending.get p).getD [] ++ output)
  | .cancelCommand _ k => k = id
  | .forgetPane _ q => q = p
  | _ => False

omit [Transcript] in
theorem active_release {p k id : Uuid} (hactive : e.active.get p = some k) (hne : k ≠ id) :
    (e.release id).active.get p = some k := by
  unfold release
  cases hcmd : e.commands.get id with
  | none => exact hactive
  | some cmd =>
    dsimp only
    split_ifs with hheld
    · exact hactive
    · show (e.active.remove cmd.paneId).get p = some k
      rw [get_remove, if_neg, hactive]
      rintro rfl
      rw [hactive, not_not, Option.some.injEq] at hheld
      exact hne hheld

theorem active_finish (e : CommandEngine) (now : Nat) (id : Uuid) (state : CommandState)
    (exitCode : Option Nat) : (e.finish now id state exitCode).1.active = e.active := by
  unfold finish
  split
  · rfl
  · split <;> rfl

theorem active_checkTimeouts (e : CommandEngine) (now : Nat) (listing : Listing) :
    (e.checkTimeouts now listing).1.active = e.active := by
  have htimeOut : ∀ (e : CommandEngine) id, (e.timeOut now id).1.active = e.active := by
    intro e id
    unfold timeOut
    split
    · rfl
    · exact active_finish e now id _ _
  have hloop : ∀ (ids : List Uuid) (e : CommandEngine) (out : List (Uuid × CommandResult)),
      (ids.foldl (fun s id =>
        ((s.1.timeOut now id).1, s.2 ++ (s.1.timeOut now id).2.toList)) (e, out)).1.active =
          e.active := by
    intro ids
    induction ids with
    | nil => exact fun e out => rfl
    | cons id ids ih =>
      intro e out
      exact (ih _ _).trans (htimeOut e id)
  exact hloop _ e []

/-- A pane keeps its command unless the command's end is read, it is cancelled, or the pane
is forgotten. -/
theorem step_busy (htidy : Tidy e) {p id : Uuid} (hactive : e.active.get p = some id) (op : Op) :
    (e.step op).active.get p = some id ∨ e.Frees p id op := by
  have hdistinct : ∀ q k, q ≠ p → e.active.get q = some k → id ≠ k := by
    rintro q k hq hk rfl
    obtain ⟨c, hc, hcq⟩ := htidy.active q id hk
    obtain ⟨c', hc', hcp⟩ := htidy.active p id hactive
    rw [hc, Option.some.injEq] at hc'
    exact hq (by rw [← hcq, ← hcp, hc'])
  cases op with
  | register now q prepared timeout completionTx =>
    left
    show (e.register now q prepared timeout completionTx).1.active.get p = some id
    unfold register
    split
    · exact hactive
    · next hidle =>
      rw [get_insert, if_neg]
      · exact hactive
      · rintro rfl
        rw [hactive] at hidle
        cases hidle
  | processOutput now q output =>
    by_cases hq : q = p
    · subst hq
      show (e.processOutput now q output).1.active.get q = some id ∨ _
      obtain ⟨cmd, hcmd, hpane⟩ := htidy.active q id hactive
      unfold processOutput
      rw [hactive]
      dsimp only
      rw [hcmd]
      dsimp only
      split
      · exact .inl hactive
      · next rest hrest =>
        split
        · exact .inl hactive
        · next cmd' code hscan =>
          refine .inr ⟨rfl, cmd, hcmd, ?_⟩
          exact (hasEnd_of_scanEnd _ rest hscan).mono rfl (suffix_of_scanBegin hrest)
    · left
      show (e.processOutput now q output).1.active.get p = some id
      unfold processOutput
      split
      · exact hactive
      · next k hk =>
        dsimp only
        split
        · exact hactive
        · split
          · exact hactive
          · split
            · exact hactive
            · apply active_release _ (hdistinct q k hq hk)
              rw [active_finish]
              exact hactive
  | checkTimeouts now listing =>
    left
    show (e.checkTimeouts now listing).1.active.get p = some id
    rw [active_checkTimeouts]
    exact hactive
  | cancelCommand now k =>
    by_cases hk : k = id
    · exact .inr hk
    · left
      show (e.cancelCommand now k).1.active.get p = some id
      unfold cancelCommand
      split
      · exact hactive
      · split
        · exact hactive
        · apply active_release _ (Ne.symm hk)
          rw [active_finish]
          exact hactive
  | forgetPane now q =>
    by_cases hq : q = p
    · exact .inr hq
    · left
      show (e.forgetPane now q).active.get p = some id
      unfold forgetPane
      dsimp only
      split
      · next k hk =>
        apply active_release _ (hdistinct q k hq hk)
        rw [active_finish]
        exact hactive
      · exact hactive
  | getStatus now k => exact .inl hactive

/-- In every run with new ids: the maps agree, a busy pane refuses another command with the
id of its own, a result stays what it was until it is forgotten, and a pane is freed by the
end of its command, a cancel or its own end only. -/
theorem run_lifecycle (ops : List Op) (hfresh : (registered ops).Nodup) :
    Tidy (new.run ops) ∧
      (∀ id, (∃ cmd, (new.run ops).commands.get id = some cmd) ↔
        (∃ p, (new.run ops).active.get p = some id) ∨ id ∈ (new.run ops).finished) ∧
      (∀ p id now prepared timeout completionTx, (new.run ops).active.get p = some id →
        (new.run ops).register now p prepared timeout completionTx =
          (new.run ops, .error id)) ∧
      (∀ earlier later, ops = earlier ++ later → ∀ id cmd r,
        (new.run earlier).commands.get id = some cmd → cmd.result = some r → ∀ now,
          (new.run ops).getStatus now id = some r ∨ (new.run ops).getStatus now id = none) ∧
      ∀ earlier op later, ops = earlier ++ op :: later → ∀ p id,
        (new.run earlier).active.get p = some id →
          (new.run (earlier ++ [op])).active.get p = some id ∨ (new.run earlier).Frees p id op := by
  have hfront : ∀ earlier later, ops = earlier ++ later → (registered earlier).Nodup := by
    rintro earlier later rfl
    exact hfresh.sublist ((sublist_append_left earlier later).filterMap Op.registers)
  obtain ⟨htidy, hknown⟩ := run_new_keep hfresh
  refine ⟨htidy, fun id => ⟨?_, ?_⟩, ?_, ?_, ?_⟩
  · rintro ⟨cmd, hcmd⟩
    exact (htidy.tracked id cmd hcmd).imp (fun h => ⟨_, h⟩) fun h => h
  · rintro (⟨p, hp⟩ | hfin)
    · obtain ⟨cmd, hcmd, -⟩ := htidy.active p id hp
      exact ⟨cmd, hcmd⟩
    · obtain ⟨cmd, hcmd, -⟩ := htidy.finished id hfin
      exact ⟨cmd, hcmd⟩
  · intro p id now prepared timeout completionTx hactive
    unfold register
    rw [hactive]
  · rintro earlier later rfl id cmd r hcmd hresult now
    obtain ⟨htidy₁, hknown₁⟩ := run_new_keep (hfront earlier later rfl)
    have hsplit : registered (earlier ++ later) = registered earlier ++ registered later :=
      filterMap_append
    rw [hsplit, nodup_append] at hfresh
    obtain ⟨-, hlater, hdisjoint⟩ := hfresh
    obtain ⟨-, -, hages⟩ := run_keep htidy₁ hknown₁ hlater
      fun k hk hk' => hdisjoint k hk' k hk rfl
    have hphase : (new.run earlier).phase id = some (some r) := by
      rw [phase, hcmd, map_some, hresult]
    have hrun : new.run (earlier ++ later) = (new.run earlier).run later := foldl_append
    rw [hrun]
    obtain hsame | hgone := (hages id (hknown₁.tracked id cmd hcmd)).frozen r hphase
    · left
      obtain ⟨cmd', hcmd', hresult'⟩ := Option.map_eq_some_iff.mp hsame
      rw [getStatus, hcmd', map_some, hresult', getD_some]
    · right
      rw [getStatus, Option.map_eq_none_iff.mp hgone, map_none]
  · rintro earlier op later hops p id hactive
    obtain ⟨htidy₁, -⟩ := run_new_keep (hfront earlier (op :: later) hops)
    have hrun : new.run (earlier ++ [op]) = (new.run earlier).step op := by
      rw [run, run, foldl_append]
      rfl
    rw [hrun]
    exact step_busy htidy₁ hactive op

end Runs

namespace Sample

/-- Every byte reads as the character of its number. -/
scoped instance transcript : Transcript := ⟨fun bytes => bytes.map fun b => Char.ofNat b.toNat⟩

/-- A command runs out of time, and another one is tried in its pane. -/
def timedOut : List Op :=
  [.register 0 ⟨1⟩ (prepare ⟨7⟩ "read -r x".toList []) 5 true, .checkTimeouts 9 ⟨id, .refl⟩,
    .register 10 ⟨1⟩ (prepare ⟨8⟩ "ls".toList []) 5 false]

theorem run_lifecycle_timedOut :
    (new.run timedOut).active.get ⟨1⟩ = some ⟨7⟩ ∧ (new.run timedOut).sent.length = 1 ∧
      Tidy (new.run timedOut) :=
  ⟨by decide, by decide, (run_lifecycle timedOut (by decide)).1⟩

end Sample

end CommandEngine

end Shux.Pty
