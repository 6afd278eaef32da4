/-
# The PTY protocol along a run

What was said to a pane while it was there, and which of the statuses were taken,
read off a run of arbitrary commands. A pane's slot is the run of its messages from
the empty slot, so the results about slots become the protocol of panes: the owner,
stale exits, generations, sealing, and that nothing is kept of a pane that is gone.
-/

import Shux.Core.Pty

namespace Shux

variable {R : Type} [Host] [F32 R]

open Proc SessionGraph Incarnation Slot

variable {pid : PaneId} {g : SessionGraph R} (cmds : List (GraphCommand R))
variable {p : Pane}

/-- What a command says to a pane, if the pane is there to hear it. -/
def SessionGraph.heard (g : SessionGraph R) (pid : PaneId) (cmd : GraphCommand R) :
    List (Message ShownStatus) :=
  if g.state.panes.contains pid then cmd.message pid else []

/-- The generations of the statuses a command gets accepted by a pane. -/
def SessionGraph.accepted (g : SessionGraph R) (pid : PaneId) (cmd : GraphCommand R) : List Nat :=
  match g.state.panes.get pid with
  | some p => (g.slot pid p).acceptances (cmd.message pid)
  | none => []

/-- Everything a pane hears along a run. -/
def delivered (pid : PaneId) : SessionGraph R → List (GraphCommand R) → List (Message ShownStatus)
  | _, [] => []
  | g, cmd :: rest => g.heard pid cmd ++ delivered pid (g.step cmd).2 rest

/-- The generations of the statuses a pane accepts along a run. -/
def acceptedAlong (pid : PaneId) : SessionGraph R → List (GraphCommand R) → List Nat
  | _, [] => []
  | g, cmd :: rest => g.accepted pid cmd ++ acceptedAlong pid (g.step cmd).2 rest

/-- No claim of the pane is granted along a run. -/
def Unclaimed (pid : PaneId) (g : SessionGraph R) (cmds : List (GraphCommand R)) : Prop :=
  ∀ pre incarnation post, cmds = pre ++ .claimPanePty pid incarnation :: post →
    ((g.run pre).step (.claimPanePty pid incarnation)).1 ≠ .ok (.flag true)

theorem step_drawn_le (g : SessionGraph R) (cmd : GraphCommand R) :
    g.drawn ≤ (g.step cmd).2.drawn := by
  obtain ⟨n, evs, hadvances⟩ := step_moves g cmd
  exact hadvances.trace.le

/-- A pane that is there after a run was there before it, if its id was drawn then. -/
theorem live_of_run (h : Coherent g)
    (hold : Fresh 0 g.drawn pid.uuid) (cmds : List (GraphCommand R)) {p' : Pane}
    (hp' : (g.run cmds).state.panes.get pid = some p') : ∃ p, g.state.panes.get pid = some p := by
  obtain ⟨n, evs, hadvances⟩ := run_moves g cmds fun cmd _ => Set.subset_univ cmd.kinds
  obtain ⟨p, hp, -⟩ := (hadvances.trace.aged h.sound).old_pane hold hp'
  exact ⟨p, hp⟩

omit [F32 R] in
theorem Coherent.old_of_live (h : Coherent g)
    (hp : g.state.panes.get pid = some p) : Fresh 0 g.drawn pid.uuid :=
  h.sound.drawn.pane pid p hp

section

omit [Host] [F32 R]

theorem heard_of_live (hp : g.state.panes.get pid = some p) (cmd : GraphCommand R) :
    g.heard pid cmd = cmd.message pid := if_pos ((g.state.panes.contains_iff pid).mpr ⟨p, hp⟩)

theorem heard_of_none (hp : g.state.panes.get pid = none)
    (cmd : GraphCommand R) : g.heard pid cmd = [] := by
  have hdead := (g.state.panes.contains_eq_false_iff pid).mpr hp
  rw [heard, hdead]
  rfl

theorem accepted_of_live (hp : g.state.panes.get pid = some p) (cmd : GraphCommand R) :
    g.accepted pid cmd = (g.slot pid p).acceptances (cmd.message pid) := by
  rw [SessionGraph.accepted, hp]

theorem accepted_of_none (hp : g.state.panes.get pid = none)
    (cmd : GraphCommand R) : g.accepted pid cmd = [] := by
  rw [SessionGraph.accepted, hp]

end

/-- A pane that is gone hears nothing more. -/
theorem silence_of_gone (h : Coherent g)
    (hold : Fresh 0 g.drawn pid.uuid) (hp : g.state.panes.get pid = none) :
    delivered pid g cmds = [] ∧ acceptedAlong pid g cmds = [] := by
  induction cmds generalizing g with
  | nil => exact ⟨rfl, rfl⟩
  | cons cmd rest ih =>
    have hnext : (g.step cmd).2.state.panes.get pid = none := by
      rw [Option.eq_none_iff_forall_ne_some]
      intro p' hp'
      obtain ⟨p, hlive⟩ := live_of_run h hold [cmd] hp'
      rw [hp] at hlive
      cases hlive
    obtain ⟨hdelivered, haccepted⟩ := ih (h.step cmd) (hold.mono (step_drawn_le g cmd)) hnext
    rw [delivered, acceptedAlong, heard_of_none hp, accepted_of_none hp, hdelivered, haccepted]
    exact ⟨rfl, rfl⟩

/-- From a state that has the pane. -/
theorem slot_run (h : Coherent g) (hp : g.state.panes.get pid = some p) :
    acceptedAlong pid g cmds = (g.slot pid p).acceptances (delivered pid g cmds) ∧
    ∀ p', (g.run cmds).state.panes.get pid = some p' →
      (g.run cmds).slot pid p' = (g.slot pid p).run (delivered pid g cmds) := by
  induction cmds generalizing g p with
  | nil =>
    refine ⟨rfl, fun p' hp' => ?_⟩
    replace hp' : g.state.panes.get pid = some p' := hp'
    rw [hp] at hp'
    cases hp'
    rfl
  | cons cmd rest ih =>
    have hold := h.old_of_live hp
    have hold' := hold.mono (step_drawn_le g cmd)
    rw [delivered, acceptedAlong, heard_of_live hp, accepted_of_live hp, acceptances_append,
      run_append]
    cases hnext : (g.step cmd).2.state.panes.get pid with
    | none =>
      obtain ⟨hdelivered, haccepted⟩ := silence_of_gone rest (h.step cmd) hold' hnext
      rw [hdelivered, haccepted]
      refine ⟨rfl, fun p' hp' => ?_⟩
      obtain ⟨q, hq⟩ := live_of_run (h.step cmd) hold' rest hp'
      rw [hnext] at hq
      cases hq
    | some q =>
      have hslot : (g.step cmd).2.slot pid q = (g.slot pid p).run (cmd.message pid) := by
        rcases step_follows h cmd pid hnext with ⟨p₀, hp₀, hslot⟩ | ⟨hnew, -⟩
        · rw [hp] at hp₀
          cases hp₀
          exact hslot
        · exact absurd hold hnew
      obtain ⟨haccepted, hrun⟩ := ih (h.step cmd) hnext
      rw [haccepted, hslot]
      refine ⟨rfl, fun p' hp' => ?_⟩
      rw [← hslot]
      exact hrun p' hp'

/-- From a state that the pane's id was not drawn in yet. -/
theorem slot_run_of_undrawn (h : Coherent g) (hnew : ¬ Fresh 0 g.drawn pid.uuid) :
    acceptedAlong pid g cmds = emptySlot.acceptances (delivered pid g cmds) ∧
    ∀ p', (g.run cmds).state.panes.get pid = some p' →
      (g.run cmds).slot pid p' = emptySlot.run (delivered pid g cmds) := by
  induction cmds generalizing g with
  | nil => exact ⟨rfl, fun p' hp' => absurd (h.old_of_live hp') hnew⟩
  | cons cmd rest ih =>
    have hp : g.state.panes.get pid = none := by
      rw [Option.eq_none_iff_forall_ne_some]
      exact fun p hp => hnew (h.old_of_live hp)
    rw [delivered, acceptedAlong, heard_of_none hp, accepted_of_none hp]
    cases hnext : (g.step cmd).2.state.panes.get pid with
    | some q =>
      have hslot : (g.step cmd).2.slot pid q = emptySlot := by
        rcases step_follows h cmd pid hnext with ⟨p₀, hp₀, -⟩ | ⟨-, hslot⟩
        · rw [hp] at hp₀
          cases hp₀
        · exact hslot
      rw [← hslot]
      exact slot_run rest (h.step cmd) hnext
    | none =>
      by_cases hdrawn : Fresh 0 (g.step cmd).2.drawn pid.uuid
      · obtain ⟨hdelivered, haccepted⟩ := silence_of_gone rest (h.step cmd) hdrawn hnext
        rw [hdelivered, haccepted]
        refine ⟨rfl, fun p' hp' => ?_⟩
        obtain ⟨q, hq⟩ := live_of_run (h.step cmd) hdrawn rest hp'
        rw [hnext] at hq
        cases hq
      · exact ih (h.step cmd) hdrawn

/-- What a claim of a pane that is there is answered. -/
theorem claim_answer (h : Coherent g) (hp : g.state.panes.get pid = some p) (incarnation : Nat) :
    (g.step (.claimPanePty pid incarnation)).1 =
      .ok (.flag ((g.slot pid p).claimable incarnation)) := by
  have hspec : Ensures (GraphCommand.claimPanePty pid incarnation : GraphCommand R).body g
      (fun _ _ => False)
      fun reply _ => reply = .flag ((g.slot pid p).claimable incarnation) := by
    refine .bind (.mapError ((claimPanePty_spec g pid incarnation).mono ?_ ?_))
      (fun claimed g' hclaimed => (hclaimed : Reply.flag claimed = _))
    · rintro _ g' (⟨-, hnone⟩ | ⟨-, pane, hpane, hnone⟩)
      · rw [hp] at hnone
        cases hnone
      · exact h.sound.linked.sessionOf_ne_none hpane hnone
    · rintro claimed g' ⟨pane, hpane, hclaimed⟩
      congr 1
      cases claimed with
      | true => exact ((claimable_slot g pid p incarnation).mpr hclaimed.1).symm
      | false =>
        obtain ⟨-, owner, howner, hlt⟩ := hclaimed
        refine (Bool.eq_false_iff.mpr fun hfree => ?_).symm
        exact absurd ((claimable_slot g pid p incarnation).mp hfree owner howner) (not_le.mpr hlt)
  cases hexec : exec (GraphCommand.claimPanePty pid incarnation : GraphCommand R).body g with
  | mk reply g' =>
    cases reply with
    | error e => exact (hspec.of_error hexec).elim
    | ok reply =>
      have hreply := hspec.of_ok hexec
      rw [SessionGraph.step, hexec, hreply]

/-- An exit of an incarnation that does not own the pane. -/
theorem stale_exit (g : SessionGraph R) {incarnation : Nat}
    (hstale : g.ptyOwners.get pid ≠ some incarnation) (exit : ProgramExit)
    (finalStatus : Option PaneStatusUpdate) :
    g.step (.setPaneExitStatusOwned pid exit incarnation finalStatus) = (.ok .done, g) := by
  have hexec : exec (setPaneExitStatusOwned pid exit incarnation finalStatus) g = (.ok (), g) := by
    rw [setPaneExitStatusOwned, exec_bind, exec_get]
    show exec (if g.ptyOwners.get pid ≠ some incarnation then _ else _) g = _
    rw [if_pos hstale]
    rfl
  show exec (answer _ _) g = _
  rw [answer, exec_bind, exec_mapError, hexec]
  rfl

omit [Host] [F32 R] in
/-- The exit of a pane that is there is recorded. -/
theorem setPaneExit_records
    (hlive : ∃ p, g.state.panes.get pid = some p ∧ g.state.sessionOf p.windowId ≠ none)
    (exit : ProgramExit) :
    Ensures (setPaneExit pid exit) g (fun _ _ => False) fun _ g' =>
      ∃ p', g'.state.panes.get pid = some p' ∧ p'.exitStatus = some exit.status := by
  obtain ⟨p, hp, hwindow⟩ := hlive
  refine (setPaneExit_spec g pid exit).mono ?_ ?_
  · rintro _ g' ⟨-, hnone⟩
    exact hwindow (hnone p hp)
  · rintro _ g' ⟨pane, sid, hpane, hcommitted⟩
    refine ⟨pane.recordExit exit, ?_, rfl⟩
    rw [hcommitted.state, SessionGraphSnapshot.editPane, FinMap.get_modify, if_pos rfl, hpane]
    rfl

omit [F32 R] in
/-- An exit of the owner is accepted, and recorded. -/
theorem owned_exit (h : Coherent g) {incarnation : Nat}
    (howner : g.ptyOwners.get pid = some incarnation) (exit : ProgramExit)
    (finalStatus : Option PaneStatusUpdate) :
    Ensures (setPaneExitStatusOwned pid exit incarnation finalStatus) g (fun _ _ => False)
      fun _ g' => ∃ p', g'.state.panes.get pid = some p' ∧ p'.exitStatus = some exit.status := by
  have hlive : ∃ p, g.state.panes.get pid = some p ∧ g.state.sessionOf p.windowId ≠ none := by
    cases hp : g.state.panes.get pid with
    | none =>
      rw [h.sides.owner pid hp] at howner
      cases howner
    | some p => exact ⟨p, rfl, h.sound.linked.sessionOf_ne_none hp⟩
  refine .bind_ok (exec_get g) ?_
  refine .ite (fun hstale => absurd howner hstale) fun _ => ?_
  cases finalStatus with
  | none => exact .bind_ok (exec_pure _ _) (setPaneExit_records hlive exit)
  | some status =>
    refine .bind ((setPaneProgramStatus_keeps h.sound.linked pid status).mono ?_ fun _ _ h => h) ?_
    · rintro _ g' ⟨-, hnone⟩
      obtain ⟨p, hp, -⟩ := hlive
      rw [hp] at hnone
      cases hnone
    · exact fun _ g₁ hlive₁ => setPaneExit_records hlive₁ exit

/-- A command that is no granted claim of the pane does not take it over. -/
theorem not_taken_of_unclaimed (h : Coherent g)
    (hp : g.state.panes.get pid = some p) {cmd : GraphCommand R} {rest : List (GraphCommand R)}
    (hunclaimed : Unclaimed pid g (cmd :: rest)) :
    ∀ msg ∈ cmd.message pid, (g.slot pid p).takenBy msg = false := by
  intro msg hmem
  cases cmd with
  | claimPanePty id incarnation =>
    rw [GraphCommand.message] at hmem
    split_ifs at hmem with hid
    · subst hid
      rw [List.mem_singleton] at hmem
      subst hmem
      have hrefused := hunclaimed [] incarnation rest rfl
      replace hrefused : (g.step (.claimPanePty id incarnation)).1 ≠ .ok (.flag true) := hrefused
      rw [claim_answer h hp] at hrefused
      refine Bool.eq_false_iff.mpr fun hfree => hrefused ?_
      replace hfree : (g.slot id p).claimable incarnation = true := hfree
      rw [hfree]
    · cases hmem
  | setPaneProgramStatus id status =>
    rw [GraphCommand.message] at hmem
    split_ifs at hmem
    · rw [List.mem_singleton] at hmem
      subst hmem
      rfl
    · cases hmem
  | setPaneExitStatus id exitStatus =>
    rw [GraphCommand.message] at hmem
    split_ifs at hmem
    · rw [List.mem_singleton] at hmem
      subst hmem
      rfl
    · cases hmem
  | setPaneExitStatusOwned id exit incarnation finalStatus =>
    rw [GraphCommand.message] at hmem
    split_ifs at hmem
    · rw [List.mem_singleton] at hmem
      subst hmem
      rfl
    · cases hmem
  | _ => cases hmem

/-- A pane whose program exited stays as it is until a claim is granted. -/
theorem slot_sealed (h : Coherent g) (hp : g.state.panes.get pid = some p)
    (hexited : (g.slot pid p).exited = true) (hunclaimed : Unclaimed pid g cmds) :
    ∀ p', (g.run cmds).state.panes.get pid = some p' → (g.run cmds).slot pid p' = g.slot pid p := by
  induction cmds generalizing g p with
  | nil =>
    intro p' hp'
    replace hp' : g.state.panes.get pid = some p' := hp'
    rw [hp] at hp'
    cases hp'
    rfl
  | cons cmd rest ih =>
    intro p' hp'
    have hold := h.old_of_live hp
    obtain ⟨q, hq⟩ := live_of_run (h.step cmd) (hold.mono (step_drawn_le g cmd)) rest hp'
    have hslot : (g.step cmd).2.slot pid q = (g.slot pid p).run (cmd.message pid) := by
      rcases step_follows h cmd pid hq with ⟨p₀, hp₀, hslot⟩ | ⟨hnew, -⟩
      · rw [hp] at hp₀
        cases hp₀
        exact hslot
      · exact absurd hold hnew
    have htaken := not_taken_of_unclaimed h hp hunclaimed
    rw [run_of_exited hexited htaken] at hslot
    have hrest : Unclaimed pid (g.step cmd).2 rest := by
      intro pre incarnation post heq
      exact hunclaimed (cmd :: pre) incarnation post (by rw [heq]; rfl)
    rw [← hslot]
    exact ih (h.step cmd) hq (by rw [hslot]; exact hexited) hrest p' hp'

/-- A status that is not accepted changes nothing and publishes nothing. -/
theorem refused_status {status : PaneStatusUpdate}
    (hrefused : g.accepted pid (.setPaneProgramStatus pid status) = []) :
    (g.step (.setPaneProgramStatus pid status)).2.state = g.state ∧
      (g.step (.setPaneProgramStatus pid status)).2.eventBus = g.eventBus := by
  have hspec : Ensures (setPaneProgramStatus pid status) g
      (fun _ g' => g'.state = g.state ∧ g'.eventBus = g.eventBus)
      fun _ g' => g'.state = g.state ∧ g'.eventBus = g.eventBus := by
    refine (setPaneProgramStatus_spec g pid status).mono ?_ ?_
    · rintro _ g' ⟨rfl, -⟩
      exact ⟨rfl, rfl⟩
    · rintro _ g' ⟨pane, hpane, ⟨-, rfl⟩ | ⟨-, -, rfl⟩ | ⟨haccepts, -⟩⟩
      · exact ⟨rfl, rfl⟩
      · exact ⟨rfl, rfl⟩
      · have htaken := (accepts_slot hpane).mpr haccepts
        rw [accepted_of_live hpane, GraphCommand.message, if_pos rfl, acceptances,
          Slot.accepted, if_pos htaken] at hrefused
        cases hrefused
  exact Ensures.snd (answer_ensures hspec)

omit [Host] [F32 R] in
/-- A pane whose program exited, or that is gone, accepts no status. -/
theorem accepted_of_sealed
    (hsealed : ∀ p, g.state.panes.get pid = some p → p.exitStatus.isSome = true)
    (status : PaneStatusUpdate) : g.accepted pid (.setPaneProgramStatus pid status) = [] := by
  cases hp : g.state.panes.get pid with
  | none => exact accepted_of_none hp _
  | some p =>
    have hno : (g.slot pid p).accepts status.generation = false := by
      show (!p.exitStatus.isSome && _) = false
      rw [hsealed p hp]
      rfl
    rw [accepted_of_live hp, GraphCommand.message, if_pos rfl, acceptances, Slot.accepted, hno]
    rfl

/-- The protocol of a pane along any run of commands: the owner is the greatest
incarnation that claimed the pane; an exit of any other incarnation does nothing;
accepted generations increase, and a status that is not accepted does nothing; after
the owner's exit no status changes the pane until a claim is granted; and nothing is
kept of a pane that is gone. -/
theorem pty_protocol (cmds : List (GraphCommand R)) (pid : PaneId) :
    let g := SessionGraph.newWithEventBus.run cmds
    (∀ p, g.state.panes.get pid = some p →
      g.ptyOwners.get pid = (claims (delivered pid .newWithEventBus cmds)).max?) ∧
    (∀ exit incarnation finalStatus, g.ptyOwners.get pid ≠ some incarnation →
      g.step (.setPaneExitStatusOwned pid exit incarnation finalStatus) = (.ok .done, g)) ∧
    (acceptedAlong pid .newWithEventBus cmds).Pairwise (· < ·) ∧
    (∀ status, g.accepted pid (.setPaneProgramStatus pid status) = [] →
      (g.step (.setPaneProgramStatus pid status)).2.state = g.state ∧
        (g.step (.setPaneProgramStatus pid status)).2.eventBus = g.eventBus) ∧
    (∀ exit incarnation finalStatus between, g.ptyOwners.get pid = some incarnation →
      let g₁ := (g.step (.setPaneExitStatusOwned pid exit incarnation finalStatus)).2
      let g₂ := g₁.run between
      Unclaimed pid g₁ between →
      ∃ p₁, g₁.state.panes.get pid = some p₁ ∧ p₁.exitStatus = some exit.status ∧
        (∀ p₂, g₂.state.panes.get pid = some p₂ →
          p₂.exitStatus.isSome = true ∧ p₂.shown = p₁.shown) ∧
        ∀ status, (g₂.step (.setPaneProgramStatus pid status)).2.state = g₂.state ∧
          (g₂.step (.setPaneProgramStatus pid status)).2.eventBus = g₂.eventBus) ∧
    (g.state.panes.get pid = none →
      g.ptyOwners.get pid = none ∧ g.statusGenerations.get pid = none) := by
  intro g
  have hcoherent : Coherent g := coherent_new.run cmds
  have hundrawn : ¬ Fresh 0 (SessionGraph.newWithEventBus : SessionGraph R).drawn pid.uuid := by
    rintro ⟨n, -, hlt, -⟩
    exact absurd hlt (Nat.not_lt_zero n)
  obtain ⟨haccepted, hslot⟩ := slot_run_of_undrawn cmds coherent_new hundrawn
  refine ⟨fun p hp => ?_, fun exit incarnation finalStatus hstale => ?_, ?_,
    fun status hrefused => refused_status hrefused, ?_, fun hgone => ?_⟩
  · have howner : g.ptyOwners.get pid = (g.slot pid p).owner := rfl
    rw [howner, hslot p hp]
    exact owner_run ..
  · exact stale_exit g hstale exit finalStatus
  · rw [haccepted]
    exact acceptances_pairwise _ _
  · intro exit incarnation finalStatus between howner g₁ g₂ hunclaimed
    have hexit := owned_exit hcoherent howner exit finalStatus
    obtain ⟨p₁, hp₁, hstatus⟩ : ∃ p₁, g₁.state.panes.get pid = some p₁ ∧
        p₁.exitStatus = some exit.status :=
      Ensures.snd (answer_ensures (hexit.mono (fun _ _ h => h.elim) fun _ _ h => h))
    have hexited : (g₁.slot pid p₁).exited = true := by
      show p₁.exitStatus.isSome = true
      rw [hstatus]
      rfl
    have hsealed := slot_sealed between (hcoherent.step _) hp₁ hexited hunclaimed
    have hstays : ∀ p₂, g₂.state.panes.get pid = some p₂ →
        p₂.exitStatus.isSome = true ∧ p₂.shown = p₁.shown := by
      intro p₂ hp₂
      have heq := hsealed p₂ hp₂
      exact ⟨(congrArg exited heq).trans hexited, congrArg Slot.status heq⟩
    exact ⟨p₁, hp₁, hstatus, hstays, fun status =>
      refused_status (accepted_of_sealed (fun p₂ hp₂ => (hstays p₂ hp₂).1) status)⟩
  · exact ⟨hcoherent.sides.owner pid hgone, hcoherent.sides.generation pid hgone⟩

end Shux
