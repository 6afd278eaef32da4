/-
# The PTY protocol of a pane

The tasks that run a pane's program claim the pane, publish statuses and report
exits, each on its own time. What the graph keeps of a pane for this is a slot of
`Incarnation`: the owner and the generation from the side maps, the exit and the
status from the pane. Every command, of the protocol or not, moves the slot of a
pane that survives it as the messages addressed to the pane say
(`step_follows`), so what holds of slots holds of panes along every run.
-/

import Shux.Lib.Incarnation
import Shux.Core.Atomic
import Shux.Core.Versions

namespace Shux

variable {R : Type}

open Proc SessionGraph Incarnation Ensures Slot FinMap

variable {msgs : List (Message ShownStatus)} {id pid : PaneId} {g : SessionGraph R}
variable {msgs' : List (Message ShownStatus)} {evs : List EventData} {p pane : Pane}
  {g' : SessionGraph R} {s : SessionGraphSnapshot R}

/-- The status a pane shows. -/
abbrev ShownStatus := Option StatusSummary × Bool × Bool

def Pane.shown (p : Pane) : ShownStatus :=
  (p.programStatus, p.programStatusSeen, p.programStatusEnabled)

def PaneStatusUpdate.shown (status : PaneStatusUpdate) : ShownStatus :=
  (status.summary, status.seen, status.enabled)

/-- What the graph remembers of the programs of a pane. -/
def SessionGraph.slot (g : SessionGraph R) (pid : PaneId) (p : Pane) : Slot ShownStatus where
  owner := g.ptyOwners.get pid
  generation := (g.statusGenerations.get pid).getD 0
  exited := p.exitStatus.isSome
  status := p.shown

/-- The slot of a pane that nothing was heard of. -/
def emptySlot : Slot ShownStatus := ⟨none, 0, false, (none, false, false)⟩

/-- What a command says to a pane. -/
def GraphCommand.message (pid : PaneId) : GraphCommand R → List (Message ShownStatus)
  | claimPanePty id incarnation => if id = pid then [.claim incarnation] else []
  | setPaneProgramStatus id status =>
    if id = pid then [.publish status.generation status.shown] else []
  | setPaneExitStatus id _ => if id = pid then [.exit] else []
  | setPaneExitStatusOwned id _ incarnation finalStatus =>
    if id = pid then
      [.report incarnation (finalStatus.map fun status => (status.generation, status.shown))]
    else []
  | _ => []

/-- The side maps name only panes that are there. -/
structure SidesLive (g : SessionGraph R) : Prop where
  owner : ∀ pid, g.state.panes.get pid = none → g.ptyOwners.get pid = none
  generation : ∀ pid, g.state.panes.get pid = none → g.statusGenerations.get pid = none

/-- A commit keeps the side entries of the panes it keeps. -/
theorem get_commit_of_live (g : SessionGraph R) (hp : s.panes.get pid = some p) :
    (g.commit s).ptyOwners.get pid = g.ptyOwners.get pid ∧
      (g.commit s).statusGenerations.get pid = g.statusGenerations.get pid := by
  have hlive : s.panes.contains pid = true := (s.panes.contains_iff pid).mpr ⟨p, hp⟩
  refine ⟨?_, ?_⟩
  · show (g.ptyOwners.retain fun pid _ => s.panes.contains pid).get pid = _
    rw [get_retain_key, if_pos hlive]
  · show (g.statusGenerations.retain fun pid _ => s.panes.contains pid).get pid = _
    rw [get_retain_key, if_pos hlive]

/-- A commit takes the side entries of the other panes away. -/
theorem sidesLive_commit (g : SessionGraph R) (s : SessionGraphSnapshot R) :
    SidesLive (g.commit s) := by
  have hdead : ∀ {pid : PaneId}, s.panes.get pid = none → ¬ s.panes.contains pid = true := by
    intro pid hpid
    rw [(s.panes.contains_eq_false_iff pid).mpr hpid]
    exact Bool.false_ne_true
  refine ⟨fun pid hpid => ?_, fun pid hpid => ?_⟩
  · show (g.ptyOwners.retain fun pid _ => s.panes.contains pid).get pid = none
    rw [get_retain_key, if_neg (hdead hpid)]
  · show (g.statusGenerations.retain fun pid _ => s.panes.contains pid).get pid = none
    rw [get_retain_key, if_neg (hdead hpid)]

theorem Committed.sidesLive (h : Committed g g' s evs) : SidesLive g' := by
  obtain ⟨draws, seqs, rfl⟩ := h
  have hlive := sidesLive_commit (g.take draws seqs) s
  exact ⟨hlive.owner, hlive.generation⟩

/-- A commit of its own keeps the side entries of the panes it keeps. -/
theorem Committed.slot (h : Committed g g' s evs) (hp : s.panes.get pid = some p) :
    g'.slot pid p = g.slot pid p := by
  obtain ⟨draws, seqs, rfl⟩ := h
  obtain ⟨howner, hgeneration⟩ := get_commit_of_live (g.take draws seqs) hp
  show Slot.mk _ _ _ _ = Slot.mk _ _ _ _
  congr 1
  exact congrArg (·.getD 0) hgeneration

theorem SidesLive.of_quiet (h : SidesLive g) (hquiet : Quiet g g') :
    SidesLive g' := by
  obtain ⟨draws, seqs, rfl⟩ := hquiet
  exact ⟨h.owner, h.generation⟩

/-- Claiming a pane that is there. -/
theorem SidesLive.owned (h : SidesLive g) (hp : g.state.panes.get id = some p) (incarnation : Nat) :
    SidesLive (g.owned id incarnation) := by
  refine ⟨fun pid hpid => ?_, h.generation⟩
  have hne : pid ≠ id := by
    rintro rfl
    exact Option.some_ne_none p (hp.symm.trans hpid)
  show (g.ptyOwners.insert id incarnation).get pid = none
  rw [get_insert, if_neg hne]
  exact h.owner pid hpid

theorem SidesLive.watermarked (h : SidesLive g)
    (hp : g.state.panes.get id = some p) (generation : Nat) :
    SidesLive (g.watermarked id generation) := by
  refine ⟨h.owner, fun pid hpid => ?_⟩
  have hne : pid ≠ id := by
    rintro rfl
    exact Option.some_ne_none p (hp.symm.trans hpid)
  show (g.statusGenerations.insert id generation).get pid = none
  rw [get_insert, if_neg hne]
  exact h.generation pid hpid

/-- The slot of a pane that survives went as the messages say. -/
def Follows (g g' : SessionGraph R) (pid : PaneId) (msgs : List (Message ShownStatus)) : Prop :=
  ∀ p', g'.state.panes.get pid = some p' →
    ∃ p, g.state.panes.get pid = some p ∧ g'.slot pid p' = (g.slot pid p).run msgs

theorem Follows.refl (g : SessionGraph R) (pid : PaneId) : Follows g g pid [] :=
  fun p' hp' => ⟨p', hp', rfl⟩

theorem Follows.trans {g'' : SessionGraph R} (h : Follows g g' pid msgs)
    (h' : Follows g' g'' pid msgs') : Follows g g'' pid (msgs ++ msgs') := by
  intro p'' hp''
  obtain ⟨p', hp', hslot'⟩ := h' p'' hp''
  obtain ⟨p, hp, hslot⟩ := h p' hp'
  refine ⟨p, hp, ?_⟩
  rw [hslot', hslot, run_append]

/-- A pane that is not there follows anything. -/
theorem Follows.of_none (h : g.state.panes.get pid = none) :
    Follows g g pid msgs := by
  intro p' hp'
  rw [h] at hp'
  cases hp'

/-- One pane was edited, after its side entries were. -/
theorem Follows.of_editPane {g₁ : SessionGraph R} {edit : Pane → Pane}
    (hpane : g.state.panes.get id = some pane)
    (hcommitted : Committed g₁ g' (g.state.editPane id edit) evs)
    (hself : g₁.slot id (edit pane) = (g.slot id pane).run msgs)
    (hother : ∀ pid p, pid ≠ id → g₁.slot pid p = g.slot pid p) (pid : PaneId) :
    Follows g g' pid (if id = pid then msgs else []) := by
  intro p' hp'
  rw [hcommitted.state] at hp'
  have hslot := hcommitted.slot hp'
  rw [SessionGraphSnapshot.editPane, get_modify] at hp'
  by_cases hpid : pid = id
  · subst hpid
    rw [if_pos rfl, hpane] at hp'
    cases hp'
    rw [if_pos rfl]
    exact ⟨pane, hpane, hslot.trans hself⟩
  · rw [if_neg hpid] at hp'
    rw [if_neg (Ne.symm hpid)]
    exact ⟨p', hp', hslot.trans (hother pid p' hpid)⟩

theorem setPaneExit_follows (hlinked : Linked g.state) (id : PaneId)
    (exit : ProgramExit) (pid : PaneId) :
    Ensures (setPaneExit id exit) g
      (fun _ g' => Follows g g' pid (if id = pid then [.exit] else []))
      fun _ g' => Follows g g' pid (if id = pid then [.exit] else []) := by
  refine (setPaneExit_spec g id exit).mono ?_ ?_
  · rintro _ g' ⟨rfl, hnone⟩
    split_ifs with hid
    · exact .of_none (hid ▸ hlinked.get_eq_none hnone)
    · exact .refl g' pid
  · rintro _ g' ⟨pane, sid, hpane, hcommitted⟩
    exact .of_editPane hpane hcommitted rfl (fun _ _ _ => rfl) pid

/-- Only the side entries of one pane were touched. -/
theorem Follows.of_slot (hstate : g'.state = g.state) (hpane : g.state.panes.get id = some pane)
    (hself : g'.slot id pane = (g.slot id pane).run msgs)
    (hother : ∀ pid p, pid ≠ id → g'.slot pid p = g.slot pid p) (pid : PaneId) :
    Follows g g' pid (if id = pid then msgs else []) := by
  intro p' hp'
  rw [hstate] at hp'
  by_cases hpid : pid = id
  · subst hpid
    rw [hpane] at hp'
    cases hp'
    rw [if_pos rfl]
    exact ⟨pane, hpane, hself⟩
  · rw [if_neg (Ne.symm hpid)]
    exact ⟨p', hp', hother pid p' hpid⟩

theorem slot_watermarked_of_ne (g : SessionGraph R) (generation : Nat) (p : Pane)
    (h : pid ≠ id) : (g.watermarked id generation).slot pid p = g.slot pid p := by
  show Slot.mk _ (((g.statusGenerations.insert id generation).get pid).getD 0) _ _ = Slot.mk _ _ _ _
  rw [get_insert, if_neg h]
  rfl

theorem slot_owned_of_ne (g : SessionGraph R) (incarnation : Nat) (p : Pane)
    (h : pid ≠ id) : (g.owned id incarnation).slot pid p = g.slot pid p := by
  show Slot.mk ((g.ptyOwners.insert id incarnation).get pid) _ _ _ = Slot.mk _ _ _ _
  rw [get_insert, if_neg h]
  rfl

theorem slot_watermarked (g : SessionGraph R) (id : PaneId) (generation : Nat) (p : Pane) :
    (g.watermarked id generation).slot id p = { g.slot id p with generation := generation } := by
  show Slot.mk _ (((g.statusGenerations.insert id generation).get id).getD 0) _ _ = Slot.mk _ _ _ _
  rw [get_insert_self]
  rfl

theorem slot_owned (g : SessionGraph R) (id : PaneId) (incarnation : Nat) (p : Pane) :
    (g.owned id incarnation).slot id p = { g.slot id p with owner := some incarnation } := by
  show Slot.mk ((g.ptyOwners.insert id incarnation).get id) _ _ _ = Slot.mk _ _ _ _
  rw [get_insert_self]
  rfl

/-- The code takes a status exactly when the slot does. -/
theorem accepts_slot {status : PaneStatusUpdate} (hpane : g.state.panes.get id = some pane) :
    (g.slot id pane).accepts status.generation = true ↔ Accepts g id status := by
  rw [accepts, Bool.and_eq_true, decide_eq_true_eq, Bool.not_eq_true', Accepts]
  constructor
  · rintro ⟨hexit, hlt⟩
    replace hexit : pane.exitStatus.isSome = false := hexit
    exact ⟨pane, hpane, by simpa using hexit, hlt⟩
  · rintro ⟨p, hp, hexit, hlt⟩
    rw [hpane] at hp
    cases hp
    refine ⟨?_, hlt⟩
    show pane.exitStatus.isSome = false
    rw [hexit]
    rfl

/-- A refused status leaves the slot, and an accepted one is remembered by it. -/
theorem run_publish {slot : Slot ShownStatus} (generation : Nat) (status : ShownStatus) :
    slot.run [.publish generation status] =
      if slot.accepts generation then { slot with generation := generation, status := status }
      else slot := rfl

theorem setPaneProgramStatus_follows (hlinked : Linked g.state) (id : PaneId)
    (status : PaneStatusUpdate) (pid : PaneId) :
    Ensures (setPaneProgramStatus id status) g
      (fun _ g' => Follows g g' pid
        (if id = pid then [.publish status.generation status.shown] else []))
      fun _ g' => Follows g g' pid
        (if id = pid then [.publish status.generation status.shown] else []) := by
  refine (setPaneProgramStatus_spec g id status).mono ?_ ?_
  · rintro _ g' ⟨rfl, hnone⟩
    split_ifs with hid
    · exact .of_none (hid ▸ hlinked.get_eq_none hnone)
    · exact .refl g' pid
  · rintro _ g' ⟨pane, hpane, hcases⟩
    rcases hcases with ⟨hsealed, rfl⟩ | ⟨hexit, hstale, rfl⟩ | ⟨haccepts, hcases⟩
    · refine .of_slot rfl hpane ?_ (fun _ _ _ => rfl) pid
      exact (publish_of_exited hsealed _ _).symm
    · refine .of_slot ?_ hpane ?_ (fun _ p hne => slot_watermarked_of_ne g _ p hne) pid
      · rfl
      have hrefused : ¬ (g.slot id pane).accepts status.generation = true := by
        rw [accepts_slot hpane]
        rintro ⟨p, hp, -, hlt⟩
        exact absurd hstale (not_le.mpr hlt)
      rw [run_publish, if_neg hrefused, slot_watermarked]
      rfl
    · have htaken := (accepts_slot hpane).mpr haccepts
      rcases hcases with ⟨⟨hsummary, hseen, henabled⟩, rfl⟩ | ⟨sid, hcommitted⟩
      · refine .of_slot ?_ hpane ?_ (fun _ p hne => slot_watermarked_of_ne g _ p hne) pid
        · rfl
        have hshown : pane.shown = status.shown := by
          rw [Pane.shown, PaneStatusUpdate.shown, hsummary, hseen, henabled]
        rw [run_publish, if_pos htaken, slot_watermarked, ← hshown]
        rfl
      · refine .of_editPane hpane hcommitted ?_ (fun _ p hne => slot_watermarked_of_ne g _ p hne)
          pid
        rw [run_publish, if_pos htaken, slot_watermarked]
        rfl

/-- The code grants a claim exactly when the slot can be claimed. -/
theorem claimable_slot (g : SessionGraph R) (id : PaneId) (pane : Pane) (incarnation : Nat) :
    (g.slot id pane).claimable incarnation = true ↔
      ∀ owner, g.ptyOwners.get id = some owner → owner ≤ incarnation := by
  rw [claimable, Bool.not_eq_true', Option.any_eq_false]
  constructor
  · intro h owner howner
    simpa using h owner howner
  · intro h owner howner
    simpa using h owner howner

theorem run_claim {slot : Slot ShownStatus} (incarnation : Nat) :
    slot.run [.claim incarnation] =
      if slot.claimable incarnation then
        { slot with owner := some incarnation, exited := false }
      else slot := rfl

theorem claimPanePty_follows (hlinked : Linked g.state) (id : PaneId)
    (incarnation : Nat) (pid : PaneId) :
    Ensures (claimPanePty id incarnation) g
      (fun _ g' => Follows g g' pid (if id = pid then [.claim incarnation] else []))
      fun _ g' => Follows g g' pid (if id = pid then [.claim incarnation] else []) := by
  refine (claimPanePty_spec g id incarnation).mono ?_ ?_
  · rintro _ g' (⟨rfl, hnone⟩ | ⟨-, pane, hpane, hnone⟩)
    · split_ifs with hid
      · exact .of_none (hid ▸ hnone)
      · exact .refl g' pid
    · exact absurd hnone (hlinked.sessionOf_ne_none hpane)
  · rintro claimed g' ⟨pane, hpane, hclaimed⟩
    split_ifs at hclaimed
    · obtain ⟨hbound, hcases⟩ := hclaimed
      have hfree := (claimable_slot g id pane incarnation).mpr hbound
      rcases hcases with ⟨hexit, rfl⟩ | ⟨sid, hcommitted⟩
      · refine .of_slot ?_ hpane ?_ (fun _ p hne => slot_owned_of_ne g _ p hne) pid
        · rfl
        · rw [run_claim, if_pos hfree, slot_owned]
          show Slot.mk _ _ pane.exitStatus.isSome _ = Slot.mk _ _ false _
          rw [hexit]
          rfl
      · refine .of_editPane hpane hcommitted ?_ (fun _ p hne => slot_owned_of_ne g _ p hne) pid
        rw [run_claim, if_pos hfree, slot_owned]
        rfl
    · obtain ⟨rfl, owner, howner, hlt⟩ := hclaimed
      have hheld : ¬ (g'.slot id pane).claimable incarnation = true := by
        rw [claimable_slot]
        exact fun hbound => absurd (hbound owner howner) (not_le.mpr hlt)
      refine .of_slot rfl hpane ?_ (fun _ _ _ => rfl) pid
      rw [run_claim, if_neg hheld]

theorem Follows.congr (h : Follows g g' pid msgs)
    (heq : ∀ p, (g.slot pid p).run msgs = (g.slot pid p).run msgs') : Follows g g' pid msgs' := by
  intro p' hp'
  obtain ⟨p, hp, hslot⟩ := h p' hp'
  exact ⟨p, hp, hslot.trans (heq p)⟩

/-- Whether a command says anything to a pane's program. -/
def GraphCommand.isReport : GraphCommand R → Bool
  | setPaneExitStatus .. | setPaneProgramStatus .. | claimPanePty .. | setPaneExitStatusOwned .. =>
    true
  | _ => false

theorem GraphCommand.of_not_isReport {cmd : GraphCommand R} (h : cmd.isReport = false) :
    cmd.isProtocol = false ∧ .reportPane ∉ cmd.kinds ∧ ∀ pid, cmd.message pid = [] := by
  cases cmd with
  | setPaneExitStatus id exitStatus | setPaneProgramStatus id status
  | claimPanePty id incarnation | setPaneExitStatusOwned id exit incarnation finalStatus => cases h
  | destroyPaneAndEmptyParents id => exact ⟨rfl, by simp [kinds], fun _ => rfl⟩
  | applyBatch ops => exact ⟨rfl, by simp [kinds, stagedKinds], fun _ => rfl⟩
  | snapshot => exact ⟨rfl, fun hmem => hmem, fun _ => rfl⟩
  | _ => exact ⟨rfl, by simp [kinds], fun _ => rfl⟩

section Commands

variable [Host] [F32 R]

/-- What every reachable graph satisfies, its side maps included. -/
structure Coherent (g : SessionGraph R) : Prop where
  sound : Sound g.drawn g.state
  sides : SidesLive g

theorem setPaneExitStatusOwned_follows (hsound : Sound g.drawn g.state)
    (id : PaneId) (exit : ProgramExit) (incarnation : Nat) (finalStatus : Option PaneStatusUpdate)
    (pid : PaneId) :
    let msgs : List (Message ShownStatus) := if id = pid then
      [.report incarnation (finalStatus.map fun status => (status.generation, status.shown))]
    else []
    Ensures (setPaneExitStatusOwned id exit incarnation finalStatus) g
      (fun _ g' => Follows g g' pid msgs) fun _ g' => Follows g g' pid msgs := by
  intro msgs
  refine .bind_ok (exec_get g) ?_
  refine .ite (fun hstale p' hp' => ⟨p', hp', ?_⟩) fun howner => ?_
  · by_cases hid : id = pid
    · have hother : (g.slot pid p').owner ≠ some incarnation := by
        rw [← hid]
        exact hstale
      show _ = (g.slot pid p').run (if id = pid then _ else [])
      rw [if_pos hid]
      exact (report_of_owner_ne hother _).symm
    · show _ = (g.slot pid p').run (if id = pid then _ else [])
      rw [if_neg hid]
      rfl
  have howner' : g.ptyOwners.get id = some incarnation := not_not.mp howner
  -- What the owner's report amounts to, however the exit and the status were applied.
  have hreport : ∀ (g' : SessionGraph R) (parts : List (Message ShownStatus)),
      Follows g g' pid (if id = pid then parts else []) →
      (∀ slot : Slot ShownStatus, slot.run parts = (slot.publishFinal
        (finalStatus.map fun status => (status.generation, status.shown))).exit) →
      Follows g g' pid msgs := by
    intro g' parts hfollows hparts
    refine hfollows.congr fun p => ?_
    show _ = (g.slot pid p).run (if id = pid then _ else [])
    split_ifs with hid
    · have hmine : (g.slot pid p).owner = some incarnation := by
        rw [← hid]
        exact howner'
      -- the report of the owner is a last status and an exit
      exact (hparts _).trans (if_pos hmine).symm
    · rfl
  cases finalStatus with
  | none =>
    refine .bind_ok (exec_pure _ _) ((setPaneExit_follows hsound.linked id exit pid).mono ?_ ?_)
    · exact fun _ g' h => hreport g' [.exit] h fun _ => rfl
    · exact fun _ g' h => hreport g' [.exit] h fun _ => rfl
  | some status =>
    have hstatus : Ensures (setPaneProgramStatus id status) g (fun _ g' => Follows g g' pid msgs)
        fun _ g₁ => Follows g g₁ pid
          (if id = pid then [.publish status.generation status.shown] else []) ∧
          Linked g₁.state := by
      refine ((setPaneProgramStatus_spec g id status).and
        ((setPaneProgramStatus_follows hsound.linked id status pid).and
          (setPaneProgramStatus_moves g id status))).mono ?_ ?_
      · rintro _ g' ⟨⟨rfl, hnone⟩, -⟩
        show Follows g' g' pid (if id = pid then _ else [])
        split_ifs with hid
        · exact .of_none (hid ▸ hsound.linked.get_eq_none hnone)
        · exact .refl g' pid
      · rintro _ g₁ ⟨-, hfollows, n, evs, hadvances⟩
        exact ⟨hfollows, (hadvances.trace.sound hsound).linked⟩
    refine .bind hstatus ?_
    rintro _ g₁ ⟨hfollows, hlinked⟩
    have hboth : ∀ g', Follows g₁ g' pid (if id = pid then [.exit] else []) →
        Follows g g' pid msgs := by
      intro g' hexit
      have htrans := hfollows.trans hexit
      refine hreport g' [.publish status.generation status.shown, .exit] ?_ fun _ => rfl
      split_ifs at htrans ⊢
      · exact htrans
      · exact htrans
    exact (setPaneExit_follows hlinked id exit pid).mono (fun _ g' h => hboth g' h)
      fun _ g' h => hboth g' h

theorem SidesLive.of_commits {kinds : Set Kind} (h : SidesLive g)
    (hcommits : Commits kinds g g') : SidesLive g' := by
  cases hcommits with
  | quiet hquiet => exact h.of_quiet hquiet
  | @once s evs draws seqs later n c hpos htrace =>
    have hlive := sidesLive_commit (g.take draws seqs) s
    exact ⟨hlive.owner, hlive.generation⟩

theorem Commits.slot {kinds : Set Kind} (h : Commits kinds g g')
    (hp : g'.state.panes.get pid = some p) :
    g'.slot pid p = g.slot pid p := by
  cases h with
  | quiet hquiet =>
    obtain ⟨draws, seqs, rfl⟩ := hquiet
    rfl
  | once draws seqs later n c hpos htrace =>
    obtain ⟨howner, hgeneration⟩ := get_commit_of_live (g.take draws seqs) hp
    show Slot.mk _ _ _ _ = Slot.mk _ _ _ _
    congr 1
    exact congrArg (·.getD 0) hgeneration

/-- Every command keeps the side maps within the panes. -/
theorem step_sidesLive (h : SidesLive g) (cmd : GraphCommand R) :
    SidesLive (g.step cmd).2 := by
  have hexit : ∀ (g : SessionGraph R) (id : PaneId) (exit : ProgramExit), SidesLive g →
      Ensures (setPaneExit id exit) g (fun _ => SidesLive) fun _ => SidesLive := by
    intro g id exit h
    refine (setPaneExit_spec g id exit).mono ?_ ?_
    · rintro _ g' ⟨rfl, -⟩
      exact h
    · rintro _ g' ⟨pane, sid, hpane, hcommitted⟩
      exact hcommitted.sidesLive
  have hstatus : ∀ (id : PaneId) (status : PaneStatusUpdate),
      Ensures (setPaneProgramStatus id status) g (fun _ => SidesLive) fun _ => SidesLive := by
    intro id status
    refine (setPaneProgramStatus_spec g id status).mono ?_ ?_
    · rintro _ g' ⟨rfl, -⟩
      exact h
    · rintro _ g' ⟨pane, hpane, ⟨-, rfl⟩ | ⟨-, -, rfl⟩ | ⟨-, ⟨-, rfl⟩ | ⟨sid, hcommitted⟩⟩⟩
      · exact h
      · exact h.watermarked hpane _
      · exact h.watermarked hpane _
      · exact hcommitted.sidesLive
  cases hprotocol : cmd.isProtocol with
  | false => exact h.of_commits (snd (body_commits g cmd hprotocol))
  | true =>
    cases cmd with
    | setPaneProgramStatus id status => exact snd (answer_ensures (hstatus id status))
    | claimPanePty id incarnation =>
      refine snd (answer_ensures ((claimPanePty_spec g id incarnation).mono ?_ ?_))
      · rintro _ g' (⟨rfl, -⟩ | ⟨rfl, pane, hpane, -⟩)
        · exact h
        · exact h.owned hpane incarnation
      · rintro claimed g' ⟨pane, hpane, hclaimed⟩
        split_ifs at hclaimed
        · obtain ⟨-, ⟨-, rfl⟩ | ⟨sid, hcommitted⟩⟩ := hclaimed
          · exact h.owned hpane incarnation
          · exact hcommitted.sidesLive
        · obtain ⟨rfl, -⟩ := hclaimed
          exact h
    | setPaneExitStatusOwned id exit incarnation finalStatus =>
      refine snd (answer_ensures ?_)
      refine .bind_ok (exec_get g) (.ite (fun _ => h) fun _ => ?_)
      cases finalStatus with
      | none => exact .bind_ok (exec_pure _ _) (hexit g id exit h)
      | some status => exact .bind (hstatus id status) fun _ g₁ h₁ => hexit g₁ id exit h₁
    | _ => cases hprotocol

theorem Coherent.step (h : Coherent g) (cmd : GraphCommand R) :
    Coherent (g.step cmd).2 := by
  obtain ⟨n, evs, hadvances⟩ := step_moves g cmd
  exact ⟨hadvances.trace.sound h.sound, step_sidesLive h.sides cmd⟩

theorem Coherent.run (h : Coherent g) (cmds : List (GraphCommand R)) :
    Coherent (g.run cmds) := by
  induction cmds generalizing g with
  | nil => exact h
  | cons cmd rest ih => exact ih (h.step cmd)

omit [F32 R] in
theorem coherent_new : Coherent (SessionGraph.newWithEventBus : SessionGraph R) :=
  ⟨sound_default, fun _ _ => rfl, fun _ _ => rfl⟩

omit [Host] [F32 R] in
/-- A slot is a matter of the program alone. -/
theorem slot_congr (g : SessionGraph R) (pid : PaneId) {p' : Pane} (h : p'.program = p.program) :
    g.slot pid p' = g.slot pid p := by
  have hexit : p'.exitStatus = p.exitStatus := congrArg (·.1) h
  have hshown : p'.shown = p.shown := congrArg (·.2.2.2) h
  show Slot.mk _ _ p'.exitStatus.isSome p'.shown = Slot.mk _ _ p.exitStatus.isSome p.shown
  rw [hexit, hshown]

/-- Every command moves the slot of a pane as its messages say; a pane that was not
there before it starts with an empty slot. -/
theorem step_follows (h : Coherent g) (cmd : GraphCommand R) (pid : PaneId)
    {p' : Pane} (hp' : (g.step cmd).2.state.panes.get pid = some p') :
    (∃ p, g.state.panes.get pid = some p ∧
      (g.step cmd).2.slot pid p' = (g.slot pid p).run (cmd.message pid)) ∨
    (¬ Fresh 0 g.drawn pid.uuid ∧ (g.step cmd).2.slot pid p' = emptySlot) := by
  cases hreport : cmd.isReport with
  | false =>
    obtain ⟨hprotocol, hkinds, hmessage⟩ := GraphCommand.of_not_isReport hreport
    have hslot := (snd (body_commits g cmd hprotocol)).slot hp'
    obtain ⟨n, evs, hadvances⟩ := step_moves g cmd
    have haged := hadvances.trace.aged h.sound
    rw [hmessage pid]
    rcases haged.panes pid p' hp' with ⟨p, hp, hlater⟩ | ⟨hfresh, hprogram⟩
    · exact Or.inl ⟨p, hp, hslot.trans (slot_congr g pid (hlater.program hkinds))⟩
    · have hnone := h.sound.drawn.get_pane hfresh
      refine Or.inr ⟨hfresh.not_old, hslot.trans ?_⟩
      have hexit : p'.exitStatus = none := congrArg (·.1) (hprogram hkinds)
      have hshown : p'.shown = (none, false, false) := congrArg (·.2.2.2) (hprogram hkinds)
      rw [SessionGraph.slot, h.sides.owner pid hnone, h.sides.generation pid hnone, hexit, hshown]
      rfl
  | true =>
    left
    cases cmd with
    | setPaneExitStatus id exitStatus =>
      exact snd (answer_ensures
        (setPaneExit_follows h.sound.linked id (.code exitStatus) pid)) p' hp'
    | setPaneProgramStatus id status =>
      exact snd (answer_ensures (setPaneProgramStatus_follows h.sound.linked id status pid)) p' hp'
    | claimPanePty id incarnation =>
      exact snd (answer_ensures (claimPanePty_follows h.sound.linked id incarnation pid)) p' hp'
    | setPaneExitStatusOwned id exit incarnation finalStatus =>
      exact snd (answer_ensures
        (setPaneExitStatusOwned_follows h.sound id exit incarnation finalStatus pid)) p' hp'
    | _ => cases hreport

end Commands

end Shux
