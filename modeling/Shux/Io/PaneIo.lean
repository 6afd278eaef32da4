/-
# What the daemon keeps for the programs of the panes

The graph knows which panes there are. Everything a pane's program needs while it runs is kept
beside it, in one table per thing: the ends of the channels to its PTY task, the token that
cancels that task, the terminal it writes to, the revisions published from it. The tables are
filled when a program is started and cleared when its pane is torn down, and nothing but the
handlers keeps them in step with the graph.

The terminals and the checkpoints are parameters here. Channels, tokens and tasks are known
by a number each.
-/

import Shux.Pty.Command

namespace Shux.Io

/-- The end of a channel, a token, or a task. -/
abbrev Handle := Nat

/-- The revision of what a pane shows, and when it last changed. -/
structure PaneRevision where
  contentRevision : Nat
  lastMutationNs : Nat
deriving DecidableEq

/-- A task that daemon shutdown waits for: a PTY task that was told to stop, or the publisher of
a pane's status. -/
inductive Waiter where
  | pty (done : Handle)
  | status (channel : Handle)
deriving DecidableEq

/-- The tables of the daemon, with terminals `V` and checkpoints `C`. -/
structure PaneIoState (V C : Type) where
  writers : FinMap PaneId Handle
  resizers : FinMap PaneId Handle
  shutdowns : FinMap PaneId Handle
  ptyDone : FinMap PaneId Handle
  incarnations : FinMap PaneId Nat
  failedSpawns : FinMap PaneId Unit
  teardownWaiters : List Waiter
  vts : FinMap PaneId V
  syncGates : FinMap PaneId Handle
  revisions : FinMap PaneId PaneRevision
  checkpoints : FinMap PaneId (List C)
  invalidations : FinMap PaneId Nat
  cmdEngine : Pty.CommandEngine
  ptyPids : FinMap PaneId Nat
  status : FinMap PaneId Handle
  statusSealed : FinMap PaneId Unit
  openPastes : FinMap PaneId Nat
  /-- The tokens that were cancelled. A PTY task whose token is here ends its program. -/
  cancelled : List Handle

namespace PaneIoState

variable {V C : Type}

/-- The tables of a daemon that has started no program. -/
def new : PaneIoState V C where
  writers := ∅
  resizers := ∅
  shutdowns := ∅
  ptyDone := ∅
  incarnations := ∅
  failedSpawns := ∅
  teardownWaiters := []
  vts := ∅
  syncGates := ∅
  revisions := ∅
  checkpoints := ∅
  invalidations := ∅
  cmdEngine := .new
  ptyPids := ∅
  status := ∅
  statusSealed := ∅
  openPastes := ∅
  cancelled := []

/-- Take the terminal of a pane out, and everything that lives as long as it. -/
def removeVt (io : PaneIoState V C) (paneId : PaneId) : PaneIoState V C :=
  { io with
    vts := io.vts.remove paneId
    revisions := io.revisions.remove paneId
    checkpoints := io.checkpoints.remove paneId
    invalidations := io.invalidations.remove paneId
    ptyPids := io.ptyPids.remove paneId
    incarnations := io.incarnations.remove paneId
    failedSpawns := io.failedSpawns.remove paneId
    status := io.status.remove paneId
    teardownWaiters := io.teardownWaiters ++ ((io.status.get paneId).map Waiter.status).toList
    statusSealed := io.statusSealed.remove paneId
    openPastes := io.openPastes.remove paneId }

variable [Pty.Transcript]

/-- Cancel the PTY task of a pane and drop what is kept for it. A command that still runs there
is answered now. -/
def teardownPane (io : PaneIoState V C) (now : Nat) (removeVts : Bool) (paneId : PaneId) :
    PaneIoState V C × List Handle :=
  let dropped : PaneIoState V C :=
    { io with
      cancelled := io.cancelled ++ (io.shutdowns.get paneId).toList
      shutdowns := io.shutdowns.remove paneId
      writers := io.writers.remove paneId
      cmdEngine := io.cmdEngine.forgetPane now paneId.uuid
      syncGates := io.syncGates.remove paneId
      resizers := io.resizers.remove paneId
      ptyDone := io.ptyDone.remove paneId }
  (if removeVts then dropped.removeVt paneId else dropped, (io.ptyDone.get paneId).toList)

/-- Tear down panes one after the other, and collect what tells that their tasks are done. -/
def teardownPanesCollecting (io : PaneIoState V C) (now : Nat) (paneIds : List PaneId)
    (removeVts : Bool) : PaneIoState V C × List Handle :=
  paneIds.foldl
    (fun acc paneId =>
      let (io, done) := acc.1.teardownPane now removeVts paneId
      (io, acc.2 ++ done))
    (io, [])

omit [Pty.Transcript] in
/-- Forget the waiters that are finished and wait for more. -/
def trackTeardownWaiters (io : PaneIoState V C) (finished : Waiter → Bool) (done : List Handle) :
    PaneIoState V C :=
  { io with
    teardownWaiters := (io.teardownWaiters.filter fun w => !finished w) ++ done.map Waiter.pty }

def teardownPanes (io : PaneIoState V C) (now : Nat) (finished : Waiter → Bool)
    (paneIds : List PaneId) (removeVts : Bool) : PaneIoState V C :=
  let (io, done) := io.teardownPanesCollecting now paneIds removeVts
  io.trackTeardownWaiters finished done

section

omit [Pty.Transcript]

/-- A pane has a writer, a resizer, a terminal, a revision publisher or a shutdown token. -/
def Holds (io : PaneIoState V C) (pane : PaneId) : Prop :=
  io.writers.contains pane ∨ io.resizers.contains pane ∨ io.vts.contains pane ∨
    io.revisions.contains pane ∨ io.shutdowns.contains pane

instance (io : PaneIoState V C) (pane : PaneId) : Decidable (io.Holds pane) :=
  inferInstanceAs (Decidable (_ ∨ _ ∨ _ ∨ _ ∨ _))

end

/-- What tearing down some panes with their terminals does to the tables that matter here. -/
structure TornDown (io : PaneIoState V C) (paneIds : List PaneId) (io' : PaneIoState V C) :
    Prop where
  writers : io'.writers = io.writers.removeAll paneIds
  resizers : io'.resizers = io.resizers.removeAll paneIds
  vts : io'.vts = io.vts.removeAll paneIds
  revisions : io'.revisions = io.revisions.removeAll paneIds
  shutdowns : io'.shutdowns = io.shutdowns.removeAll paneIds
  cancelled : ∀ token, token ∈ io'.cancelled ↔
    token ∈ io.cancelled ∨ ∃ pane ∈ paneIds, io.shutdowns.get pane = some token

variable {io io' : PaneIoState V C} {pane : PaneId} {paneIds : List PaneId}

omit [Pty.Transcript] in
theorem TornDown.nil (io : PaneIoState V C) : TornDown io [] io where
  writers := rfl
  resizers := rfl
  vts := rfl
  revisions := rfl
  shutdowns := rfl
  cancelled token := by simp

/-- One pane and then the rest. -/
theorem TornDown.cons {io io' : PaneIoState V C} {now : Nat}
    (h : TornDown (io.teardownPane now true pane).1 paneIds io') :
    TornDown io (pane :: paneIds) io' where
  writers := h.writers
  resizers := h.resizers
  vts := h.vts
  revisions := h.revisions
  shutdowns := h.shutdowns
  cancelled token := by
    have hrest : token ∈ io'.cancelled ↔
        token ∈ io.cancelled ++ (io.shutdowns.get pane).toList ∨
          ∃ k ∈ paneIds, (io.shutdowns.remove pane).get k = some token := h.cancelled token
    rw [hrest]
    simp only [List.mem_append, Option.mem_toList, FinMap.get_remove, List.mem_cons]
    constructor
    · rintro ((hold | hpane) | ⟨k, hk, htoken⟩)
      · exact .inl hold
      · exact .inr ⟨pane, .inl rfl, hpane⟩
      · split_ifs at htoken
        exact .inr ⟨k, .inr hk, htoken⟩
    · rintro (hold | ⟨k, rfl | hk, htoken⟩)
      · exact .inl (.inl hold)
      · exact .inl (.inr htoken)
      · by_cases hkp : k = pane
        · subst hkp
          exact .inl (.inr htoken)
        · exact .inr ⟨k, hk, by rw [if_neg hkp, htoken]⟩

theorem tornDown_foldl (now : Nat) (paneIds : List PaneId) (acc : PaneIoState V C × List Handle) :
    TornDown acc.1 paneIds
      (paneIds.foldl
        (fun acc paneId =>
          let (io, done) := acc.1.teardownPane now true paneId
          (io, acc.2 ++ done))
        acc).1 := by
  induction paneIds generalizing acc with
  | nil => exact .nil acc.1
  | cons pane rest ih =>
    exact TornDown.cons (ih ((acc.1.teardownPane now true pane).1,
      acc.2 ++ (acc.1.teardownPane now true pane).2))

theorem tornDown_teardownPanes (io : PaneIoState V C) (now : Nat) (finished : Waiter → Bool)
    (paneIds : List PaneId) : TornDown io paneIds (io.teardownPanes now finished paneIds true) := by
  have hfold := tornDown_foldl now paneIds (io, [])
  exact ⟨hfold.writers, hfold.resizers, hfold.vts, hfold.revisions, hfold.shutdowns,
    hfold.cancelled⟩

section

omit [Pty.Transcript]

theorem contains_removeAll {X : Type} (m : FinMap PaneId X) (paneIds : List PaneId)
    (pane : PaneId) :
    (m.removeAll paneIds).contains pane = true ↔ m.contains pane = true ∧ pane ∉ paneIds := by
  unfold FinMap.contains
  rw [FinMap.get_removeAll]
  split_ifs with hmem
  · simp [hmem]
  · simp [hmem]

/-- A pane that was torn down holds nothing, the others hold what they held. -/
theorem TornDown.holds_iff (h : TornDown io paneIds io') (pane : PaneId) :
    io'.Holds pane ↔ io.Holds pane ∧ pane ∉ paneIds := by
  unfold Holds
  rw [h.writers, h.resizers, h.vts, h.revisions, h.shutdowns]
  simp only [contains_removeAll]
  tauto

end

end PaneIoState
end Shux.Io
