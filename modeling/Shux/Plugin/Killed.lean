/-
# A killed plugin stays dead

A kill finds the flag of whatever could bring its plugin back: that of an unfinished reload is on
the pending list, and that of a watcher is on it too or with the running plugin. Once the kill is
done neither list has the name, and a name without an entry is entered again by an install that a
user asked for.

A watcher's flag can be out of reach, though. The install or the reload that armed the watcher
holds it until it has registered, or has put it on the pending list. A watcher that fires meanwhile
is not found by a kill. And a reload may register under another name than its own, as its plugin
reports it.
-/

import Shux.Core.Text
import Shux.Plugin.Registry

namespace Shux.Plugin.Registry

open List Function FinMap

variable {N : Type}
variable {s : System N} {task : Task N}
variable {flag : Flag}

namespace Task

/-- The watcher that a task is the debouncer of. -/
def watching : Task N → Option (Watcher N)
  | install (.reload trigger _ _) _ _ => trigger
  | install (.watcher w) _ _ => some w
  | reload trigger _ _ => trigger
  | watcher w _ => some w
  | _ => none

/-- The reload that a task is in, with its flag. -/
def reloading : Task N → Option (N × Flag)
  | install (.reload _ name killed) _ _ => some (name, killed)
  | reload _ name (.marking _ killed) => some (name, killed)
  | reload _ name (.settling _ killed) => some (name, killed)
  | reload _ name (.failed _ killed) => some (name, killed)
  | reload _ name (.rearming killed _) => some (name, killed)
  | reload _ name (.publishing killed _) => some (name, killed)
  | _ => none

/-- The flags a task was started with or made for itself. -/
def flags (task : Task N) : List Flag :=
  (task.watching.map Watcher.cancel).toList ++ (task.reloading.map Prod.snd).toList

/-- The flag of a watcher that a task has armed and not handed on, with the watcher's name. -/
def held : Task N → Option (N × Flag)
  | install _ _ (.arming name cancel) => some (name, cancel)
  | install _ _ (.waiting name watch) => watch.map fun cancel => (name, cancel)
  | install _ _ (.deciding name watch) => watch.map fun cancel => (name, cancel)
  | install _ _ (.registering name watch) => watch.map fun cancel => (name, cancel)
  | install _ _ (.refused name watch) => watch.map fun cancel => (name, cancel)
  | reload _ name (.rearming _ cancel) => some (name, cancel)
  | reload _ name (.publishing _ watch) => watch.map fun cancel => (name, cancel)
  | _ => none

end Task

variable [DecidableEq N]

/-- A kill buries a name, and an install that a user asked for brings it back. -/
def bury (dead : N → Bool) : Option (Event N) → N → Bool
  | some (.killed name) => update dead name true
  | some (.registered name .user) => update dead name false
  | _ => dead

/-- The names that are dead after some events. -/
def deadAfter (events : List (Event N)) : N → Bool :=
  events.foldl (fun dead event => bury dead (some event)) fun _ => false

theorem deadAfter_append (events : List (Event N)) (event : Option (Event N)) :
    deadAfter (events ++ event.toList) = bury (deadAfter events) event := by
  cases event with
  | none => simp [deadAfter, bury]
  | some event => simp [deadAfter]

/-- A dead name is on neither list. -/
def Buried (mgr : Manager N) (dead : N → Bool) : Prop :=
  ∀ name, dead name = true → mgr.inner.get name = none ∧ mgr.pending.get name = none

/-- A flag is set or on the pending list. -/
def Stoppable (mgr : Manager N) (name : N) (flag : Flag) : Prop :=
  flag ∈ mgr.raised ∨ mgr.pending.get name = some flag

namespace InstallPc

/-- What an install has found while it holds the lock. -/
def Relies (me : Nat) (mgr : Manager N) (dead : N → Bool) (owner : Owner N) :
    InstallPc N → Prop
  | deciding _ _ => mgr.lock = some me
  | registering name _ =>
    mgr.lock = some me ∧ mgr.inner.get name = none ∧ (owner.origin ≠ .user → dead name = false)
  | _ => True

end InstallPc

/-- A reload's install can be stopped. -/
def Owner.Relies (mgr : Manager N) : Owner N → Prop
  | .reload _ name killed => Stoppable mgr name killed
  | _ => True

def ReloadPc.Relies (me : Nat) (mgr : Manager N) (dead : N → Bool) (name : N) :
    ReloadPc N → Prop
  | .marking _ _ => mgr.lock = some me ∧ dead name = false
  | .settling _ killed => Stoppable mgr name killed
  | _ => True

def KillPc.Relies (me : Nat) (mgr : Manager N) (name : N) : KillPc → Prop
  | .start => True
  | .removing _ => mgr.lock = some me ∧ mgr.pending.get name = none
  | .stopping => mgr.lock = some me ∧ mgr.pending.get name = none ∧ mgr.inner.get name = none

def Task.Relies (me : Nat) (mgr : Manager N) (dead : N → Bool) : Task N → Prop
  | .install owner _ pc => owner.Relies mgr ∧ pc.Relies me mgr dead owner
  | .reload _ name pc => pc.Relies me mgr dead name
  | .kill name pc => pc.Relies me mgr name
  | .shutdown .draining => mgr.lock = some me
  | _ => True

/-- A step of one task, as the others see it. Flags stay set. What is on a list stays on it, or its
flag is set; only its own reload's flag does a task replace. Nothing that the lock guards changes
under another holder. -/
structure Frame (me : Nat) (own : Option Flag) (mgr mgr' : Manager N)
    (event : Option (Event N)) : Prop where
  fresh : mgr.fresh ≤ mgr'.fresh
  raised : ∀ flag ∈ mgr.raised, flag ∈ mgr'.raised
  pending : ∀ name flag, mgr.pending.get name = some flag →
    Stoppable mgr' name flag ∨ own = some flag
  inner : ∀ name running cancel, mgr.inner.get name = some running →
    running.watchCancel = some cancel → mgr'.inner.get name = some running ∨ cancel ∈ mgr'.raised
  lock : ∀ j, j ≠ me → mgr.lock = some j → mgr'.lock = some j
  guarded : ∀ j, j ≠ me → mgr.lock = some j →
    mgr'.inner = mgr.inner ∧ (∀ name, event ≠ some (.killed name)) ∧
      ∀ name, mgr.pending.get name = none → mgr'.pending.get name = none

variable {me : Nat} {own : Option Flag} {mgr mgr' : Manager N} {event : Option (Event N)}
  {dead : N → Bool}

theorem Frame.stoppable (h : Frame me own mgr mgr' event) {name : N}
    (hstop : Stoppable mgr name flag) (hown : own ≠ some flag) : Stoppable mgr' name flag := by
  rcases hstop with hraised | hpending
  · exact .inl (h.raised flag hraised)
  · exact (h.pending name flag hpending).resolve_right hown

/-- Under another holder of the lock no name dies. -/
theorem Frame.dead_of_bury (h : Frame me own mgr mgr' event) {j : Nat} (hj : j ≠ me)
    (hlock : mgr.lock = some j) {name : N} (hdead : dead name = false) :
    bury dead event name = false := by
  have hkilled := (h.guarded j hj hlock).2.1
  unfold bury
  split
  · next name' => exact (hkilled name' rfl).elim
  · next name' =>
    by_cases hname : name = name'
    · rw [hname, update_self]
    · rw [update_of_ne hname]
      exact hdead
  · exact hdead

/-- What another task relies on survives a step. -/
theorem Frame.relies (h : Frame me own mgr mgr' event) {j : Nat} (hj : j ≠ me)
    (hown : ∀ flag ∈ task.flags, own ≠ some flag) (hrelies : task.Relies j mgr dead) :
    task.Relies j mgr' (bury dead event) := by
  cases task with
  | install owner source pc =>
    refine ⟨?_, ?_⟩
    · cases owner with
      | reload trigger name killed =>
        exact h.stoppable hrelies.1 (hown killed (by simp [Task.flags, Task.reloading]))
      | _ => trivial
    · cases pc with
      | deciding name watch => exact h.lock j hj hrelies.2
      | registering name watch =>
        obtain ⟨hlock, hinner, hdead⟩ := hrelies.2
        refine ⟨h.lock j hj hlock, ?_, fun horigin => h.dead_of_bury hj hlock (hdead horigin)⟩
        rw [(h.guarded j hj hlock).1]
        exact hinner
      | _ => trivial
  | reload trigger name pc =>
    cases pc with
    | marking source killed => exact ⟨h.lock j hj hrelies.1, h.dead_of_bury hj hrelies.1 hrelies.2⟩
    | settling source killed =>
      exact h.stoppable hrelies (hown killed (by simp [Task.flags, Task.reloading]))
    | _ => trivial
  | kill name pc =>
    cases pc with
    | start => trivial
    | removing pending =>
      exact ⟨h.lock j hj hrelies.1, (h.guarded j hj hrelies.1).2.2 name hrelies.2⟩
    | stopping =>
      obtain ⟨hlock, hpending, hinner⟩ := hrelies
      refine ⟨h.lock j hj hlock, (h.guarded j hj hlock).2.2 name hpending, ?_⟩
      rw [(h.guarded j hj hlock).1]
      exact hinner
  | shutdown pc =>
    cases pc with
    | start => trivial
    | draining => exact h.lock j hj hrelies
  | _ => trivial

/-- A flag is set, on the pending list, or with the running plugin. -/
def Reachable (mgr : Manager N) (name : N) (flag : Flag) : Prop :=
  Stoppable mgr name flag ∨
    ∃ running, mgr.inner.get name = some running ∧ running.watchCancel = some flag

theorem Frame.reachable (h : Frame me own mgr mgr' event) {name : N}
    (hreach : Reachable mgr name flag) (hown : own ≠ some flag) : Reachable mgr' name flag := by
  rcases hreach with hstop | ⟨running, hrunning, hcancel⟩
  · exact .inl (h.stoppable hstop hown)
  · rcases h.inner name running flag hrunning hcancel with hkept | hraised
    · exact .inr ⟨running, hkept, hcancel⟩
    · exact .inl (.inl hraised)

/-- What a step of a task has to keep. -/
structure Sound (me : Nat) (task : Task N) (mgr : Manager N) (dead : N → Bool)
    (out : Stepped N) : Prop where
  frame : Frame me (task.reloading.map Prod.snd) mgr out.mgr out.event
  relies : out.next.Relies me out.mgr (bury dead out.event)
  buried : Buried out.mgr (bury dead out.event)
  /-- A reload or a watcher registers no dead name. -/
  safe : ∀ name origin, out.event = some (.registered name origin) → origin ≠ .user →
    dead name = false
  /-- A flag is held on or handed over. -/
  hands : ∀ name cancel, task.held = some (name, cancel) →
    out.next.held = some (name, cancel) ∨ Reachable out.mgr name cancel
  spawned : ∀ w, out.spawned = some w → out.next.held = some (w.name, w.cancel) ∧
    w.cancel = mgr.fresh ∧ out.mgr.fresh = mgr.fresh + 1
  watching : ∀ w, out.next.watching = some w → task.watching = some w
  reloading : ∀ name flag, out.next.reloading = some (name, flag) →
    task.reloading = some (name, flag) ∨
      (flag = mgr.fresh ∧ out.mgr.fresh = mgr.fresh + 1 ∧ out.spawned = none)

theorem Frame.of_eq (hinner : mgr'.inner = mgr.inner) (hpending : mgr'.pending = mgr.pending)
    (hraised : ∀ flag ∈ mgr.raised, flag ∈ mgr'.raised) (hfresh : mgr.fresh ≤ mgr'.fresh)
    (hlock : ∀ j, j ≠ me → mgr.lock = some j → mgr'.lock = some j) :
    Frame me own mgr mgr' none where
  fresh := hfresh
  raised := hraised
  pending name flag h := .inl (.inr (hpending ▸ h))
  inner name running cancel h _ := .inl (hinner ▸ h)
  lock := hlock
  guarded j _ _ := ⟨hinner, by simp, fun name h => hpending ▸ h⟩

section

omit [DecidableEq N]

/-- A step that the lock is free for, or that its holder takes, changes nothing under another
holder. -/
theorem no_other_holder (h : mgr.lock = none ∨ mgr.lock = some me) {j : Nat} (hj : j ≠ me) :
    mgr.lock ≠ some j := by
  rcases h with h | h <;> rw [h]
  · simp
  · intro heq
    exact hj (Option.some.inj heq).symm

theorem mem_raise (mgr : Manager N) (flag : Option Flag) {f : Flag} :
    f ∈ (mgr.raise flag).raised ↔ flag = some f ∨ f ∈ mgr.raised := by
  cases flag <;> simp [Manager.raise, eq_comm]

end

/-- A step that takes the lock, or is its holder's, has no other holder to mind. -/
theorem Frame.of_holder (hlock : mgr.lock = none ∨ mgr.lock = some me)
    (hfresh : mgr.fresh ≤ mgr'.fresh) (hraised : ∀ flag ∈ mgr.raised, flag ∈ mgr'.raised)
    (hpending : ∀ name flag, mgr.pending.get name = some flag →
      Stoppable mgr' name flag ∨ own = some flag)
    (hinner : ∀ name running cancel, mgr.inner.get name = some running →
      running.watchCancel = some cancel →
        mgr'.inner.get name = some running ∨ cancel ∈ mgr'.raised) :
    Frame me own mgr mgr' event :=
  ⟨hfresh, hraised, hpending, hinner, fun _ hj h => (no_other_holder hlock hj h).elim,
    fun _ hj h => (no_other_holder hlock hj h).elim⟩

variable {out : Stepped N} {c : Chance N}

/-- A step that touches no list and buries no name. -/
theorem Sound.of_eq {next : Task N} {spawned : Option (Watcher N)} (hburied : Buried mgr dead)
    (hframe : Frame me (task.reloading.map Prod.snd) mgr mgr' none)
    (hinner : mgr'.inner = mgr.inner) (hpending : mgr'.pending = mgr.pending)
    (hrelies : next.Relies me mgr' dead)
    (hands : ∀ name cancel, task.held = some (name, cancel) →
      next.held = some (name, cancel) ∨ Reachable mgr' name cancel)
    (hspawned : ∀ w, spawned = some w → next.held = some (w.name, w.cancel) ∧
      w.cancel = mgr.fresh ∧ mgr'.fresh = mgr.fresh + 1)
    (hwatching : ∀ w, next.watching = some w → task.watching = some w)
    (hreloading : ∀ name flag, next.reloading = some (name, flag) →
      task.reloading = some (name, flag)) :
    Sound me task mgr dead ⟨mgr', next, spawned, none⟩ where
  frame := hframe
  relies := hrelies
  buried := by
    intro name hdead
    rw [hinner, hpending]
    exact hburied name hdead
  safe := by simp
  hands := hands
  spawned := hspawned
  watching := hwatching
  reloading := fun name flag h => .inl (hreloading name flag h)

section

variable {owner : Owner N} {source : PluginSource N} {trigger : Option (Watcher N)}
variable {pc : InstallPc N}

theorem relies_resume (trigger : Option (Watcher N)) : (resume trigger).Relies me mgr dead := by
  cases trigger <;> trivial

theorem relies_returned (owner : Owner N) (source : PluginSource N) (ok : Bool) :
    (owner.returned source ok).Relies me mgr dead := by
  cases owner with
  | user => trivial
  | reload trigger name killed =>
    cases ok with
    | true => exact relies_resume trigger
    | false => trivial
  | watcher w => trivial

section

omit [DecidableEq N]

theorem watching_resume {w : Watcher N} (h : (resume trigger).watching = some w) :
    trigger = some w := by
  cases trigger with
  | none => exact h
  | some w' => exact h

theorem reloading_resume (trigger : Option (Watcher N)) : (resume trigger).reloading = none := by
  cases trigger <;> rfl

theorem watching_returned {ok : Bool} {w : Watcher N}
    (h : (owner.returned source ok).watching = some w) :
    (Task.install owner source pc).watching = some w := by
  cases owner with
  | user => exact h
  | reload trigger name killed =>
    cases ok with
    | true => exact watching_resume h
    | false => exact h
  | watcher w' => exact h

theorem reloading_returned {ok : Bool} {name : N}
    (h : (owner.returned source ok).reloading = some (name, flag)) :
    (Task.install owner source pc).reloading = some (name, flag) := by
  cases owner with
  | user => exact h
  | reload trigger name' killed =>
    cases ok with
    | true =>
      rw [Owner.returned, if_pos rfl, reloading_resume] at h
      cases h
    | false => exact h
  | watcher w' => exact h

end

/-- What an install's owner relies on survives a step that touches no list. -/
theorem Owner.Relies.of_eq (h : owner.Relies mgr) (hpending : mgr'.pending = mgr.pending)
    (hraised : ∀ flag ∈ mgr.raised, flag ∈ mgr'.raised) : owner.Relies mgr' := by
  cases owner with
  | reload trigger name killed => exact h.imp (hraised killed) fun hp => hpending ▸ hp
  | _ => trivial

/-- An install goes on to its next point without a change that others see. -/
theorem Sound.install_of_eq {pc' : InstallPc N} {spawned : Option (Watcher N)}
    (hburied : Buried mgr dead) (howner : owner.Relies mgr)
    (hinner : mgr'.inner = mgr.inner) (hpending : mgr'.pending = mgr.pending)
    (hraised : ∀ flag ∈ mgr.raised, flag ∈ mgr'.raised) (hfresh : mgr.fresh ≤ mgr'.fresh)
    (hlock : ∀ j, j ≠ me → mgr.lock = some j → mgr'.lock = some j)
    (hrelies : pc'.Relies me mgr' dead owner)
    (hands : ∀ name cancel, (Task.install owner source pc).held = some (name, cancel) →
      (Task.install owner source pc').held = some (name, cancel) ∨ Reachable mgr' name cancel)
    (hspawned : ∀ w, spawned = some w →
      (Task.install owner source pc').held = some (w.name, w.cancel) ∧
        w.cancel = mgr.fresh ∧ mgr'.fresh = mgr.fresh + 1) :
    Sound me (.install owner source pc) mgr dead ⟨mgr', .install owner source pc', spawned, none⟩ :=
  Sound.of_eq hburied (.of_eq hinner hpending hraised hfresh hlock) hinner hpending
    ⟨howner.of_eq hpending hraised, hrelies⟩ hands hspawned
    (fun _ h => by cases owner <;> exact h) (fun _ _ h => by cases owner <;> exact h)

/-- An install returns an error. -/
theorem Sound.returned_of_eq (hburied : Buried mgr dead)
    (hinner : mgr'.inner = mgr.inner) (hpending : mgr'.pending = mgr.pending)
    (hraised : ∀ flag ∈ mgr.raised, flag ∈ mgr'.raised) (hfresh : mgr.fresh ≤ mgr'.fresh)
    (hlock : mgr'.lock = mgr.lock)
    (hands : ∀ name cancel, (Task.install owner source pc).held = some (name, cancel) →
      Reachable mgr' name cancel) :
    Sound me (.install owner source pc) mgr dead
      ⟨mgr', owner.returned source false, none, none⟩ :=
  Sound.of_eq hburied (.of_eq hinner hpending hraised hfresh fun _ _ h => hlock.trans h) hinner
    hpending (relies_returned owner source false) (fun name cancel h => .inr (hands name cancel h))
    (by simp) (fun _ => watching_returned) fun _ _ => reloading_returned

/-- Taking what is pending for a name leaves it stopped. -/
theorem stoppable_takePending (mgr : Manager N) (name : N) {name' : N}
    (h : mgr.pending.get name' = some flag) : Stoppable (mgr.takePending name) name' flag := by
  by_cases hname : name' = name
  · subst hname
    exact .inl ((mem_raise _ _).2 (.inl h))
  · refine .inr ?_
    show (mgr.pending.remove name).get name' = _
    rw [get_remove, if_neg hname]
    exact h

/-- A plugin registers. Nothing was there under its name. -/
theorem Sound.registering {name : N} {watch : Option Flag} (hburied : Buried mgr dead)
    (hrelies : (Task.install owner source (.registering name watch)).Relies me mgr dead)
    (hout : installStep me c mgr owner source (.registering name watch) = some out) :
    Sound me (.install owner source (.registering name watch)) mgr dead out := by
  obtain ⟨-, hlock, hfree, hdead⟩ := hrelies
  cases hout
  have hbury : ∀ name', bury dead (some (.registered name owner.origin)) name' = true →
      name' ≠ name ∧ dead name' = true := by
    intro name' h
    cases horigin : owner.origin with
    | user =>
      rw [horigin, bury] at h
      by_cases hname : name' = name
      · rw [hname, update_self] at h
        cases h
      · rw [update_of_ne hname] at h
        exact ⟨hname, h⟩
    | reload =>
      rw [horigin] at h
      refine ⟨fun hname => ?_, h⟩
      rw [hname] at h
      exact Bool.false_ne_true ((hdead (by simp [horigin])).symm.trans h)
    | watcher =>
      rw [horigin] at h
      refine ⟨fun hname => ?_, h⟩
      rw [hname] at h
      exact Bool.false_ne_true ((hdead (by simp [horigin])).symm.trans h)
  refine
    { frame := ?_
      relies := relies_returned owner source true
      buried := ?_
      safe := ?_
      hands := ?_
      spawned := by simp
      watching := fun _ => watching_returned
      reloading := fun _ _ h => .inl (reloading_returned h) }
  · refine .of_holder (.inr hlock) le_rfl (fun _ h => (mem_raise _ _).2 (.inr h))
      (fun _ _ h => .inl (stoppable_takePending mgr name h)) fun name' running cancel h _ => ?_
    have hname : name' ≠ name := by
      intro hname
      rw [hname, hfree] at h
      cases h
    refine .inl ?_
    show (mgr.inner.insert name ⟨source, watch⟩).get name' = _
    rw [get_insert, if_neg hname]
    exact h
  · intro name' h
    obtain ⟨hname, hdead'⟩ := hbury name' h
    obtain ⟨hinner, hpending⟩ := hburied name' hdead'
    refine ⟨?_, ?_⟩
    · show (mgr.inner.insert name ⟨source, watch⟩).get name' = _
      rw [get_insert, if_neg hname]
      exact hinner
    · show (mgr.pending.remove name).get name' = _
      rw [get_remove, if_neg hname]
      exact hpending
  · intro name' origin h horigin
    cases h
    exact hdead horigin
  · -- The watcher is with the running plugin now.
    intro name' cancel h
    refine .inr (.inr ⟨⟨source, watch⟩, ?_, ?_⟩)
    · show (mgr.inner.insert name ⟨source, watch⟩).get name' = _
      obtain ⟨_, -, heq⟩ := Option.map_eq_some_iff.1 h
      cases heq
      exact get_insert_self _ _ _
    · obtain ⟨_, hwatch, heq⟩ := Option.map_eq_some_iff.1 h
      cases heq
      exact hwatch

/-- One case for each point of an install. What is decided under the lock is that a reload or a
watcher finds no dead name. -/
theorem installStep_sound (hburied : Buried mgr dead)
    (hrelies : (Task.install owner source pc).Relies me mgr dead)
    (halive : ∀ name watch, pc = .deciding name watch → mgr.refuses owner name c = false →
      owner.origin ≠ .user → dead name = false)
    (hout : installStep me c mgr owner source pc = some out) :
    Sound me (.install owner source pc) mgr dead out := by
  have howner := hrelies.1
  cases pc with
  | handshake =>
    cases c with
    | ok => cases hout
    | fail =>
      cases hout
      exact .returned_of_eq hburied rfl rfl (fun _ h => h) le_rfl rfl (by simp [Task.held])
    | manifest name =>
      simp only [installStep] at hout
      split at hout
      · cases hout
        exact .returned_of_eq hburied rfl rfl (fun _ h => h) le_rfl rfl (by simp [Task.held])
      split at hout
      · cases hout
        refine .install_of_eq hburied howner rfl rfl (fun _ h => h) (Nat.le_succ _)
          (fun _ _ h => h) trivial (by simp [Task.held]) ?_
        rintro w hw
        cases hw
        exact ⟨rfl, rfl, rfl⟩
      · cases hout
        exact .install_of_eq hburied howner rfl rfl (fun _ h => h) le_rfl (fun _ _ h => h)
          trivial (by simp [Task.held]) (by simp)
  | arming name cancel =>
    cases c with
    | ok =>
      cases hout
      exact .install_of_eq hburied howner rfl rfl (fun _ h => h) le_rfl (fun _ _ h => h)
        trivial (fun _ _ h => .inl h) (by simp)
    | fail =>
      cases hout
      refine .install_of_eq hburied howner rfl rfl (fun _ h => (mem_raise _ _).2 (.inr h)) le_rfl
        (fun _ _ h => h) trivial ?_ (by simp)
      intro name' cancel' h
      cases h
      exact .inr (.inl (.inl ((mem_raise _ _).2 (.inl rfl))))
    | manifest name => cases hout
  | waiting name watch =>
    simp only [installStep] at hout
    split at hout
    · next hlock =>
      cases hout
      exact .install_of_eq hburied howner rfl rfl (fun _ h => h) le_rfl
        (fun j hj h => (no_other_holder (.inl hlock) hj h).elim) rfl (fun _ _ h => .inl h)
        (by simp)
    · cases hout
  | deciding name watch =>
    have hlock : mgr.lock = some me := hrelies.2
    simp only [installStep] at hout
    split at hout
    · cases hout
      exact .install_of_eq hburied howner rfl rfl (fun _ h => h) le_rfl
        (fun j hj h => (no_other_holder (.inr hlock) hj h).elim) trivial (fun _ _ h => .inl h)
        (by simp)
    · next hrefuses =>
      rw [Bool.not_eq_true] at hrefuses
      cases hout
      refine .install_of_eq hburied howner rfl rfl (fun _ h => h) le_rfl (fun _ _ h => h)
        ⟨hlock, ?_, halive name watch rfl hrefuses⟩ (fun _ _ h => .inl h) (by simp)
      simp only [Manager.refuses, Bool.or_eq_false_iff, FinMap.contains,
        Option.isSome_eq_false_iff, Option.isNone_iff_eq_none] at hrefuses
      exact hrefuses.1.2
  | registering name watch => exact .registering hburied hrelies hout
  | refused name watch =>
    cases hout
    refine .returned_of_eq hburied rfl rfl (fun _ h => (mem_raise _ _).2 (.inr h)) le_rfl rfl ?_
    intro name' cancel h
    obtain ⟨_, hwatch, heq⟩ := Option.map_eq_some_iff.1 h
    cases heq
    exact .inl (.inl ((mem_raise _ _).2 (.inl hwatch)))

end

/-! ## Steps of the others -/

section

variable {trigger : Option (Watcher N)} {name : N}

/-- A plugin that is taken out takes its watcher along. -/
theorem frame_unregister {running : Running N} (hlock : mgr.lock = none ∨ mgr.lock = some me)
    (hrunning : mgr.inner.get name = some running) (hinner : mgr'.inner = mgr.inner.remove name)
    (hpending : mgr'.pending = mgr.pending) (hfresh : mgr.fresh ≤ mgr'.fresh)
    (hraised : mgr'.raised = (mgr.raise running.watchCancel).raised) :
    Frame me own mgr mgr' none := by
  refine .of_holder hlock hfresh (fun flag h => hraised ▸ (mem_raise _ _).2 (.inr h))
    (fun _ _ h => .inl (.inr (hpending ▸ h))) fun name' running' cancel h hcancel => ?_
  by_cases hname : name' = name
  · subst hname
    rw [hrunning] at h
    cases h
    exact .inr (hraised ▸ (mem_raise _ _).2 (.inl hcancel))
  · refine .inl ?_
    rw [hinner, get_remove, if_neg hname]
    exact h

theorem buried_remove (hburied : Buried mgr dead) (hinner : mgr'.inner = mgr.inner.remove name)
    (hpending : mgr'.pending = mgr.pending) : Buried mgr' dead := by
  intro name' hdead
  obtain ⟨hnone, hfree⟩ := hburied name' hdead
  refine ⟨?_, hpending ▸ hfree⟩
  rw [hinner, get_remove, hnone, ite_self]

/-- A failed reload changes the pending list where its own flag stands, and otherwise stops the
watcher it has armed. -/
theorem publish_cases (mgr : Manager N) (name : N) (killed : Flag) (watcher : Option Flag) :
    (mgr.pending.get name = some killed ∧ ∃ pending : FinMap N Flag,
      publish mgr name killed watcher = { mgr with pending } ∧ pending.get name = watcher ∧
        ∀ name', name' ≠ name → pending.get name' = mgr.pending.get name') ∨
    publish mgr name killed watcher = mgr.raise watcher := by
  unfold publish
  by_cases hours : mgr.pending.get name = some killed
  · refine .inl ⟨hours, ?_⟩
    rw [decide_eq_true hours]
    cases watcher with
    | some cancel =>
      refine ⟨_, rfl, get_insert_self _ _ _, fun name' hname => ?_⟩
      rw [get_insert, if_neg hname]
    | none =>
      refine ⟨_, rfl, ?_, fun name' hname => ?_⟩
      · rw [get_remove, if_pos rfl]
      · rw [get_remove, if_neg hname]
  · refine .inr ?_
    rw [decide_eq_false hours]
    cases watcher with
    | some cancel => rfl
    | none => rfl

/-- Only its own reload's flag is replaced by what a failed reload publishes. -/
theorem frame_publish (mgr : Manager N) (name : N) (killed : Flag) (watcher : Option Flag) :
    Frame me (some killed) mgr (publish mgr name killed watcher) none := by
  rcases publish_cases mgr name killed watcher with ⟨hours, pending, heq, -, hothers⟩ | heq
  · rw [heq]
    refine
      { fresh := le_rfl
        raised := fun _ h => h
        pending := fun name' flag h => ?_
        inner := fun _ _ _ h _ => .inl h
        lock := fun _ _ h => h
        guarded := fun _ _ _ => ⟨rfl, by simp, fun name' h => ?_⟩ }
    · by_cases hname : name' = name
      · rw [hname, hours] at h
        exact .inr h
      · exact .inl (.inr ((hothers name' hname).trans h))
    · have hname : name' ≠ name := by
        rintro rfl
        rw [hours] at h
        cases h
      exact (hothers name' hname).trans h
  · rw [heq]
    exact .of_eq rfl rfl (fun _ h => (mem_raise _ _).2 (.inr h)) le_rfl fun _ _ h => h

/-- Nothing is published under a dead name. -/
theorem buried_publish (hburied : Buried mgr dead) (killed : Flag) (watcher : Option Flag) :
    Buried (publish mgr name killed watcher) dead := by
  rcases publish_cases mgr name killed watcher with ⟨hours, pending, heq, -, hothers⟩ | heq
  · intro name' hdead
    obtain ⟨hinner, hpending⟩ := hburied name' hdead
    have hname : name' ≠ name := by
      rintro rfl
      rw [hours] at hpending
      cases hpending
    rw [heq]
    exact ⟨hinner, (hothers name' hname).trans hpending⟩
  · rw [heq]
    exact hburied

/-- A watcher that is published is reachable, and one that is not is stopped. -/
theorem reachable_publish (mgr : Manager N) (name : N) (killed cancel : Flag) :
    Reachable (publish mgr name killed (some cancel)) name cancel := by
  rcases publish_cases mgr name killed (some cancel) with ⟨-, pending, heq, hname, -⟩ | heq
  · rw [heq]
    exact .inl (.inr hname)
  · rw [heq]
    exact .inl (.inl ((mem_raise _ _).2 (.inl rfl)))

/-- A reload goes on to its next point without a change that others see. -/
theorem Sound.reload_of_eq {pc pc' : ReloadPc N} {spawned : Option (Watcher N)}
    (hburied : Buried mgr dead) (hinner : mgr'.inner = mgr.inner)
    (hpending : mgr'.pending = mgr.pending)
    (hraised : ∀ flag ∈ mgr.raised, flag ∈ mgr'.raised) (hfresh : mgr.fresh ≤ mgr'.fresh)
    (hlock : mgr'.lock = mgr.lock) (hrelies : pc'.Relies me mgr' dead name)
    (hands : ∀ name' cancel, (Task.reload trigger name pc).held = some (name', cancel) →
      (Task.reload trigger name pc').held = some (name', cancel) ∨ Reachable mgr' name' cancel)
    (hspawned : ∀ w, spawned = some w →
      (Task.reload trigger name pc').held = some (w.name, w.cancel) ∧
        w.cancel = mgr.fresh ∧ mgr'.fresh = mgr.fresh + 1)
    (hreloading : (Task.reload trigger name pc').reloading =
      (Task.reload trigger name pc).reloading) :
    Sound me (.reload trigger name pc) mgr dead
      ⟨mgr', .reload trigger name pc', spawned, none⟩ :=
  Sound.of_eq hburied (.of_eq hinner hpending hraised hfresh fun _ _ h => hlock.trans h) hinner
    hpending hrelies hands hspawned (fun _ h => h) fun _ _ h => hreloading ▸ h

/-- A reload takes the plugin out under the lock, and its watcher with it. -/
theorem unregister_sound {running : Running N} (hburied : Buried mgr dead) (hlock : mgr.lock = none)
    (hrunning : mgr.inner.get name = some running) :
    Sound me (.reload trigger name .start) mgr dead
      ⟨{ mgr.unregister name running with lock := some me, fresh := mgr.fresh + 1 },
        .reload trigger name (.marking running.source mgr.fresh), none, none⟩ where
  frame := frame_unregister (.inl hlock) hrunning rfl rfl (Nat.le_succ _) rfl
  relies := by
    refine ⟨rfl, ?_⟩
    by_contra hdead
    rw [Bool.not_eq_false] at hdead
    rw [(hburied name hdead).1] at hrunning
    cases hrunning
  buried := buried_remove hburied rfl rfl
  safe := by simp
  hands := by simp [Task.held]
  spawned := by simp
  watching _ h := h
  reloading _ _ h := by
    cases h
    exact .inr ⟨rfl, rfl, rfl⟩

/-- It puts its flag on the pending list before it gives the lock back. -/
theorem marking_sound {source : PluginSource N} {killed : Flag} (hburied : Buried mgr dead)
    (hlock : mgr.lock = some me) (halive : dead name = false) :
    Sound me (.reload trigger name (.marking source killed)) mgr dead
      ⟨{ mgr.setPending name killed with lock := none },
        .reload trigger name (.settling source killed), none, none⟩ := by
  have hget : ∀ name', name' ≠ name →
      (mgr.setPending name killed).pending.get name' = mgr.pending.get name' := by
    intro name' hname
    show (mgr.pending.insert name killed).get name' = _
    rw [get_insert, if_neg hname]
  exact
    { frame := by
        refine .of_holder (.inr hlock) le_rfl (fun _ h => (mem_raise _ _).2 (.inr h))
          (fun name' flag h => ?_) fun _ _ _ h _ => .inl h
        by_cases hname : name' = name
        · subst hname
          exact .inl (.inl ((mem_raise _ _).2 (.inl h)))
        · exact .inl (.inr ((hget name' hname).trans h))
      relies := .inr (get_insert_self _ _ _)
      buried := by
        intro name' hdead
        have hname : name' ≠ name := by
          rintro rfl
          exact Bool.false_ne_true (halive.symm.trans hdead)
        exact ⟨(hburied name' hdead).1, (hget name' hname).trans (hburied name' hdead).2⟩
      safe := by simp
      hands := by simp [Task.held]
      spawned := by simp
      watching := fun _ h => h
      reloading := fun _ _ h => .inl h }

/-- One case for each point of a reload. -/
theorem reloadStep_sound {pc : ReloadPc N} (hburied : Buried mgr dead)
    (hrelies : (Task.reload trigger name pc).Relies me mgr dead)
    (hout : reloadStep me c mgr trigger name pc = some out) :
    Sound me (.reload trigger name pc) mgr dead out := by
  cases pc with
  | start =>
    simp only [reloadStep] at hout
    split at hout
    · next hlock =>
      split at hout
      · cases hout
        exact .of_eq hburied (.of_eq rfl rfl (fun _ h => h) le_rfl fun _ _ h => h) rfl rfl
          (relies_resume trigger) (by simp [Task.held]) (by simp)
          (fun _ h => watching_resume h) (by simp [reloading_resume])
      · next running hrunning =>
        cases hout
        exact unregister_sound hburied hlock hrunning
    · cases hout
  | marking source killed =>
    cases hout
    exact marking_sound hburied hrelies.1 hrelies.2
  | settling source killed =>
    cases hout
    exact .of_eq hburied (.of_eq rfl rfl (fun _ h => h) le_rfl fun _ _ h => h) rfl rfl
      ⟨hrelies, trivial⟩ (by simp [Task.held]) (by simp) (fun _ h => h) fun _ _ h => h
  | failed source killed =>
    simp only [reloadStep] at hout
    split at hout
    · cases hout
      refine .reload_of_eq hburied rfl rfl (fun _ h => h) (Nat.le_succ _) rfl trivial
        (by simp [Task.held]) ?_ rfl
      rintro w hw
      cases hw
      exact ⟨rfl, rfl, rfl⟩
    · cases hout
      exact .reload_of_eq hburied rfl rfl (fun _ h => h) le_rfl rfl trivial (by simp [Task.held])
        (by simp) rfl
  | rearming killed cancel =>
    cases c with
    | ok =>
      cases hout
      exact .reload_of_eq hburied rfl rfl (fun _ h => h) le_rfl rfl trivial
        (fun _ _ h => .inl h) (by simp) rfl
    | fail =>
      cases hout
      refine .reload_of_eq hburied rfl rfl (fun _ h => (mem_raise _ _).2 (.inr h)) le_rfl rfl
        trivial ?_ (by simp) rfl
      intro name' cancel' h
      cases h
      exact .inr (.inl (.inl ((mem_raise _ _).2 (.inl rfl))))
    | manifest name => cases hout
  | publishing killed watcher =>
    cases hout
    exact
      { frame := frame_publish mgr name killed watcher
        relies := relies_resume trigger
        buried := buried_publish hburied killed watcher
        safe := by simp
        hands := by
          intro name' cancel h
          obtain ⟨_, rfl, heq⟩ := Option.map_eq_some_iff.1 h
          cases heq
          exact .inr (reachable_publish mgr _ killed cancel)
        spawned := by simp
        watching := fun _ h => watching_resume h
        reloading := by simp [reloading_resume] }

theorem watchStep_sound {w : Watcher N} {pc : WatchPc} (hburied : Buried mgr dead)
    (hout : watchStep c mgr w pc = some out) : Sound me (.watcher w pc) mgr dead out := by
  have hgo : ∀ next : Task N, next.Relies me mgr dead →
      (∀ w', next.watching = some w' → w = w') → next.reloading = none →
        goOn mgr next = some out → Sound me (.watcher w pc) mgr dead out := by
    intro next hrelies hwatching hreloading hgo
    cases hgo
    exact .of_eq hburied (.of_eq rfl rfl (fun _ h => h) le_rfl fun _ _ h => h) rfl rfl hrelies
      (by simp [Task.held]) (by simp) (fun w' h => congrArg some (hwatching w' h))
      (by simp [hreloading])
  cases pc with
  | idle =>
    cases c with
    | ok => exact hgo (.watcher w .debouncing) trivial (fun _ h => Option.some.inj h) rfl hout
    | fail => exact hgo .done trivial (by simp [Task.watching]) rfl hout
    | manifest name => cases hout
  | debouncing =>
    simp only [watchStep] at hout
    split at hout
    · exact hgo .done trivial (by simp [Task.watching]) rfl hout
    · exact hgo (.watcher w .looking) trivial (fun _ h => Option.some.inj h) rfl hout
  | looking =>
    simp only [watchStep] at hout
    split at hout
    · split at hout
      · exact hgo (.reload (some w) w.name .start) trivial (fun _ h => Option.some.inj h) rfl hout
      · exact hgo (.install (.watcher w) w.source .handshake) ⟨trivial, trivial⟩
          (fun _ h => Option.some.inj h) rfl hout
    · cases hout

/-- What a kill buries is on neither list. -/
theorem buried_killed (hburied : Buried mgr dead) (hinner : mgr.inner.get name = none)
    (hpending : mgr.pending.get name = none) : Buried mgr (bury dead (some (.killed name))) := by
  intro name' hdead
  by_cases hname : name' = name
  · rw [hname]
    exact ⟨hinner, hpending⟩
  · rw [bury, update_of_ne hname] at hdead
    exact hburied name' hdead

/-- A step of a task that holds no flag and watches nothing. -/
theorem Sound.of_frame {next : Task N}
    (hframe : Frame me (task.reloading.map Prod.snd) mgr mgr' event)
    (hrelies : next.Relies me mgr' (bury dead event)) (hburied : Buried mgr' (bury dead event))
    (hsafe : ∀ name origin, event ≠ some (.registered name origin)) (hheld : task.held = none)
    (hnext : next.watching = none ∧ next.reloading = none) :
    Sound me task mgr dead ⟨mgr', next, none, event⟩ where
  frame := hframe
  relies := hrelies
  buried := hburied
  safe name origin h := absurd h (hsafe name origin)
  hands := by simp [hheld]
  spawned := nofun
  watching := by simp [hnext.1]
  reloading := by simp [hnext.2]

theorem killStep_sound {pc : KillPc} (hburied : Buried mgr dead)
    (hrelies : (Task.kill name pc).Relies me mgr dead)
    (hout : killStep me mgr name pc = some out) : Sound me (.kill name pc) mgr dead out := by
  cases pc with
  | start =>
    simp only [killStep] at hout
    split at hout
    · next hlock =>
      cases hout
      have hget : ∀ name', (mgr.pending.remove name).get name' =
          if name' = name then none else mgr.pending.get name' := get_remove _ _
      refine .of_frame (.of_holder (.inl hlock) le_rfl (fun _ h => (mem_raise _ _).2 (.inr h))
        (fun _ _ h => .inl (stoppable_takePending mgr name h)) fun _ _ _ h _ => .inl h)
        ⟨rfl, (hget name).trans (if_pos rfl)⟩ (fun name' hdead => ?_) (by simp) rfl ⟨rfl, rfl⟩
      refine ⟨(hburied name' hdead).1, (hget name').trans ?_⟩
      rw [(hburied name' hdead).2, ite_self]
    · cases hout
  | removing pending =>
    obtain ⟨hlock, hpending⟩ := hrelies
    simp only [killStep] at hout
    split at hout
    · next hinner =>
      cases hout
      have hframe {event} : Frame me none mgr { mgr with lock := none } event :=
        .of_holder (.inr hlock) le_rfl (fun _ h => h) (fun _ _ h => .inl (.inr h))
          fun _ _ _ h _ => .inl h
      cases pending with
      | true =>
        exact .of_frame hframe trivial (buried_killed hburied hinner hpending) (by simp) rfl
          ⟨rfl, rfl⟩
      | false => exact .of_frame hframe trivial hburied (by simp) rfl ⟨rfl, rfl⟩
    · next running hrunning =>
      cases hout
      exact .of_frame (frame_unregister (.inr hlock) hrunning rfl rfl le_rfl rfl)
        ⟨hlock, hpending, (get_remove _ _ _).trans (if_pos rfl)⟩ (buried_remove hburied rfl rfl)
        (by simp) rfl ⟨rfl, rfl⟩
  | stopping =>
    obtain ⟨hlock, hpending, hinner⟩ := hrelies
    cases hout
    exact .of_frame (.of_holder (.inr hlock) le_rfl (fun _ h => h) (fun _ _ h => .inl (.inr h))
      fun _ _ _ h _ => .inl h) trivial (buried_killed hburied hinner hpending) (by simp) rfl
        ⟨rfl, rfl⟩

theorem shutdownStep_sound {pc : ShutdownPc} (hburied : Buried mgr dead)
    (hrelies : (Task.shutdown pc).Relies me mgr dead)
    (hout : shutdownStep me mgr pc = some out) : Sound me (.shutdown pc) mgr dead out := by
  cases pc with
  | start =>
    simp only [shutdownStep] at hout
    split at hout
    · next hlock =>
      cases hout
      exact .of_eq hburied (.of_eq rfl rfl (fun _ h => h) le_rfl
        fun j hj h => (no_other_holder (.inl hlock) hj h).elim) rfl rfl rfl
        (by simp [Task.held]) (by simp) (by simp [Task.watching]) (by simp [Task.reloading])
    · cases hout
  | draining =>
    have hlock : mgr.lock = some me := hrelies
    cases hout
    refine .of_frame (.of_holder (.inr hlock) le_rfl (fun _ h => mem_append_right _ h)
      (fun _ _ h => .inl (.inr h)) fun name' running cancel h hcancel => ?_) trivial
      (fun name' hdead => ⟨get_empty name', (hburied name' hdead).2⟩) nofun rfl ⟨rfl, rfl⟩
    refine .inr (mem_append_left _ (mem_filterMap.2 ⟨running, ?_, hcancel⟩))
    exact (mem_values_iff _ _).2 ⟨name', h⟩

/-- What every step of every task keeps. -/
theorem taskStep_sound (hburied : Buried mgr dead) (hrelies : task.Relies me mgr dead)
    (halive : ∀ owner source name watch, task = .install owner source (.deciding name watch) →
      mgr.refuses owner name c = false → owner.origin ≠ .user → dead name = false)
    (hout : taskStep me c mgr task = some out) : Sound me task mgr dead out := by
  cases task with
  | install owner source pc =>
    exact installStep_sound hburied hrelies
      (fun name watch hpc => halive owner source name watch (hpc ▸ rfl)) hout
  | reload trigger name pc => exact reloadStep_sound hburied hrelies hout
  | watcher w pc => exact watchStep_sound hburied hout
  | kill name pc => exact killStep_sound hburied hrelies hout
  | shutdown pc => exact shutdownStep_sound hburied hrelies hout
  | done => cases hout

end

/-- What holds between any two steps. -/
structure System.Inv (s : System N) (dead : N → Bool) : Prop where
  relies : ∀ (i : Nat) (task : Task N), s.tasks[i]? = some task → task.Relies i s.mgr dead
  nodup : ∀ task ∈ s.tasks, task.flags.Nodup
  made : ∀ task ∈ s.tasks, ∀ flag ∈ task.flags, flag < s.mgr.fresh
  /-- No two tasks have a flag in common. -/
  apart : ∀ (i j : Nat) (task task' : Task N) flag, s.tasks[i]? = some task →
    s.tasks[j]? = some task' →
    flag ∈ task.flags → flag ∈ task'.flags → i = j
  /-- A kill finds the flag of a watcher, or some task has yet to hand it over. -/
  watchers : ∀ task ∈ s.tasks, ∀ w, task.watching = some w →
    Reachable s.mgr w.name w.cancel ∨ ∃ task' ∈ s.tasks, task'.held = some (w.name, w.cancel)
  buried : Buried s.mgr dead

/-- A reload and a watcher install their plugin under the name it had, and a watcher decides only
after its flag was handed over. -/
def orderly (s : System N) : Label N → Bool
  | .call _ => true
  | .run i c =>
    match s.tasks[i]? with
    | some (.install owner _ (.deciding name _)) =>
      s.mgr.refuses owner name c ||
        match owner with
        | .user => true
        | .reload _ name' _ => decide (name = name')
        | .watcher w =>
          decide (name = w.name) &&
            s.tasks.all fun task => decide (task.held ≠ some (w.name, w.cancel))
    | _ => true

theorem inv_new : (System.new : System N).Inv fun _ => false where
  relies := by simp [System.new]
  nodup := by simp [System.new]
  made := by simp [System.new]
  apart := by simp [System.new]
  watchers := by simp [System.new]
  buried := by simp [Buried]

/-- A reload or a watcher that may register finds its flag on the pending list, and then the name
is not dead. -/
theorem System.Inv.alive (h : s.Inv dead) {i : Nat}
    (horderly : orderly s (.run i c) = true) {owner : Owner N} {source : PluginSource N} {name : N}
    {watch : Option Flag}
    (htask : s.tasks[i]? = some (.install owner source (.deciding name watch)))
    (hrefuses : s.mgr.refuses owner name c = false) (horigin : owner.origin ≠ .user) :
    dead name = false := by
  have hname := horderly
  simp only [orderly, htask, hrefuses, Bool.false_or] at hname
  have hrelies := (h.relies i _ htask).1
  have hpending : ∀ flag, s.mgr.pending.get name = some flag → dead name = false := by
    intro flag hflag
    by_contra hdead
    rw [Bool.not_eq_false] at hdead
    rw [(h.buried name hdead).2] at hflag
    cases hflag
  simp only [Manager.refuses, Bool.or_eq_false_iff, Option.any_eq_false] at hrefuses
  obtain ⟨⟨⟨-, hkilled⟩, hcontains⟩, -⟩ := hrefuses
  cases owner with
  | user => exact (horigin rfl).elim
  | reload trigger name' killed =>
    obtain rfl : name = name' := of_decide_eq_true hname
    have hraised := hkilled killed rfl
    rw [decide_eq_false_iff_not] at hraised
    exact hpending killed (hrelies.resolve_left hraised)
  | watcher w =>
    simp only [Bool.and_eq_true, decide_eq_true_eq, all_eq_true] at hname
    obtain ⟨rfl, hheld⟩ := hname
    have hraised := hkilled w.cancel rfl
    rw [decide_eq_false_iff_not] at hraised
    rcases h.watchers _ (mem_of_getElem? htask) w rfl with hreach | ⟨task', hmem, hholds⟩
    · rcases hreach with hstop | ⟨running, hrunning, -⟩
      · exact hpending w.cancel (hstop.resolve_left hraised)
      · simp [FinMap.contains, hrunning] at hcontains
    · exact (hheld task' hmem hholds).elim

section

omit [DecidableEq N]

/-- The tasks after a step: the one that took it, the others, and the watcher it armed. -/
theorem getElem?_stepped {tasks : List (Task N)} {i j : Nat} {out : Stepped N}
    (hi : i < tasks.length) (h : (tasks.set i out.next ++ out.watcher)[j]? = some task) :
    (j = i ∧ task = out.next) ∨ (j ≠ i ∧ tasks[j]? = some task) ∨
      ∃ w, out.spawned = some w ∧ task = .watcher w .idle ∧ j = tasks.length := by
  by_cases hj : j < tasks.length
  · rw [List.getElem?_append_left (by simpa using hj), List.getElem?_set] at h
    split at h
    · next heq =>
      subst heq
      exact .inl ⟨rfl, (Option.some.inj h).symm⟩
    · next hne => exact .inr (.inl ⟨fun heq => hne heq.symm, h⟩)
  · rw [List.getElem?_append_right (by simpa using hj), length_set] at h
    unfold Stepped.watcher at h
    cases hspawned : out.spawned with
    | none => simp [hspawned] at h
    | some w =>
      rw [hspawned] at h
      have hlt : j - tasks.length < 1 := by
        by_contra hge
        rw [List.getElem?_eq_none (by simp; omega)] at h
        cases h
      have hzero : j - tasks.length = 0 := by omega
      rw [hzero] at h
      exact .inr (.inr ⟨w, rfl, (Option.some.inj h).symm, by omega⟩)

theorem mem_flags :
    flag ∈ task.flags ↔ (∃ w, task.watching = some w ∧ w.cancel = flag) ∨
      ∃ name, task.reloading = some (name, flag) := by
  simp [Task.flags]

end

/-- The flags of a task after its step are its own from before, or one just made. -/
theorem Sound.flags (h : Sound me task mgr dead out) (hflag : flag ∈ out.next.flags) :
    flag ∈ task.flags ∨
      (flag = mgr.fresh ∧ out.mgr.fresh = mgr.fresh + 1 ∧ out.spawned = none) := by
  rcases mem_flags.1 hflag with ⟨w, hw, hcancel⟩ | ⟨name, hname⟩
  · exact .inl (mem_flags.2 (.inl ⟨w, h.watching w hw, hcancel⟩))
  · exact (h.reloading name flag hname).imp_left fun h => mem_flags.2 (.inr ⟨name, h⟩)

/-- A task's watcher and its reload keep two flags. -/
theorem Sound.nodup (h : Sound me task mgr dead out) (hnodup : task.flags.Nodup)
    (hmade : ∀ flag ∈ task.flags, flag < mgr.fresh) : out.next.flags.Nodup := by
  have hboth : ∀ w name flag, out.next.watching = some w → out.next.reloading = some (name, flag) →
      w.cancel ≠ flag := by
    intro w name flag hwatching hreloading heq
    have hw := h.watching w hwatching
    rcases h.reloading name flag hreloading with hflag | ⟨hfresh, -⟩
    · simp [Task.flags, hw, hflag, heq] at hnodup
    · have hlt := hmade w.cancel (mem_flags.2 (.inl ⟨w, hw, rfl⟩))
      exact absurd (heq.trans hfresh) (Nat.ne_of_lt hlt)
  unfold Task.flags
  cases hwatching : out.next.watching with
  | none => cases out.next.reloading <;> simp
  | some w =>
    cases hreloading : out.next.reloading with
    | none => simp
    | some reload => simpa using hboth w reload.1 reload.2 hwatching hreloading

/-- A step of a task keeps the invariant. -/
theorem System.Inv.run (h : s.Inv dead) {i : Nat}
    (htask : s.tasks[i]? = some task) (hsound : Sound i task s.mgr dead out) :
    System.Inv { mgr := out.mgr, tasks := s.tasks.set i out.next ++ out.watcher }
      (bury dead out.event) := by
  obtain ⟨hi, -⟩ := List.getElem?_eq_some_iff.1 htask
  have hmem := mem_of_getElem? htask
  have hcases : ∀ j task', (s.tasks.set i out.next ++ out.watcher)[j]? = some task' → _ :=
    fun j task' => getElem?_stepped hi
  -- The flag of the task's own reload belongs to no other task.
  have hown : ∀ j task', j ≠ i → s.tasks[j]? = some task' → ∀ flag ∈ task'.flags,
      task.reloading.map Prod.snd ≠ some flag := by
    intro j task' hj htask' flag hflag heq
    obtain ⟨⟨name, flag'⟩, hreloading, rfl⟩ := Option.map_eq_some_iff.1 heq
    exact hj (h.apart j i task' task flag' htask' htask hflag
      (mem_flags.2 (.inr ⟨name, hreloading⟩)))
  have hflags : ∀ j task', (s.tasks.set i out.next ++ out.watcher)[j]? = some task' →
      ∀ flag ∈ task'.flags, (∃ t, s.tasks[j]? = some t ∧ flag ∈ t.flags) ∨
        (flag = s.mgr.fresh ∧ out.mgr.fresh = s.mgr.fresh + 1 ∧
          (out.spawned = none ∧ j = i ∨ out.spawned ≠ none ∧ j = s.tasks.length)) := by
    intro j task' htask' flag hflag
    rcases hcases j task' htask' with ⟨rfl, rfl⟩ | ⟨hj, hold⟩ | ⟨w, hspawned, rfl, rfl⟩
    · rcases hsound.flags hflag with hold | ⟨hfresh, hmade, hnone⟩
      · exact .inl ⟨task, htask, hold⟩
      · exact .inr ⟨hfresh, hmade, .inl ⟨hnone, rfl⟩⟩
    · exact .inl ⟨task', hold, hflag⟩
    · obtain ⟨-, hcancel, hmade⟩ := hsound.spawned w hspawned
      have heq : flag = w.cancel := by simpa [Task.flags, Task.watching, Task.reloading] using hflag
      exact .inr ⟨heq.trans hcancel, hmade, .inr ⟨by simp [hspawned], rfl⟩⟩
  refine
    { relies := ?_
      nodup := ?_
      made := ?_
      apart := ?_
      watchers := ?_
      buried := hsound.buried }
  · intro j task' htask'
    rcases hcases j task' htask' with ⟨rfl, rfl⟩ | ⟨hj, hold⟩ | ⟨w, -, rfl, -⟩
    · exact hsound.relies
    · exact hsound.frame.relies hj (hown j task' hj hold) (h.relies j task' hold)
    · trivial
  · intro task' hmem'
    obtain ⟨j, htask'⟩ := mem_iff_getElem?.1 hmem'
    rcases hcases j task' htask' with ⟨rfl, rfl⟩ | ⟨hj, hold⟩ | ⟨w, -, rfl, -⟩
    · exact hsound.nodup (h.nodup task hmem) (h.made task hmem)
    · exact h.nodup task' (mem_of_getElem? hold)
    · simp [Task.flags, Task.watching, Task.reloading]
  · intro task' hmem' flag hflag
    obtain ⟨j, htask'⟩ := mem_iff_getElem?.1 hmem'
    rcases hflags j task' htask' flag hflag with ⟨t, ht, hold⟩ | ⟨rfl, hmade, -⟩
    · exact (h.made t (mem_of_getElem? ht) flag hold).trans_le hsound.frame.fresh
    · show s.mgr.fresh < out.mgr.fresh
      rw [hmade]
      exact Nat.lt_succ_self _
  · intro j k task' task'' flag htask' htask'' hflag hflag'
    have hlt : ∀ (j : Nat) (t : Task N), s.tasks[j]? = some t → flag ∈ t.flags →
        flag < s.mgr.fresh :=
      fun j t ht hmem => h.made t (mem_of_getElem? ht) flag hmem
    rcases hflags j task' htask' flag hflag with ⟨t, ht, hold⟩ | ⟨hfresh, -, hmade⟩
    · rcases hflags k task'' htask'' flag hflag' with ⟨t', ht', hold'⟩ | ⟨hfresh', -⟩
      · exact h.apart j k t t' flag ht ht' hold hold'
      · exact absurd (hlt j t ht hold) (hfresh' ▸ lt_irrefl _)
    · rcases hflags k task'' htask'' flag hflag' with ⟨t', ht', hold'⟩ | ⟨-, -, hmade'⟩
      · exact absurd (hlt k t' ht' hold') (hfresh ▸ lt_irrefl _)
      · rcases hmade with ⟨hnone, rfl⟩ | ⟨hsome, rfl⟩
        · exact (hmade'.resolve_right fun h => h.1 hnone).2.symm
        · exact (hmade'.resolve_left fun h => hsome h.1).2.symm
  · -- Where the flag of a watcher is after the step.
    have hmoved : ∀ w : Watcher N, task.reloading.map Prod.snd ≠ some w.cancel →
        (Reachable s.mgr w.name w.cancel ∨
          ∃ task' ∈ s.tasks, task'.held = some (w.name, w.cancel)) →
        Reachable out.mgr w.name w.cancel ∨ ∃ task' ∈ s.tasks.set i out.next ++ out.watcher,
          task'.held = some (w.name, w.cancel) := by
      intro w hne hwas
      rcases hwas with hreach | ⟨task', hmem', hheld⟩
      · exact .inl (hsound.frame.reachable hreach hne)
      · obtain ⟨j, htask'⟩ := mem_iff_getElem?.1 hmem'
        by_cases hj : j = i
        · subst hj
          rw [htask] at htask'
          cases htask'
          rcases hsound.hands _ _ hheld with hkept | hreach
          · exact .inr ⟨out.next, mem_append_left _ (mem_set hi _), hkept⟩
          · exact .inl hreach
        · refine .inr ⟨task', mem_append_left _ ?_, hheld⟩
          refine mem_of_getElem? (i := j) ?_
          rw [List.getElem?_set_ne (Ne.symm hj)]
          exact htask'
    intro task' hmem' w hw
    obtain ⟨j, htask'⟩ := mem_iff_getElem?.1 hmem'
    rcases hcases j task' htask' with ⟨rfl, rfl⟩ | ⟨hj, hold⟩ | ⟨w', hspawned, rfl, -⟩
    · have hwas := hsound.watching w hw
      refine hmoved w (fun heq => ?_) (h.watchers task hmem w hwas)
      obtain ⟨⟨name, flag⟩, hreloading, hflag⟩ := Option.map_eq_some_iff.1 heq
      have hnodup := h.nodup task hmem
      have hflag' : flag = w.cancel := hflag
      simp [Task.flags, hwas, hreloading, hflag'] at hnodup
    · exact hmoved w (hown j task' hj hold _ (mem_flags.2 (.inl ⟨w, hw, rfl⟩)))
        (h.watchers task' (mem_of_getElem? hold) w hw)
    · obtain rfl : w' = w := Option.some.inj hw
      exact .inr ⟨out.next, mem_append_left _ (mem_set hi _), (hsound.spawned w' hspawned).1⟩

/-- A call adds a task that has done nothing yet. -/
theorem System.Inv.call (h : s.Inv dead) (call : Call N) :
    System.Inv { s with tasks := s.tasks ++ [call.task] } dead := by
  have hnew : call.task.flags = [] ∧ call.task.watching = none ∧
    ∀ i, call.task.Relies i s.mgr dead := by
    cases call <;> simp [Call.task, Task.flags, Task.watching, Task.reloading, Task.Relies,
      Owner.Relies, InstallPc.Relies, ReloadPc.Relies, KillPc.Relies]
  have hcases : ∀ (j : Nat) (task : Task N), (s.tasks ++ [call.task])[j]? = some task →
      s.tasks[j]? = some task ∨ task = call.task := by
    intro j task htask
    by_cases hj : j < s.tasks.length
    · rw [List.getElem?_append_left hj] at htask
      exact .inl htask
    · exact (mem_append.1 (mem_of_getElem? htask)).elim
        (fun hmem => .inr (by
          rw [List.getElem?_append_right (by omega)] at htask
          exact mem_singleton.1 (mem_of_getElem? htask)))
        fun hmem => .inr (mem_singleton.1 hmem)
  refine
    { relies := ?_
      nodup := ?_
      made := ?_
      apart := ?_
      watchers := ?_
      buried := h.buried }
  · intro j task htask
    rcases hcases j task htask with hold | rfl
    · exact h.relies j task hold
    · exact hnew.2.2 j
  · intro task hmem
    rcases mem_append.1 hmem with hold | hmem
    · exact h.nodup task hold
    · rw [mem_singleton.1 hmem, hnew.1]
      exact nodup_nil
  · intro task hmem flag hflag
    rcases mem_append.1 hmem with hold | hmem
    · exact h.made task hold flag hflag
    · rw [mem_singleton.1 hmem, hnew.1] at hflag
      exact absurd hflag not_mem_nil
  · intro i j task task' flag htask htask' hflag hflag'
    rcases hcases i task htask with hold | rfl
    · rcases hcases j task' htask' with hold' | rfl
      · exact h.apart i j task task' flag hold hold' hflag hflag'
      · rw [hnew.1] at hflag'
        exact absurd hflag' not_mem_nil
    · rw [hnew.1] at hflag
      exact absurd hflag not_mem_nil
  · intro task hmem w hw
    rcases mem_append.1 hmem with hold | hmem
    · exact (h.watchers task hold w hw).imp_right fun ⟨task', hmem', hheld⟩ =>
        ⟨task', mem_append_left _ hmem', hheld⟩
    · rw [mem_singleton.1 hmem, hnew.2.1] at hw
      cases hw

/-- One step, and what it may register. -/
theorem System.Inv.step {s' : System N} (h : s.Inv dead) {label : Label N}
    {event : Option (Event N)} (horderly : orderly s label = true)
    (hstep : s.step label = some (s', event)) :
    s'.Inv (bury dead event) ∧ ∀ name origin, event = some (.registered name origin) →
      origin ≠ .user → dead name = false := by
  cases label with
  | call call =>
    cases hstep
    exact ⟨h.call call, by simp⟩
  | run i c =>
    simp only [System.step] at hstep
    split at hstep
    · cases hstep
    · next task htask =>
      obtain ⟨out, hout, heq⟩ := Option.map_eq_some_iff.1 hstep
      cases heq
      have hsound := taskStep_sound h.buried (h.relies i task htask)
        (fun owner source name watch heq => h.alive horderly (heq ▸ htask)) hout
      exact ⟨h.run htask hsound, hsound.safe⟩

theorem inv_reach {events : List (Event N)} (h : Reach orderly s events) :
    s.Inv (deadAfter events) := by
  induction h with
  | new => exact inv_new
  | step _ hallowed hstep ih =>
    rw [deadAfter_append]
    exact (ih.step hallowed hstep).1

/-- In an orderly run no reload and no watcher registers a dead name. -/
theorem alive_of_registered {events : List (Event N)} (h : Reach orderly s events)
    {before after : List (Event N)} {name : N} {origin : By}
    (hevents : events = before ++ .registered name origin :: after) (horigin : origin ≠ .user) :
    deadAfter before name = false := by
  induction h generalizing after with
  | new => simp at hevents
  | @step s s' events label event hreach hallowed hstep ih =>
    cases event with
    | none => exact ih (by simpa using hevents)
    | some event =>
      rcases eq_nil_or_concat after with rfl | ⟨rest, last, rfl⟩
      · obtain ⟨rfl, heq⟩ := append_inj' hevents rfl
        cases heq
        exact ((inv_reach hreach).step hallowed hstep).2 name origin rfl horigin
      · have hsplit : events ++ [event] =
            (before ++ .registered name origin :: rest) ++ [last] := by simpa using hevents
        exact ih (append_inj' hsplit rfl).1

/-- Once a kill of a name has returned, the name is registered by a reload or a watcher only after
an install that a user asked for has registered it. -/
def StaysDead (events : List (Event N)) : Prop :=
  ∀ before between after name origin,
    events = before ++ .killed name :: between ++ .registered name origin :: after →
      origin ≠ .user → .registered name .user ∈ between

/-- A name stays dead until a user asks for it. -/
theorem deadAfter_killed (before : List (Event N)) {between : List (Event N)} {name : N}
    (h : .registered name .user ∉ between) :
    deadAfter (before ++ .killed name :: between) name = true := by
  have hkeeps : ∀ (events : List (Event N)) (dead : N → Bool), .registered name .user ∉ events →
      dead name = true →
        events.foldl (fun dead event => bury dead (some event)) dead name = true := by
    intro events
    induction events with
    | nil => exact fun dead _ hdead => hdead
    | cons event rest ih =>
      intro dead hnot hdead
      rw [mem_cons, not_or] at hnot
      refine ih _ hnot.2 ?_
      cases event with
      | killed name' =>
        show update dead name' true name = true
        by_cases hname : name = name'
        · rw [hname, update_self]
        · rw [update_of_ne hname]
          exact hdead
      | registered name' origin =>
        cases origin with
        | user =>
          have hname : name ≠ name' := by
            rintro rfl
            exact hnot.1 rfl
          show update dead name' false name = true
          rw [update_of_ne hname]
          exact hdead
        | reload => exact hdead
        | watcher => exact hdead
  rw [deadAfter, foldl_append, foldl_cons]
  exact hkeeps between _ h (update_self _ _ _)

/-- A killed plugin stays dead in every orderly run. -/
theorem killed_stays_dead {s : System N} {events : List (Event N)} (h : Reach orderly s events) :
    StaysDead events := by
  intro before between after name origin hevents horigin
  by_contra hnot
  have halive := alive_of_registered h hevents horigin
  rw [deadAfter_killed before hnot] at halive
  cases halive

namespace Sample

def git : Str := "git".toList

/-- A watched plugin is installed. -/
def installed : List (Label Str) :=
  [.call (.install ⟨true, none⟩), .run 0 (.manifest git), .run 0 .ok, .run 0 .ok, .run 0 .ok,
    .run 0 .ok]

/-- It is killed. -/
def killed (task : Nat) : List (Label Str) := [.call (.kill git), .run task .ok, .run task .ok]

/-- A reload took it out, and it is killed before its install goes on. That install arms a watcher
and is refused under the lock; the watcher sees a save and stops. Then the plugin is installed and
reloaded once more. -/
def staysDead : List (Label Str) :=
  installed ++ [.call (.reload git), .run 2 .ok, .run 2 .ok, .run 2 .ok] ++ killed 3 ++
    [.run 2 (.manifest git), .run 2 .ok, .run 2 .ok, .run 2 .ok, .run 4 .ok, .run 2 .ok, .run 4 .ok,
      .run 2 .ok, .run 2 .ok] ++
    [.call (.install ⟨false, none⟩), .run 5 (.manifest git), .run 5 .ok, .run 5 .ok, .run 5 .ok] ++
    [.call (.reload git), .run 6 .ok, .run 6 .ok, .run 6 .ok, .run 6 (.manifest git), .run 6 .ok,
      .run 6 .ok, .run 6 .ok]

theorem stays_dead_reloaded :
    ∃ (s : System Str) (events : List (Event Str)),
      follow orderly .new [] staysDead = some (s, events) ∧
        events = [.registered git .user, .killed git, .registered git .user,
          .registered git .reload] ∧ StaysDead events := by
  have hfollow : (follow orderly .new [] staysDead).map Prod.snd =
      some [.registered git .user, .killed git, .registered git .user,
        .registered git .reload] := by
    decide
  obtain ⟨⟨s, events⟩, hrun, hevents⟩ := Option.map_eq_some_iff.1 hfollow
  exact ⟨s, events, hrun, hevents, killed_stays_dead (Reach.follow .new hrun)⟩

/-- The plugin is reloaded, and its new watcher armed. The file is saved, and that watcher looks
for the plugin. The plugin is killed, and the watcher installs it. -/
def comesBack : List (Label Str) :=
  installed ++
    [.call (.reload git), .run 2 .ok, .run 2 .ok, .run 2 .ok, .run 2 (.manifest git), .run 2 .ok,
      .run 3 .ok, .run 3 .ok, .run 3 .ok] ++
    killed 4 ++ [.run 3 (.manifest git), .run 3 .ok, .run 3 .ok, .run 3 .ok, .run 3 .ok]

theorem comes_back :
    ¬ ∀ (s : System Str) (events : List (Event Str)),
      Reach (fun _ _ => true) s events → StaysDead events := by
  intro hclaim
  have hfollow : (follow (fun _ _ => true) .new [] comesBack).map Prod.snd =
      some [.registered git .user, .killed git, .registered git .watcher] := by decide
  obtain ⟨⟨s, events⟩, hrun, rfl⟩ := Option.map_eq_some_iff.1 hfollow
  have hmem := hclaim s _ (Reach.follow .new hrun) [.registered git .user] [] [] git .watcher rfl
    (by decide)
  exact not_mem_nil hmem

end Sample

end Shux.Plugin.Registry
