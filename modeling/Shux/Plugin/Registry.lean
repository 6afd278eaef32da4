/-
# Plugins that come and go

The plugin manager keeps the running plugins by name behind one lock. A plugin may be watched: a
save of its file reloads it, and a save after a failed reload installs it again. Between its
removal and its return a plugin is on no list but that of the pending ones.

What an unfinished reload or a watcher may still do is stopped by flags. Every reload has one and
every watcher has one. A flag is handed from one owner to the next: the task that makes it, the
entry of the running plugin, the list of pending ones. A kill raises the flags it finds.

The calls and the watchers are tasks. A task takes one step at a time, in any order, and holds the
lock over several of its steps. Processes, files and permissions are left to chance: each step is
told what happened.
-/

import Shux.Lib.FinMap

namespace Shux.Plugin.Registry

/-- A stop flag, by number. -/
abbrev Flag := Nat

variable {N : Type}

structure PluginSource (N : Type) where
  watch : Bool
  /-- The name a package says its plugin reports. -/
  expectedName : Option N
  deriving DecidableEq

structure Running (N : Type) where
  source : PluginSource N
  watchCancel : Option Flag
  deriving DecidableEq

structure Manager (N : Type) where
  inner : FinMap N (Running N)
  pending : FinMap N Flag
  stopping : Bool
  /-- The flags that are set. -/
  raised : List Flag
  /-- The next flag to be made. -/
  fresh : Flag
  /-- The task that holds the lock of `inner`. -/
  lock : Option Nat

namespace Manager

def new : Manager N := ⟨∅, ∅, false, [], 0, none⟩

def raise (mgr : Manager N) (flag : Option Flag) : Manager N :=
  { mgr with raised := flag.toList ++ mgr.raised }

variable [DecidableEq N]

/-- Mark a name pending, stopping whatever was pending. -/
def setPending (mgr : Manager N) (name : N) (killed : Flag) : Manager N :=
  { mgr.raise (mgr.pending.get name) with pending := mgr.pending.insert name killed }

/-- Stop whatever is pending for a name. -/
def takePending (mgr : Manager N) (name : N) : Manager N :=
  { mgr.raise (mgr.pending.get name) with pending := mgr.pending.remove name }

/-- Take a running plugin out and stop its watcher. -/
def unregister (mgr : Manager N) (name : N) (running : Running N) : Manager N :=
  { mgr.raise running.watchCancel with inner := mgr.inner.remove name }

end Manager

/-- What triggers a reload on every save. -/
structure Watcher (N : Type) where
  name : N
  source : PluginSource N
  cancel : Flag
  deriving DecidableEq

/-- Who asked for an install: a caller, a reload with its flag, or a watcher. A reload is called
or triggered by a watcher. -/
inductive Owner (N : Type) where
  | user
  | reload (trigger : Option (Watcher N)) (name : N) (killed : Flag)
  | watcher (w : Watcher N)
  deriving DecidableEq

/-- How far an install is. The watcher of a plugin is armed before the plugin registers. -/
inductive InstallPc (N : Type) where
  | handshake
  | arming (name : N) (cancel : Flag)
  /-- For the lock. -/
  | waiting (name : N) (watch : Option Flag)
  | deciding (name : N) (watch : Option Flag)
  | registering (name : N) (watch : Option Flag)
  /-- The lock is free again, and the watcher not yet stopped. -/
  | refused (name : N) (watch : Option Flag)
  deriving DecidableEq

inductive ReloadPc (N : Type) where
  | start
  | marking (source : PluginSource N) (killed : Flag)
  | settling (source : PluginSource N) (killed : Flag)
  | failed (source : PluginSource N) (killed : Flag)
  | rearming (killed : Flag) (cancel : Flag)
  | publishing (killed : Flag) (watcher : Option Flag)
  deriving DecidableEq

inductive WatchPc where
  | idle
  /-- A save was seen. -/
  | debouncing
  | looking
  deriving DecidableEq

inductive KillPc where
  | start
  | removing (pending : Bool)
  | stopping
  deriving DecidableEq

inductive ShutdownPc where
  | start
  | draining
  deriving DecidableEq

inductive Task (N : Type) where
  | install (owner : Owner N) (source : PluginSource N) (pc : InstallPc N)
  | reload (trigger : Option (Watcher N)) (name : N) (pc : ReloadPc N)
  | watcher (w : Watcher N) (pc : WatchPc)
  | kill (name : N) (pc : KillPc)
  | shutdown (pc : ShutdownPc)
  | done
  deriving DecidableEq

/-- What a step is told of the world. -/
inductive Chance (N : Type) where
  | ok
  /-- No manifest, no watch, no grants, no more saves. -/
  | fail
  | manifest (name : N)
  deriving DecidableEq

inductive By where
  | user
  | reload
  | watcher
  deriving DecidableEq

inductive Event (N : Type) where
  | registered (name : N) (origin : By)
  /-- `kill` has returned `Ok`. -/
  | killed (name : N)
  deriving DecidableEq

def Owner.origin : Owner N → By
  | user => .user
  | reload .. => .reload
  | watcher _ => .watcher

/-- The flag that refuses an install. -/
def Owner.killed : Owner N → Option Flag
  | user => none
  | reload _ _ killed => some killed
  | watcher w => some w.cancel

/-- What goes on after a reload. -/
def resume : Option (Watcher N) → Task N
  | none => .done
  | some w => .watcher w .idle

/-- What goes on after an install. -/
def Owner.returned (owner : Owner N) (source : PluginSource N) (ok : Bool) : Task N :=
  match owner with
  | user => .done
  | reload trigger name killed =>
    if ok then resume trigger else .reload trigger name (.failed source killed)
  | watcher w => .watcher w .idle

/-- What a step of a task leaves. -/
structure Stepped (N : Type) where
  mgr : Manager N
  next : Task N
  spawned : Option (Watcher N)
  event : Option (Event N)

/-- A step that arms no watcher and reports nothing. -/
def goOn (mgr : Manager N) (next : Task N) : Option (Stepped N) := some ⟨mgr, next, none, none⟩

/-- Make a watcher's flag and start the watcher. -/
def spawnReloadWatcher (mgr : Manager N) (name : N) (source : PluginSource N)
    (next : Flag → Task N) : Option (Stepped N) :=
  some
    { mgr := { mgr with fresh := mgr.fresh + 1 }
      next := next mgr.fresh
      spawned := some ⟨name, source, mgr.fresh⟩
      event := none }

variable [DecidableEq N]

/-- Whether an install that holds the lock may not register. -/
def Manager.refuses (mgr : Manager N) (owner : Owner N) (name : N) (c : Chance N) : Bool :=
  mgr.stopping || owner.killed.any (fun flag => decide (flag ∈ mgr.raised)) ||
    mgr.inner.contains name || decide (c = .fail)

/-- A step of `install_unless`. -/
def installStep (me : Nat) (c : Chance N) (mgr : Manager N) (owner : Owner N)
    (source : PluginSource N) : InstallPc N → Option (Stepped N)
  | .handshake =>
    match c with
    | .ok => none
    | .fail => goOn mgr (owner.returned source false)
    | .manifest name =>
      if source.expectedName.any fun expected => decide (name ≠ expected) then
        goOn mgr (owner.returned source false)
      else if source.watch then
        spawnReloadWatcher mgr name source fun cancel => .install owner source (.arming name cancel)
      else goOn mgr (.install owner source (.waiting name none))
  | .arming name cancel =>
    match c with
    | .ok => goOn mgr (.install owner source (.waiting name (some cancel)))
    | .fail => goOn (mgr.raise (some cancel)) (.install owner source (.waiting name none))
    | .manifest _ => none
  | .waiting name watch =>
    if mgr.lock = none then
      goOn { mgr with lock := some me } (.install owner source (.deciding name watch))
    else none
  | .deciding name watch =>
    if mgr.refuses owner name c then
      goOn { mgr with lock := none } (.install owner source (.refused name watch))
    else goOn mgr (.install owner source (.registering name watch))
  | .registering name watch =>
    let taken := mgr.takePending name
    some
      { mgr := { taken with inner := taken.inner.insert name ⟨source, watch⟩, lock := none }
        next := owner.returned source true
        spawned := none
        event := some (.registered name owner.origin) }
  | .refused _ watch => goOn (mgr.raise watch) (owner.returned source false)

/-- Publish the watcher of a failed reload, unless something took the reload's place. -/
def publish (mgr : Manager N) (name : N) (killed : Flag) (watcher : Option Flag) : Manager N :=
  let stillOurs := decide (mgr.pending.get name = some killed)
  match watcher, stillOurs with
  | some cancel, true => { mgr with pending := mgr.pending.insert name cancel }
  | some cancel, false => mgr.raise (some cancel)
  | none, true => { mgr with pending := mgr.pending.remove name }
  | none, false => mgr

/-- A step of `reload`, apart from those of its install. -/
def reloadStep (me : Nat) (c : Chance N) (mgr : Manager N) (trigger : Option (Watcher N))
    (name : N) : ReloadPc N → Option (Stepped N)
  | .start =>
    if mgr.lock = none then
      match mgr.inner.get name with
      | none => goOn mgr (resume trigger)
      | some running =>
        goOn { mgr.unregister name running with lock := some me, fresh := mgr.fresh + 1 }
          (.reload trigger name (.marking running.source mgr.fresh))
    else none
  | .marking source killed =>
    goOn { mgr.setPending name killed with lock := none }
      (.reload trigger name (.settling source killed))
  | .settling source killed => goOn mgr (.install (.reload trigger name killed) source .handshake)
  | .failed source killed =>
    if source.watch && decide (killed ∉ mgr.raised) then
      spawnReloadWatcher mgr name source fun cancel =>
        .reload trigger name (.rearming killed cancel)
    else goOn mgr (.reload trigger name (.publishing killed none))
  | .rearming killed cancel =>
    match c with
    | .ok => goOn mgr (.reload trigger name (.publishing killed (some cancel)))
    | .fail => goOn (mgr.raise (some cancel)) (.reload trigger name (.publishing killed none))
    | .manifest _ => none
  | .publishing killed watcher => goOn (publish mgr name killed watcher) (resume trigger)

/-- A step of the debouncer of a watcher. -/
def watchStep (c : Chance N) (mgr : Manager N) (w : Watcher N) : WatchPc → Option (Stepped N)
  | .idle =>
    match c with
    | .ok => goOn mgr (.watcher w .debouncing)
    | .fail => goOn mgr .done
    | .manifest _ => none
  | .debouncing =>
    if decide (w.cancel ∈ mgr.raised) || mgr.stopping then goOn mgr .done
    else goOn mgr (.watcher w .looking)
  | .looking =>
    if mgr.lock = none then
      if mgr.inner.contains w.name then goOn mgr (.reload (some w) w.name .start)
      else goOn mgr (.install (.watcher w) w.source .handshake)
    else none

/-- A step of `kill`. -/
def killStep (me : Nat) (mgr : Manager N) (name : N) : KillPc → Option (Stepped N)
  | .start =>
    if mgr.lock = none then
      goOn { mgr.takePending name with lock := some me }
        (.kill name (.removing (mgr.pending.contains name)))
    else none
  | .removing pending =>
    match mgr.inner.get name with
    | none =>
      some ⟨{ mgr with lock := none }, .done, none, if pending then some (.killed name) else none⟩
    | some running => goOn (mgr.unregister name running) (.kill name .stopping)
  | .stopping => some ⟨{ mgr with lock := none }, .done, none, some (.killed name)⟩

/-- A step of `shutdown`. -/
def shutdownStep (me : Nat) (mgr : Manager N) : ShutdownPc → Option (Stepped N)
  | .start =>
    if mgr.lock = none then
      goOn { mgr with stopping := true, lock := some me } (.shutdown .draining)
    else none
  | .draining =>
    goOn
      { mgr with
        inner := ∅
        raised := mgr.inner.values.filterMap Running.watchCancel ++ mgr.raised
        lock := none }
      .done

def taskStep (me : Nat) (c : Chance N) (mgr : Manager N) : Task N → Option (Stepped N)
  | .install owner source pc => installStep me c mgr owner source pc
  | .reload trigger name pc => reloadStep me c mgr trigger name pc
  | .watcher w pc => watchStep c mgr w pc
  | .kill name pc => killStep me mgr name pc
  | .shutdown pc => shutdownStep me mgr pc
  | .done => none

/-- A call of the manager. -/
inductive Call (N : Type) where
  | install (source : PluginSource N)
  | reload (name : N)
  | kill (name : N)
  | shutdown
  deriving DecidableEq

def Call.task : Call N → Task N
  | install source => .install .user source .handshake
  | reload name => .reload none name .start
  | kill name => .kill name .start
  | shutdown => .shutdown .start

structure System (N : Type) where
  mgr : Manager N
  tasks : List (Task N)

def System.new : System N := ⟨.new, []⟩

/-- A call is made, or a task takes a step. -/
inductive Label (N : Type) where
  | call (call : Call N)
  | run (task : Nat) (c : Chance N)
  deriving DecidableEq

/-- The watcher of a step, as a task. -/
def Stepped.watcher (out : Stepped N) : List (Task N) :=
  (out.spawned.map fun w => Task.watcher w .idle).toList

def System.step (s : System N) : Label N → Option (System N × Option (Event N))
  | .call call => some ({ s with tasks := s.tasks ++ [call.task] }, none)
  | .run i c =>
    match s.tasks[i]? with
    | none => none
    | some task =>
      (taskStep i c s.mgr task).map fun out =>
        ({ mgr := out.mgr, tasks := s.tasks.set i out.next ++ out.watcher }, out.event)

/-- The states that steps of a kind lead to, with the events on the way. -/
inductive Reach (allowed : System N → Label N → Bool) : System N → List (Event N) → Prop
  | new : Reach allowed .new []
  | step {s s' : System N} {events : List (Event N)} {label : Label N}
      {event : Option (Event N)} (h : Reach allowed s events) (hallowed : allowed s label = true)
      (hstep : s.step label = some (s', event)) : Reach allowed s' (events ++ event.toList)

/-- Take the given steps, one after the other. -/
def follow (allowed : System N → Label N → Bool) (s : System N) (events : List (Event N)) :
    List (Label N) → Option (System N × List (Event N))
  | [] => some (s, events)
  | label :: rest =>
    if allowed s label then
      match s.step label with
      | none => none
      | some (s', event) => follow allowed s' (events ++ event.toList) rest
    else none

theorem Reach.follow {allowed : System N → Label N → Bool} {s s' : System N}
    {events events' : List (Event N)} {labels : List (Label N)} (h : Reach allowed s events)
    (hfollow : follow allowed s events labels = some (s', events')) : Reach allowed s' events' := by
  induction labels generalizing s events with
  | nil =>
    cases hfollow
    exact h
  | cons label rest ih =>
    rw [Registry.follow] at hfollow
    split at hfollow
    · next hallowed =>
      split at hfollow
      · cases hfollow
      · next s'' event hstep => exact ih (h.step hallowed hstep) hfollow
    · cases hfollow

end Shux.Plugin.Registry
