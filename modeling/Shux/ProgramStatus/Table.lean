/-
# The status table of a terminal

The records of one terminal, kept in no particular order. A report replaces the record it
names or adds one; at the cap the record least recently reported makes room. Clearing a path
removes its subtree, and a new prompt or an exit removes what does not outlive a process.
Readers get the records most urgent first, and a summary that leads with the first of them.
-/

import Shux.ProgramStatus.Model

namespace Shux.ProgramStatus

/-- How much a state needs the user. -/
def urgency : State → Nat
  | .blocked => 4
  | .error => 3
  | .done => 2
  | .working => 1
  | .idle => 0

/-- Smallest first: most urgent, then the root record, then the most recently changed. -/
def orderKey (state : State) (isRoot : Bool) (updated : Nat) : ℕᵒᵈ ×ₗ Bool ×ₗ ℕᵒᵈ :=
  toLex (OrderDual.toDual (urgency state), toLex (!isRoot, OrderDual.toDual updated))

/-- One stored record as readers see it, with its inherited app. -/
structure RecordView where
  id : Option RecordId
  state : State
  kind : Option Kind
  progress : Option UInt8
  app : Option String
  title : Option String
  msg : Option String
  /-- The stamp of the last report naming the record. -/
  reportedGeneration : Nat
  /-- The stamp of the last report that put the record in each state. -/
  reportedIn : State → Nat

/-- Largest sixteen-bit count. -/
def u16Max : Nat := 2 ^ 16 - 1

/-- Records per state. -/
structure StateCounts where
  idle : Nat
  working : Nat
  done : Nat
  blocked : Nat
  error : Nat
deriving Repr, DecidableEq

namespace StateCounts

def zero : StateCounts := ⟨0, 0, 0, 0, 0⟩

/-- The count of one state. -/
def of (counts : StateCounts) : State → Nat
  | .idle => counts.idle
  | .working => counts.working
  | .done => counts.done
  | .blocked => counts.blocked
  | .error => counts.error

def add (counts : StateCounts) : State → StateCounts
  | .idle => { counts with idle := min (counts.idle + 1) u16Max }
  | .working => { counts with working := min (counts.working + 1) u16Max }
  | .done => { counts with done := min (counts.done + 1) u16Max }
  | .blocked => { counts with blocked := min (counts.blocked + 1) u16Max }
  | .error => { counts with error := min (counts.error + 1) u16Max }

theorem of_zero (state : State) : zero.of state = 0 := by cases state <;> rfl

theorem of_add (counts : StateCounts) (state other : State) :
    (counts.add state).of other =
      if state = other then min (counts.of other + 1) u16Max else counts.of other := by
  cases state <;> cases other <;> rfl

end StateCounts

/-- The most urgent record of a terminal, without its texts, and the counts. -/
structure StatusSummary where
  state : State
  kind : Option Kind
  progress : Option UInt8
  app : Option String
  id : Option RecordId
  counts : StateCounts
deriving DecidableEq

/-- A stored record. -/
structure Entry where
  id : Option RecordId
  record : Record
  /-- Last report naming this record; drives eviction. -/
  reported : Nat
  /-- Last time the content changed; drives display order. -/
  updated : Nat
  stamp : Nat
  stampIn : State → Nat

/-- An entry after a report that names it. -/
def Entry.report (e : Entry) (record : Record) (seq stamp : Nat) : Entry where
  id := e.id
  record := record
  reported := seq
  updated := if e.record = record then e.updated else seq
  stamp := stamp
  stampIn := Function.update e.stampIn record.state stamp

def Entry.orderKey (e : Entry) : ℕᵒᵈ ×ₗ Bool ×ₗ ℕᵒᵈ :=
  ProgramStatus.orderKey e.record.state e.id.isNone e.updated

/-- One terminal's records. -/
structure StatusTable where
  entries : List Entry
  seq : Nat
  revision : Nat

/-- Remove an element by moving the last one into its place. -/
def swapRemove {α : Type} (l : List α) (i : Nat) : List α :=
  match l.getLast? with
  | some last => (l.set i last).dropLast
  | none => l

namespace StatusTable

def new : StatusTable := ⟨[], 0, 0⟩

def retain (t : StatusTable) (keep : Entry → Bool) : StatusTable where
  entries := t.entries.filter keep
  seq := t.seq
  revision :=
    if (t.entries.filter keep).length ≠ t.entries.length then t.revision + 1 else t.revision

/-- Where the entry least recently reported stands. -/
def oldest (t : StatusTable) : Option Nat :=
  (t.entries.zipIdx.argmin fun e => e.1.reported).map Prod.snd

/-- The entries with room for one more. -/
def evict (t : StatusTable) : List Entry :=
  if maxRecords ≤ t.entries.length then
    match t.oldest with
    | some i => swapRemove t.entries i
    | none => t.entries
  else t.entries

def set (t : StatusTable) (id : Option RecordId) (record : Record) (stamp : Nat) : StatusTable :=
  let seq := t.seq + 1
  match t.entries.find? fun e => e.id == id with
  | some e =>
    -- The entry found is updated in place.
    { entries := t.entries.replaceF fun x =>
        if x.id == id then some (x.report record seq stamp) else none
      seq := seq
      revision := if e.record = record then t.revision else t.revision + 1 }
  | none =>
    { entries := t.evict ++
        [⟨id, record, seq, seq, stamp, Function.update (fun _ => 0) record.state stamp⟩]
      seq := seq
      revision := t.revision + 1 }

def apply (t : StatusTable) (report : Report) (stamp : Nat) : StatusTable :=
  match report with
  | .set id record => t.set id record stamp
  | .clear none => t.retain fun _ => false
  | .clear (some id) => t.retain fun e => !(e.id.any fun eid => eid.isWithin id)

/-- A new shell prompt began. -/
def onPromptStart (t : StatusTable) : StatusTable := t.retain fun e => e.record.state.survivesExit

/-- The process of the terminal exited. -/
def onProcessExit (t : StatusTable) : StatusTable := t.retain fun e => e.record.state.survivesExit

/-- The terminal was reset. -/
def onFullReset (t : StatusTable) : StatusTable := t.retain fun _ => false

/-- The app stored for an id. -/
def storedApp (t : StatusTable) (id : Option RecordId) : Option String :=
  (t.entries.find? fun e => e.id == id).bind fun e => e.record.app

/-- The first app from an ancestor outwards; the root is searched last. -/
def searchApp (t : StatusTable) (ancestor : Option RecordId) : Option String :=
  match t.storedApp ancestor with
  | some app => some app
  | none =>
    match ancestor with
    | none => none
    | some id => t.searchApp id.parent
termination_by (ancestor.map fun id => id.segments.length).getD 0
decreasing_by
  cases hparent : id.parent with
  | none => exact List.length_pos_iff.mpr id.segments_ne_nil
  | some p =>
    obtain ⟨segment, hsegments⟩ := RecordId.segments_parent hparent
    simp [hsegments]

def effectiveApp (t : StatusTable) (e : Entry) : Option String :=
  match e.record.app with
  | some app => some app
  | none =>
    match e.id with
    | none => none
    | some id => t.searchApp id.parent

def view (t : StatusTable) (e : Entry) : RecordView where
  id := e.id
  state := e.record.state
  kind := e.record.kind
  progress := e.record.progress
  app := t.effectiveApp e
  title := e.record.title
  msg := e.record.msg
  reportedGeneration := e.stamp
  reportedIn := e.stampIn

/-- Every record, most urgent first. -/
def records (t : StatusTable) : List RecordView :=
  (t.entries.mergeSort fun e e' => decide (e.orderKey ≤ e'.orderKey)).map t.view

/-- The most urgent record and the counts; none without records. -/
def summary (t : StatusTable) : Option StatusSummary :=
  (t.entries.argmin Entry.orderKey).map fun top =>
    { state := top.record.state
      kind := top.record.kind
      progress := top.record.progress
      app := t.effectiveApp top
      id := top.id
      counts := t.entries.foldl (fun counts e => counts.add e.record.state) StateCounts.zero }

/-- What happens to a table. -/
inductive Op where
  | report (report : Report) (stamp : Nat)
  | promptStart
  | processExit
  | fullReset

def step (t : StatusTable) : Op → StatusTable
  | .report report stamp => t.apply report stamp
  | .promptStart => t.onPromptStart
  | .processExit => t.onProcessExit
  | .fullReset => t.onFullReset

/-- A table after some operations, from the empty one. -/
def run (ops : List Op) : StatusTable := ops.foldl step new

end StatusTable

end Shux.ProgramStatus
