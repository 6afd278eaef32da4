/-
# Generations of what terminals publish

Every terminal of the process publishes a summary of its status table, whether it has been
reported to, and whether status is on for it. A publication carries a generation, drawn from
one counter of the whole process whenever something that is published changes. Readers keep
the newest publication, so a change under an old generation would be lost.

A table that keeps its revision also keeps its summary, so a terminal that keeps its
generation publishes the same. Whatever happens in the process, each terminal either
publishes what it did or has drawn a generation past the counter, and no two terminals have
the same one.
-/

import Shux.ProgramStatus.Codec
import Shux.ProgramStatus.Table

namespace Shux.ProgramStatus

/-- Entries that differ only in when they were reported. -/
structure Entry.Same (e e' : Entry) : Prop where
  id : e.id = e'.id
  record : e.record = e'.record
  updated : e.updated = e'.updated

theorem Entry.Same.refl (e : Entry) : e.Same e := ⟨rfl, rfl, rfl⟩

theorem Entry.Same.orderKey {e e' : Entry} (h : e.Same e') : e.orderKey = e'.orderKey := by
  unfold Entry.orderKey
  rw [h.id, h.record, h.updated]

/-- Repeating what is stored changes only when it was reported. -/
theorem Entry.same_report (e : Entry) (seq stamp : Nat) : e.Same (e.report e.record seq stamp) :=
  ⟨rfl, rfl, (if_pos rfl).symm⟩

namespace StatusTable

/-- Tables with the same records. -/
def Same (t t' : StatusTable) : Prop := List.Forall₂ Entry.Same t.entries t'.entries

theorem same_of_entries {t t' : StatusTable} (h : t.entries = t'.entries) : t.Same t' := by
  unfold Same
  rw [h]
  exact List.forall₂_same.mpr fun e _ => Entry.Same.refl e

theorem retain_same {t : StatusTable} {keep : Entry → Bool}
    (h : (t.retain keep).revision = t.revision) : t.Same (t.retain keep) := by
  unfold retain at h
  dsimp only at h
  split at h
  · exact absurd h (Nat.succ_ne_self _)
  · next hlength =>
    exact same_of_entries (List.filter_eq_self.mpr
      (List.length_filter_eq_length_iff.mp (not_not.mp hlength))).symm

theorem forall₂_replaceF {α : Type} {R : α → α → Prop} (hrefl : ∀ a, R a a) {p : α → Bool}
    {f : α → α} {l : List α} {a : α} (h : l.find? p = some a) (ha : R a (f a)) :
    List.Forall₂ R l (l.replaceF fun x => if p x then some (f x) else none) := by
  induction l with
  | nil => cases h
  | cons x l ih =>
    rw [List.find?_cons] at h
    cases hp : p x with
    | true =>
      rw [hp] at h
      obtain rfl := Option.some.inj h
      rw [List.replaceF_cons, hp]
      exact .cons ha (List.forall₂_same.mpr fun a _ => hrefl a)
    | false =>
      rw [hp] at h
      rw [List.replaceF_cons, hp]
      exact .cons (hrefl x) (ih h)

theorem set_same {t : StatusTable} {id : Option RecordId} {record : Record} {stamp : Nat}
    (h : (t.set id record stamp).revision = t.revision) : t.Same (t.set id record stamp) := by
  unfold set at h ⊢
  cases hfind : t.entries.find? (fun e => e.id == id) with
  | none =>
    rw [hfind] at h
    exact absurd h (Nat.succ_ne_self _)
  | some e =>
    rw [hfind] at h
    dsimp only at h ⊢
    split at h
    · next hrecord =>
      refine forall₂_replaceF Entry.Same.refl hfind ?_
      rw [← hrecord]
      exact e.same_report _ _
    · exact absurd h (Nat.succ_ne_self _)

/-- A table that keeps its revision keeps its records. -/
theorem step_same {t : StatusTable} (op : Op) (h : (t.step op).revision = t.revision) :
    t.Same (t.step op) := by
  cases op with
  | report report stamp =>
    cases report with
    | set id record => exact set_same h
    | clear id =>
      cases id with
      | none | some id => exact retain_same h
  | promptStart | processExit | fullReset => exact retain_same h

namespace Same

variable {t t' : StatusTable}

theorem find? {l l' : List Entry} (h : List.Forall₂ Entry.Same l l') (id : Option RecordId) :
    (l.find? fun e => e.id == id).bind (fun e => e.record.app) =
      (l'.find? fun e => e.id == id).bind fun e => e.record.app := by
  induction h with
  | nil => rfl
  | @cons e e' l l' hsame _ ih =>
    rw [List.find?_cons, List.find?_cons, hsame.id]
    cases e'.id == id with
    | true => exact congrArg Record.app hsame.record
    | false => exact ih

theorem storedApp (h : t.Same t') (id : Option RecordId) : t.storedApp id = t'.storedApp id :=
  find? h id

theorem searchApp (h : t.Same t') (id : Option RecordId) : t.searchApp id = t'.searchApp id := by
  induction id using StatusTable.searchApp.induct t with
  | case1 id app hstored | case2 hstored =>
    rw [searchApp.eq_def, searchApp.eq_def, ← h.storedApp, hstored]
  | case3 id hstored ih =>
    rw [searchApp.eq_def, searchApp.eq_def, ← h.storedApp, hstored]
    exact ih

theorem effectiveApp (h : t.Same t') {e e' : Entry} (he : e.Same e') :
    t.effectiveApp e = t'.effectiveApp e' := by
  unfold StatusTable.effectiveApp
  rw [he.record, he.id]
  simp only [h.searchApp]

/-- The least of related lists are related. -/
theorem argmin {l l' : List Entry} (h : List.Forall₂ Entry.Same l l') (o o' : Option Entry)
    (ho : Option.Rel Entry.Same o o') :
    Option.Rel Entry.Same (l.foldl (List.argAux fun b c => b.orderKey < c.orderKey) o)
      (l'.foldl (List.argAux fun b c => b.orderKey < c.orderKey) o') := by
  induction h generalizing o o' with
  | nil => exact ho
  | @cons e e' l l' hsame _ ih =>
    refine ih _ _ ?_
    cases ho with
    | none => exact .some hsame
    | @some a a' ha =>
      show Option.Rel Entry.Same (if e.orderKey < a.orderKey then some e else some a)
        (if e'.orderKey < a'.orderKey then some e' else some a')
      rw [hsame.orderKey, ha.orderKey]
      split
      · exact .some hsame
      · exact .some ha

theorem counts {l l' : List Entry} (h : List.Forall₂ Entry.Same l l') (c : StateCounts) :
    l.foldl (fun counts e => counts.add e.record.state) c =
      l'.foldl (fun counts e => counts.add e.record.state) c := by
  induction h generalizing c with
  | nil => rfl
  | cons hsame _ ih =>
    rw [List.foldl_cons, List.foldl_cons, hsame.record]
    exact ih _

theorem summary (h : t.Same t') : t.summary = t'.summary := by
  have htop : Option.Rel Entry.Same (t.entries.argmin Entry.orderKey)
      (t'.entries.argmin Entry.orderKey) := argmin h none none .none
  unfold StatusTable.summary
  rw [counts h]
  generalize t.entries.argmin Entry.orderKey = top at htop ⊢
  generalize t'.entries.argmin Entry.orderKey = top' at htop ⊢
  cases htop with
  | none => rfl
  | some hsame => simp only [Option.map_some, hsame.record, hsame.id, h.effectiveApp hsame]

end Same

end StatusTable

/-- What is forwarded to the session graph. -/
structure StatusPublication where
  generation : Nat
  summary : Option StatusSummary
  /-- The terminal has received a report since its last reset. -/
  seen : Bool
  /-- Status is on for the terminal. -/
  enabled : Bool
deriving DecidableEq

/-- Status of one enabled terminal. -/
structure VtProgramStatus where
  table : StatusTable
  seen : Bool
  generation : Nat

/-- The reply to a query, mirroring its terminator. -/
def queryReply (terminator : List UInt8) : List UInt8 :=
  [0x1b, 0x5d] ++ utf8 "7501;" ++
    utf8 "?:states=idle,working,done,blocked,error:kinds=permission,question,auth" ++ terminator

namespace VtProgramStatus

variable [Base64Engine]

/-- The status of a terminal just enabled, and the counter. -/
def new (counter : Nat) : VtProgramStatus × Nat := (⟨.new, false, counter + 1⟩, counter + 1)

def publication (ps : VtProgramStatus) : StatusPublication :=
  ⟨ps.generation, ps.table.summary, ps.seen, true⟩

/-- Change the table, and draw a generation if anything observable changed. -/
def change (ps : VtProgramStatus) (counter : Nat) (op : StatusTable.Op) (seen : Bool) :
    VtProgramStatus × Nat :=
  if (ps.table.step op).revision ≠ ps.table.revision ∨ seen ≠ ps.seen then
    (⟨ps.table.step op, seen, counter + 1⟩, counter + 1)
  else (⟨ps.table.step op, seen, ps.generation⟩, counter)

/-- A finished payload; the reply to a query comes last. -/
def onReport (ps : VtProgramStatus) (counter : Nat) (payload terminator : List UInt8) :
    VtProgramStatus × Nat × Option (List UInt8) :=
  match decode payload with
  | .ok .query => (ps, counter, some (queryReply terminator))
  | .ok (.report report) =>
    -- The report takes a stamp of its own before the change draws one.
    let (ps, counter) := ps.change (counter + 1) (.report report (counter + 1)) true
    (ps, counter, none)
  | .error _ => (ps, counter, none)

def onPromptStart (ps : VtProgramStatus) (counter : Nat) : VtProgramStatus × Nat :=
  ps.change counter .promptStart ps.seen

def onProcessExit (ps : VtProgramStatus) (counter : Nat) : VtProgramStatus × Nat :=
  ps.change counter .processExit ps.seen

def onFullReset (ps : VtProgramStatus) (counter : Nat) : VtProgramStatus × Nat :=
  ps.change counter .fullReset false

end VtProgramStatus

/-- The status of a terminal: its records while status is on, and the generation of its
publications while it is off. -/
structure StatusTerminal where
  programStatus : Option VtProgramStatus
  statusDisabledGeneration : Nat

/-- What happens to a terminal. -/
inductive TerminalEvent where
  /-- A finished status string, and whether a bell ended it. -/
  | report (payload : List UInt8) (bel : Bool)
  | promptStart
  | processExit
  | fullReset
  | setEnabled (enabled : Bool)

namespace StatusTerminal

variable [Base64Engine]

/-- A new terminal has status off. -/
def new (counter : Nat) : StatusTerminal × Nat := (⟨none, counter + 1⟩, counter + 1)

def setProgramStatusEnabled (t : StatusTerminal) (counter : Nat) (enabled : Bool) :
    StatusTerminal × Nat :=
  match enabled, t.programStatus with
  | true, none =>
    let (ps, counter) := VtProgramStatus.new counter
    ({ t with programStatus := some ps }, counter)
  -- Turning off draws a generation, also when it is off.
  | false, _ => (⟨none, counter + 1⟩, counter + 1)
  | true, some _ => (t, counter)

def programStatusPublication (t : StatusTerminal) : StatusPublication :=
  match t.programStatus with
  | some ps => ps.publication
  | none => ⟨t.statusDisabledGeneration, none, false, false⟩

/-- Act on the status while it is on. -/
def onStatus (t : StatusTerminal) (counter : Nat)
    (f : VtProgramStatus → Nat → VtProgramStatus × Nat) : StatusTerminal × Nat :=
  match t.programStatus with
  | some ps => ({ t with programStatus := some (f ps counter).1 }, (f ps counter).2)
  | none => (t, counter)

def handle (t : StatusTerminal) (counter : Nat) : TerminalEvent → StatusTerminal × Nat
  | .report payload bel =>
    t.onStatus counter fun ps counter =>
      let terminator := if bel then [0x07] else [0x1b, 0x5c]
      ((ps.onReport counter payload terminator).1, (ps.onReport counter payload terminator).2.1)
  | .promptStart => t.onStatus counter VtProgramStatus.onPromptStart
  | .processExit => t.onStatus counter VtProgramStatus.onProcessExit
  | .fullReset => t.onStatus counter VtProgramStatus.onFullReset
  | .setEnabled enabled => t.setProgramStatusEnabled counter enabled

end StatusTerminal

/-- All terminals there have been, and the counter they draw from. -/
structure Process where
  counter : Nat
  terminals : List StatusTerminal

/-- What happens in the process. Replacing a terminal makes a new one. -/
inductive ProcessEvent where
  | create
  | terminal (i : Nat) (event : TerminalEvent)
  /-- A command boundary takes a stamp. -/
  | stamp

namespace Process

variable [Base64Engine]

def initial : Process := ⟨0, []⟩

def step (p : Process) : ProcessEvent → Process
  | .create =>
    let (t, counter) := StatusTerminal.new p.counter
    ⟨counter, p.terminals ++ [t]⟩
  | .terminal i event =>
    match p.terminals[i]? with
    | some t => ⟨(t.handle p.counter event).2, p.terminals.set i (t.handle p.counter event).1⟩
    | none => p
  | .stamp => { p with counter := p.counter + 1 }

def run (p : Process) (events : List ProcessEvent) : Process := events.foldl step p

/-- What a terminal publishes, once it exists. -/
def publication (p : Process) (i : Nat) : Option StatusPublication :=
  p.terminals[i]?.map StatusTerminal.programStatusPublication

/-- What a publication shows. -/
def shown (p : Process) (i : Nat) : Option (Option StatusSummary × Bool × Bool) :=
  (p.publication i).map fun publication =>
    (publication.summary, publication.seen, publication.enabled)

end Process

section Terminal

variable [Base64Engine]

/-- What a terminal publishes is kept, or carries a generation drawn meanwhile. -/
def Renews (counter : Nat) (p : StatusPublication) (counter' : Nat) (p' : StatusPublication) :
    Prop :=
  counter ≤ counter' ∧ (p' = p ∨ counter < p'.generation ∧ p'.generation ≤ counter')

omit [Base64Engine] in
theorem renews_change (ps : VtProgramStatus) (counter : Nat) (op : StatusTable.Op) (seen : Bool) :
    Renews counter ps.publication (ps.change counter op seen).2
      (ps.change counter op seen).1.publication := by
  unfold VtProgramStatus.change
  split
  · exact ⟨Nat.le_succ _, Or.inr ⟨Nat.lt_succ_self _, Nat.le_refl _⟩⟩
  · next hsame =>
    push Not at hsame
    refine ⟨Nat.le_refl _, Or.inl ?_⟩
    unfold VtProgramStatus.publication
    dsimp only
    rw [← (StatusTable.step_same op hsame.1).summary, hsame.2]

theorem renews_onReport (ps : VtProgramStatus) (counter : Nat) (payload terminator : List UInt8) :
    Renews counter ps.publication (ps.onReport counter payload terminator).2.1
      (ps.onReport counter payload terminator).1.publication := by
  unfold VtProgramStatus.onReport
  split
  · exact ⟨Nat.le_refl _, Or.inl rfl⟩
  · next report _ =>
    obtain ⟨hle, hrenews⟩ := renews_change ps (counter + 1) (.report report (counter + 1)) true
    exact ⟨Nat.le_of_succ_le hle, hrenews.imp_right fun h => ⟨Nat.lt_of_succ_lt h.1, h.2⟩⟩
  · exact ⟨Nat.le_refl _, Or.inl rfl⟩

namespace StatusTerminal

omit [Base64Engine] in
theorem renews_onStatus (t : StatusTerminal) (counter : Nat)
    {f : VtProgramStatus → Nat → VtProgramStatus × Nat}
    (hf : ∀ ps, Renews counter ps.publication (f ps counter).2 (f ps counter).1.publication) :
    Renews counter t.programStatusPublication (t.onStatus counter f).2
      (t.onStatus counter f).1.programStatusPublication := by
  unfold onStatus
  split
  · next ps hps =>
    unfold programStatusPublication
    rw [hps]
    exact hf ps
  · exact ⟨Nat.le_refl _, Or.inl rfl⟩

theorem renews_handle (t : StatusTerminal) (counter : Nat) (event : TerminalEvent) :
    Renews counter t.programStatusPublication (t.handle counter event).2
      (t.handle counter event).1.programStatusPublication := by
  cases event with
  | report payload bel => exact t.renews_onStatus counter fun ps => renews_onReport ps _ _ _
  | promptStart | processExit | fullReset =>
    exact t.renews_onStatus counter fun ps => renews_change ps _ _ _
  | setEnabled enabled =>
    show Renews counter t.programStatusPublication
      (t.setProgramStatusEnabled counter enabled).2
      (t.setProgramStatusEnabled counter enabled).1.programStatusPublication
    unfold setProgramStatusEnabled
    split
    · exact ⟨Nat.le_succ _, Or.inr ⟨Nat.lt_succ_self _, Nat.le_refl _⟩⟩
    · exact ⟨Nat.le_succ _, Or.inr ⟨Nat.lt_succ_self _, Nat.le_refl _⟩⟩
    · exact ⟨Nat.le_refl _, Or.inl rfl⟩

end StatusTerminal

end Terminal

namespace Process

variable {p : Process}

/-- Generations in use: drawn already, and each by one terminal. -/
structure Sound (p : Process) : Prop where
  bound : ∀ i publication, p.publication i = some publication → publication.generation ≤ p.counter
  distinct : ∀ i j q q', p.publication i = some q → p.publication j = some q' →
    q.generation = q'.generation → i = j

/-- From one state to a later one: a terminal publishes what it did, or under a generation
drawn since. -/
structure Leads (p p' : Process) : Prop where
  counter : p.counter ≤ p'.counter
  renews : ∀ i q, p'.publication i = some q → p.publication i = some q ∨ p.counter < q.generation

theorem Leads.refl (p : Process) : p.Leads p := ⟨Nat.le_refl _, fun _ _ h => Or.inl h⟩

theorem Leads.trans {p' p'' : Process} (h : p.Leads p') (h' : p'.Leads p'') : p.Leads p'' where
  counter := Nat.le_trans h.counter h'.counter
  renews := fun i q hq => by
    rcases h'.renews i q hq with hq | hlt
    · exact h.renews i q hq
    · exact Or.inr (Nat.lt_of_le_of_lt h.counter hlt)

/-- A step in which one terminal draws, or none does. -/
theorem Sound.of_step {p' : Process} (h : p.Sound) (hcounter : p.counter ≤ p'.counter) (k : Nat)
    (hother : ∀ i, i ≠ k → p'.publication i = p.publication i)
    (hk : ∀ q, p'.publication k = some q → p.publication k = some q ∨
      p.counter < q.generation ∧ q.generation ≤ p'.counter) : p'.Sound ∧ p.Leads p' := by
  have hrenews : ∀ i q, p'.publication i = some q → p.publication i = some q ∨
      i = k ∧ p.counter < q.generation ∧ q.generation ≤ p'.counter := by
    intro i q hq
    by_cases hi : i = k
    · subst hi
      exact (hk q hq).imp_right fun h => ⟨rfl, h⟩
    · rw [hother i hi] at hq
      exact Or.inl hq
  refine ⟨⟨fun i q hq => ?_, fun i j q q' hq hq' heq => ?_⟩,
    hcounter, fun i q hq => (hrenews i q hq).imp_right fun h => h.2.1⟩
  · rcases hrenews i q hq with hq | ⟨-, -, hle⟩
    · exact Nat.le_trans (h.bound i q hq) hcounter
    · exact hle
  · rcases hrenews i q hq with hold | ⟨rfl, hlt, -⟩ <;>
      rcases hrenews j q' hq' with hold' | ⟨rfl, hlt', -⟩
    · exact h.distinct i j q q' hold hold' heq
    · have := h.bound i q hold
      omega
    · have := h.bound j q' hold'
      omega
    · rfl

variable [Base64Engine]

theorem Sound.step (h : p.Sound) (event : ProcessEvent) :
    (p.step event).Sound ∧ p.Leads (p.step event) := by
  cases event with
  | create =>
    refine h.of_step (Nat.le_succ _) p.terminals.length (fun i hi => ?_) fun q hq => Or.inr ?_
    · unfold publication Process.step
      rcases Nat.lt_or_gt_of_ne hi with hlt | hgt
      · rw [List.getElem?_append_left hlt]
      · rw [List.getElem?_eq_none (by rw [List.length_append, List.length_singleton]; omega),
          List.getElem?_eq_none (Nat.le_of_lt hgt)]
    · unfold publication Process.step at hq
      rw [List.getElem?_concat_length] at hq
      obtain rfl := Option.some.inj hq
      exact ⟨Nat.lt_succ_self _, Nat.le_refl _⟩
  | terminal k event =>
    unfold Process.step
    dsimp only
    cases ht : p.terminals[k]? with
    | none => exact ⟨h, .refl p⟩
    | some t =>
      obtain ⟨hle, hrenews⟩ := t.renews_handle p.counter event
      have hk : k < p.terminals.length := (List.getElem?_eq_some_iff.mp ht).1
      refine h.of_step hle k (fun i hi => ?_) fun q hq => ?_
      · unfold publication
        dsimp only
        rw [List.getElem?_set_ne (Ne.symm hi)]
      · unfold publication at hq ⊢
        dsimp only at hq
        rw [List.getElem?_set_self hk] at hq
        obtain rfl := Option.some.inj hq
        rw [ht]
        exact hrenews.imp_left fun heq => congrArg some heq.symm
  | stamp => exact h.of_step (Nat.le_succ _) 0 (fun _ _ => rfl) fun q hq => Or.inl hq

theorem Sound.run (h : p.Sound) (events : List ProcessEvent) :
    (p.run events).Sound ∧ p.Leads (p.run events) := by
  induction events generalizing p with
  | nil => exact ⟨h, .refl p⟩
  | cons event events ih =>
    obtain ⟨hsound, hleads⟩ := h.step event
    obtain ⟨hsound', hleads'⟩ := ih hsound
    exact ⟨hsound', hleads.trans hleads'⟩

omit [Base64Engine] in
theorem sound_initial : initial.Sound := ⟨fun _ _ h => (by cases h), fun _ _ _ _ h => (by cases h)⟩

theorem run_append (p : Process) (events events' : List ProcessEvent) :
    p.run (events ++ events') = (p.run events).run events' := List.foldl_append

/-- In every run of the process: two publications of one generation are equal, and a
publication taken after a change to what its terminal shows has a greater generation than
every publication taken before that change, of any terminal. -/
theorem publication_generations (first second third : List ProcessEvent) (i j : Nat)
    (q q' : StatusPublication) (hq : (initial.run first).publication i = some q)
    (hq' : (initial.run (first ++ second ++ third)).publication j = some q') :
    (q.generation = q'.generation → q = q') ∧
      ((initial.run (first ++ second)).shown j ≠
          (initial.run (first ++ second ++ third)).shown j →
        q.generation < q'.generation) := by
  obtain ⟨hsound, -⟩ := sound_initial.run first
  obtain ⟨hsound₂, hleads₂⟩ := hsound.run second
  obtain ⟨-, hleads₃⟩ := hsound₂.run third
  rw [run_append, run_append] at hq' ⊢
  rw [run_append]
  have hle := hsound.bound i q hq
  refine ⟨fun heq => ?_, fun hshown => ?_⟩
  · rcases (hleads₂.trans hleads₃).renews j q' hq' with hold | hlt
    · obtain rfl := hsound.distinct i j q q' hq hold heq
      exact Option.some.inj (hq.symm.trans hold)
    · omega
  · rcases hleads₃.renews j q' hq' with hold | hlt
    · refine absurd ?_ hshown
      unfold shown
      rw [hold, hq']
    · exact Nat.lt_of_le_of_lt (Nat.le_trans hle hleads₂.counter) hlt

omit [Base64Engine] in
/-- A report on a terminal just enabled. -/
theorem publication_generations_report :
    ∃ q q' : StatusPublication,
      (@run standardEngine initial [.create, .terminal 0 (.setEnabled true)]).publication 0 =
        some q ∧
      (@run standardEngine initial [.create, .terminal 0 (.setEnabled true),
        .terminal 0 (.report (utf8 "state=working") true)]).publication 0 = some q' ∧
      q.generation < q'.generation := by
  let _ := standardEngine
  refine ⟨⟨2, none, false, true⟩,
    ⟨4, some ⟨.working, none, none, none, none, ⟨0, 1, 0, 0, 0⟩⟩, true, true⟩, by decide,
    by decide, ?_⟩
  exact (publication_generations [.create, .terminal 0 (.setEnabled true)] []
    [.terminal 0 (.report (utf8 "state=working") true)] 0 0 _ _ (by decide)
    (by decide)).2 (by decide)

end Process

end Shux.ProgramStatus
