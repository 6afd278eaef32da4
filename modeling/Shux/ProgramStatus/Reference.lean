/-
# The table keeps a map of latest records

What a status table is for, said without its storage: a map from ids, the root included, to
the latest record of each. The map has rules of its own for every operation. A report puts
its record under its id; an id that is new when the map is full displaces the one that was
reported longest ago. Clearing a path removes the ids whose segments it begins. Prompts and
exits keep what outlives a process.

The table follows these rules step by step, and its revision moves exactly when the map
holds other records than before.
-/

import Shux.Lib.FinMap
import Shux.ProgramStatus.Table

namespace Shux.ProgramStatus

open List FinMap

/-- What is known of one id. -/
structure Slot where
  record : Record
  /-- When it was last reported. -/
  reported : Nat
  /-- When its record last became another one. -/
  updated : Nat
  stamp : Nat
  stampIn : State → Nat

/-- What the map keeps of an entry. -/
def Entry.slot (e : Entry) : Slot := ⟨e.record, e.reported, e.updated, e.stamp, e.stampIn⟩

/-- Whether the record outlives its process: it is done, or failed. -/
def Slot.outlives (slot : Slot) : Bool := slot.record.state == .done || slot.record.state == .error

/-- The latest record of each id, and the number of reports so far. -/
structure Reference where
  slots : FinMap (Option RecordId) Slot
  seq : Nat

namespace Reference

def empty : Reference := ⟨∅, 0⟩

/-- What is known of an id after one more report. -/
def latest (known : Option Slot) (record : Record) (seq stamp : Nat) : Slot where
  record := record
  reported := seq
  updated :=
    match known with
    | some slot => if slot.record = record then slot.updated else seq
    | none => seq
  stamp := stamp
  stampIn := Function.update ((known.map Slot.stampIn).getD fun _ => 0) record.state stamp

/-- Put a reported record under its id. -/
def put (m : Reference) (id : Option RecordId) (record : Record) (stamp : Nat) : Reference where
  slots := m.slots.insert id (latest (m.slots.get id) record (m.seq + 1) stamp)
  seq := m.seq + 1

/-- An id was reported longer ago than every other. -/
def Oldest (m : Reference) (victim : Option RecordId) : Prop :=
  ∃ slot, m.slots.get victim = some slot ∧
    ∀ k s, m.slots.get k = some s → k ≠ victim → slot.reported < s.reported

/-- Whether an id is a path or lies beneath it. -/
def beneath (path : RecordId) : Option RecordId → Bool
  | none => false
  | some id => path.segments.isPrefixOf id.segments

/-- What an operation does to the map. -/
inductive Step (m : Reference) : StatusTable.Op → Reference → Prop
  | known {id : Option RecordId} {record : Record} {stamp : Nat}
      (h : m.slots.contains id = true) :
      Step m (.report (.set id record) stamp) (m.put id record stamp)
  | fresh {id : Option RecordId} {record : Record} {stamp : Nat}
      (h : m.slots.contains id = false) (room : m.slots.size < maxRecords) :
      Step m (.report (.set id record) stamp) (m.put id record stamp)
  | evict {id : Option RecordId} {record : Record} {stamp : Nat} {victim : Option RecordId}
      (h : m.slots.contains id = false) (full : m.slots.size = maxRecords)
      (oldest : m.Oldest victim) :
      Step m (.report (.set id record) stamp)
        (({ m with slots := m.slots.remove victim } : Reference).put id record stamp)
  | clearAll {stamp : Nat} : Step m (.report (.clear none) stamp) { m with slots := ∅ }
  | clear {path : RecordId} {stamp : Nat} :
      Step m (.report (.clear (some path)) stamp)
        { m with slots := m.slots.retain fun k _ => !beneath path k }
  | promptStart : Step m .promptStart { m with slots := m.slots.retain fun _ s => s.outlives }
  | processExit : Step m .processExit { m with slots := m.slots.retain fun _ s => s.outlives }
  | fullReset : Step m .fullReset { m with slots := ∅ }

/-- The maps some operations lead to, from the empty one. -/
inductive Run : List StatusTable.Op → Reference → Prop
  | nil : Run [] empty
  | snoc {ops : List StatusTable.Op} {op : StatusTable.Op} {m m' : Reference}
      (run : Run ops m) (step : Step m op m') : Run (ops ++ [op]) m'

/-- The record stored under an id. -/
def content (m : Reference) (id : Option RecordId) : Option Record :=
  (m.slots.get id).map Slot.record

/-- The app stored under an id. -/
def app (m : Reference) (id : Option RecordId) : Option String :=
  (m.slots.get id).bind fun s => s.record.app

/-- An id is another or one of its ancestors, of which the root is the outermost. -/
def Encloses : Option RecordId → Option RecordId → Prop
  | none, _ => True
  | some _, none => False
  | some outer, some inner => outer.segments <+: inner.segments

/-- The app shown for an id: the one stored nearest, from the id outwards. -/
def ShowsApp (m : Reference) (id : Option RecordId) : Option String → Prop
  | some app => ∃ source, Encloses source id ∧ m.app source = some app ∧
      ∀ other, Encloses other id → m.app other ≠ none → Encloses other source
  | none => ∀ other, Encloses other id → m.app other = none

/-- One record is listed before another: more urgent, then the root, then changed later. -/
def Precedes (a b : Option RecordId × Slot) : Prop :=
  urgency b.2.record.state < urgency a.2.record.state ∨
    urgency b.2.record.state = urgency a.2.record.state ∧
      (a.1 = none ∧ b.1 ≠ none ∨ (a.1 = none ↔ b.1 = none) ∧ b.2.updated < a.2.updated)

/-- A list has every entry of the map once, in the order readers see them. -/
structure Lists (m : Reference) (order : List (Option RecordId × Slot)) : Prop where
  sorted : order.Pairwise Precedes
  complete : ∀ id slot, (id, slot) ∈ order ↔ m.slots.get id = some slot

/-- A reader's view of an entry of the map. -/
structure Displays (m : Reference) (entry : Option RecordId × Slot) (view : RecordView) :
    Prop where
  id : view.id = entry.1
  state : view.state = entry.2.record.state
  kind : view.kind = entry.2.record.kind
  progress : view.progress = entry.2.record.progress
  app : m.ShowsApp entry.1 view.app
  title : view.title = entry.2.record.title
  msg : view.msg = entry.2.record.msg
  reportedGeneration : view.reportedGeneration = entry.2.stamp
  reportedIn : view.reportedIn = entry.2.stampIn

/-- A summary of the entries in order: its first one, and how many there are in each state. -/
structure Summarizes (m : Reference) (order : List (Option RecordId × Slot))
    (summary : StatusSummary) : Prop where
  top : ∃ entry rest, order = entry :: rest ∧ summary.id = entry.1 ∧
    summary.state = entry.2.record.state ∧ summary.kind = entry.2.record.kind ∧
    summary.progress = entry.2.record.progress ∧ m.ShowsApp entry.1 summary.app
  counts : ∀ state, summary.counts.of state =
    order.countP fun entry => entry.2.record.state == state

end Reference

namespace StatusTable

/-- A table is the map, and shows its readers what the map says. -/
structure Refines (t : StatusTable) (m : Reference) : Prop where
  /-- The table holds each entry of the map, and nothing else. -/
  holds : ∀ id slot, m.slots.get id = some slot ↔ ∃ e ∈ t.entries, e.id = id ∧ slot = e.slot
  /-- Each id has one entry. -/
  nodup : (t.entries.map Entry.id).Nodup
  cap : t.entries.length ≤ maxRecords
  /-- Records and summary come from one listing of the map. -/
  shows : ∃ order, m.Lists order ∧ List.Forall₂ (fun view entry => m.Displays entry view)
      t.records order ∧
    match t.summary with
    | none => order = []
    | some summary => m.Summarizes order summary

end StatusTable

theorem perm_swapRemove {α : Type} {l : List α} {i : Nat} (h : i < l.length) :
    l[i] :: swapRemove l i ~ l := by
  obtain ⟨init, last, rfl⟩ : ∃ init last, l = init ++ [last] :=
    ⟨_, _, (dropLast_append_getLast (ne_nil_of_length_pos (Nat.zero_lt_of_lt h))).symm⟩
  unfold swapRemove
  rw [List.getLast?_concat]
  dsimp only
  rcases Nat.lt_or_ge i init.length with hi | hi
  · rw [set_append_left _ _ hi, dropLast_concat, getElem_append_left hi]
    calc init[i] :: init.set i last
        ~ init[i] :: last :: init.eraseIdx i := (set_perm_cons_eraseIdx hi last).cons _
      _ ~ last :: init[i] :: init.eraseIdx i := List.Perm.swap _ _ _
      _ ~ last :: init := (getElem_cons_eraseIdx_perm hi).cons _
      _ ~ init ++ [last] := (perm_append_singleton _ _).symm
  · obtain rfl : i = init.length := by
      rw [length_append, length_singleton] at h
      omega
    rw [set_append_right _ _ hi, Nat.sub_self, set_cons_zero, dropLast_concat,
      getElem_append_right hi, getElem_singleton]
    exact (perm_append_singleton _ _).symm

/-- The first element that is replaced. -/
theorem replaceF_append_cons {α : Type} {f : α → Option α} {front back : List α} {a a' : α}
    (hfront : ∀ x ∈ front, f x = none) (h : f a = some a') :
    (front ++ a :: back).replaceF f = front ++ a' :: back := by
  induction front with
  | nil => rw [nil_append, replaceF_cons_of_some f h, nil_append]
  | cons x front ih =>
    rw [cons_append, replaceF_cons_of_none f (hfront x mem_cons_self),
      ih fun y hy => hfront y (mem_cons_of_mem _ hy), cons_append]

/-- Ids and times of the entries of a table: no two have the same, and no time is yet to
come. -/
structure Sound (entries : List Entry) (seq : Nat) : Prop where
  ids : (entries.map Entry.id).Nodup
  reported : (entries.map Entry.reported).Nodup
  updated : (entries.map Entry.updated).Nodup
  bound : ∀ e ∈ entries, e.reported ≤ seq ∧ e.updated ≤ seq

namespace Sound

variable {entries entries' : List Entry} {seq : Nat}

theorem perm (h : Sound entries seq) (hperm : entries ~ entries') : Sound entries' seq where
  ids := (hperm.map Entry.id).nodup_iff.mp h.ids
  reported := (hperm.map Entry.reported).nodup_iff.mp h.reported
  updated := (hperm.map Entry.updated).nodup_iff.mp h.updated
  bound := fun e he => h.bound e (hperm.mem_iff.mpr he)

theorem sublist (h : Sound entries seq) (hsub : entries'.Sublist entries) : Sound entries' seq where
  ids := h.ids.sublist (hsub.map Entry.id)
  reported := h.reported.sublist (hsub.map Entry.reported)
  updated := h.updated.sublist (hsub.map Entry.updated)
  bound := fun e he => h.bound e (hsub.subset he)

/-- One more entry, reported now and under an id of its own, updated now or earlier than
any other. -/
theorem cons (h : Sound entries seq) {e : Entry} (hid : e.id ∉ entries.map Entry.id)
    (hreported : e.reported = seq + 1) (hupdated : e.updated ∉ entries.map Entry.updated)
    (hle : e.updated ≤ seq + 1) : Sound (e :: entries) (seq + 1) where
  ids := nodup_cons.mpr ⟨hid, h.ids⟩
  reported := by
    refine nodup_cons.mpr ⟨fun hmem => ?_, h.reported⟩
    obtain ⟨other, hother, heq⟩ := mem_map.mp hmem
    have := (h.bound other hother).1
    omega
  updated := nodup_cons.mpr ⟨hupdated, h.updated⟩
  bound := by
    intro other hother
    rcases mem_cons.mp hother with rfl | hother
    · exact ⟨Nat.le_of_eq hreported, hle⟩
    · have := h.bound other hother
      omega

/-- No entry was updated in the future. -/
theorem not_mem_updated (h : Sound entries seq) : seq + 1 ∉ entries.map Entry.updated := by
  intro hmem
  obtain ⟨other, hother, heq⟩ := mem_map.mp hmem
  have := (h.bound other hother).2
  omega

end Sound

namespace StatusTable

variable {t : StatusTable}

/-- The entry that makes room is older than every one that stays. -/
theorem evict_of_full (h : Sound t.entries t.seq) (hfull : maxRecords ≤ t.entries.length) :
    ∃ victim, victim :: t.evict ~ t.entries ∧ ∀ e ∈ t.evict, victim.reported < e.reported := by
  have hne : t.entries.zipIdx ≠ [] := by
    intro hnil
    rw [zipIdx_eq_nil_iff.mp hnil] at hfull
    cases hfull
  obtain ⟨⟨victim, i⟩, hmin⟩ : ∃ e, t.entries.zipIdx.argmin (fun e => e.1.reported) = some e :=
    Option.ne_none_iff_exists'.mp fun hnone => hne (argmin_eq_none.mp hnone)
  obtain ⟨hi, hvictim⟩ := mk_mem_zipIdx_iff_getElem?.mp (argmin_mem hmin) |>
    List.getElem?_eq_some_iff.mp
  have hevict : t.evict = swapRemove t.entries i := by
    unfold evict oldest
    rw [if_pos hfull, hmin]
    rfl
  have hperm : victim :: t.evict ~ t.entries := by
    rw [hevict, ← hvictim]
    exact perm_swapRemove hi
  refine ⟨victim, hperm, fun e he => ?_⟩
  have hmem : e ∈ t.entries := hperm.mem_iff.mp (mem_cons_of_mem _ he)
  obtain ⟨j, hj⟩ := mem_iff_getElem?.mp hmem
  have hle : victim.reported ≤ e.reported :=
    le_of_mem_argmin (f := fun e : Entry × Nat => e.1.reported)
      (mk_mem_zipIdx_iff_getElem?.mpr hj) hmin
  have hnotMem : victim.reported ∉ t.evict.map Entry.reported :=
    (nodup_cons.mp ((hperm.map Entry.reported).nodup_iff.mpr h.reported)).1
  exact Nat.lt_of_le_of_ne hle fun heq => hnotMem (mem_map.mpr ⟨e, he, heq.symm⟩)

theorem evict_of_room (h : t.entries.length < maxRecords) : t.evict = t.entries :=
  if_neg (Nat.not_le.mpr h)

/-- A report on a known id replaces its entry. -/
theorem set_of_known {id : Option RecordId} {e : Entry}
    (h : t.entries.find? (fun e => e.id == id) = some e) (record : Record) (stamp : Nat) :
    ∃ rest, e.id = id ∧ t.entries ~ e :: rest ∧
      (t.set id record stamp).entries ~ e.report record (t.seq + 1) stamp :: rest := by
  obtain ⟨hid, front, back, heq, hfront⟩ := List.find?_eq_some_iff_append.mp h
  obtain rfl : e.id = id := eq_of_beq hid
  have hentries : (t.set e.id record stamp).entries =
      front ++ e.report record (t.seq + 1) stamp :: back := by
    unfold set
    rw [h]
    show t.entries.replaceF _ = _
    rw [heq]
    refine replaceF_append_cons (fun x hx => if_neg ?_) (if_pos hid)
    simpa using hfront x hx
  refine ⟨front ++ back, rfl, ?_, ?_⟩
  · rw [heq]
    exact perm_middle
  · rw [hentries]
    exact perm_middle

end StatusTable

/-- The slots of a map are those of the entries. -/
def Holds (entries : List Entry) (slots : FinMap (Option RecordId) Slot) : Prop :=
  ∀ id slot, slots.get id = some slot ↔ ∃ e ∈ entries, e.id = id ∧ slot = e.slot

namespace Holds

variable {entries rest : List Entry} {slots : FinMap (Option RecordId) Slot} {e : Entry}

theorem perm {entries' : List Entry} (h : Holds entries slots) (hperm : entries ~ entries') :
    Holds entries' slots := fun id slot => by
  rw [h id slot]
  exact exists_congr fun e => and_congr_left fun _ => hperm.mem_iff

theorem get_of_mem (h : Holds entries slots) (he : e ∈ entries) :
    slots.get e.id = some e.slot := (h e.id e.slot).mpr ⟨e, he, rfl, rfl⟩

theorem get_eq_none_iff (h : Holds entries slots) (id : Option RecordId) :
    slots.get id = none ↔ id ∉ entries.map Entry.id := by
  rw [mem_map, Option.eq_none_iff_forall_ne_some]
  constructor
  · rintro hne ⟨e, he, rfl⟩
    exact hne _ (h.get_of_mem he)
  · rintro hnone slot hslot
    obtain ⟨e, he, hid, -⟩ := (h id slot).mp hslot
    exact hnone ⟨e, he, hid⟩

/-- Put one entry in front of those of the other ids. -/
theorem insert (hother : ∀ id, id ≠ e.id → ∀ slot, slots.get id = some slot ↔
      ∃ x ∈ rest, x.id = id ∧ slot = x.slot)
    (hid : e.id ∉ rest.map Entry.id) : Holds (e :: rest) (slots.insert e.id e.slot) := by
  intro id slot
  rw [get_insert]
  split
  · next heq =>
    constructor
    · intro h
      exact ⟨e, mem_cons_self, heq.symm, (Option.some.inj h).symm⟩
    · rintro ⟨x, hx, hxid, rfl⟩
      rcases mem_cons.mp hx with rfl | hx
      · rfl
      · exact absurd (mem_map.mpr ⟨x, hx, hxid.trans heq⟩) hid
  · next hne =>
    rw [hother id hne slot]
    constructor
    · rintro ⟨x, hx, hxid, hslot⟩
      exact ⟨x, mem_cons_of_mem _ hx, hxid, hslot⟩
    · rintro ⟨x, hx, hxid, hslot⟩
      rcases mem_cons.mp hx with rfl | hx
      · exact absurd hxid.symm hne
      · exact ⟨x, hx, hxid, hslot⟩

/-- Away from its first entry the map is that of the rest. -/
theorem tail (h : Holds (e :: rest) slots) {id : Option RecordId} (hne : id ≠ e.id) (slot : Slot) :
    slots.get id = some slot ↔ ∃ x ∈ rest, x.id = id ∧ slot = x.slot := by
  rw [h id slot]
  constructor
  · rintro ⟨x, hx, hxid, hslot⟩
    rcases mem_cons.mp hx with rfl | hx
    · exact absurd hxid.symm hne
    · exact ⟨x, hx, hxid, hslot⟩
  · rintro ⟨x, hx, hxid, hslot⟩
    exact ⟨x, mem_cons_of_mem _ hx, hxid, hslot⟩

theorem remove (h : Holds (e :: rest) slots) (hid : e.id ∉ rest.map Entry.id) :
    Holds rest (slots.remove e.id) := by
  intro id slot
  rw [get_remove]
  split
  · next heq =>
    constructor
    · intro hnone
      cases hnone
    · rintro ⟨x, hx, hxid, -⟩
      exact absurd (mem_map.mpr ⟨x, hx, hxid.trans heq⟩) hid
  · next hne => exact h.tail hne slot

theorem retain (h : Holds entries slots) {keep : Entry → Bool}
    {keep' : Option RecordId → Slot → Bool} (hkeep : ∀ e ∈ entries, keep e = keep' e.id e.slot) :
    Holds (entries.filter keep) (slots.retain keep') := by
  intro id slot
  rw [get_retain, Option.filter_eq_some_iff, h id slot]
  constructor
  · rintro ⟨⟨e, he, rfl, rfl⟩, hkept⟩
    exact ⟨e, mem_filter.mpr ⟨he, (hkeep e he).trans hkept⟩, rfl, rfl⟩
  · rintro ⟨e, he, rfl, rfl⟩
    obtain ⟨hmem, hkept⟩ := mem_filter.mp he
    exact ⟨⟨e, hmem, rfl, rfl⟩, (hkeep e hmem).symm.trans hkept⟩

theorem size (h : Holds entries slots) (hids : (entries.map Entry.id).Nodup) :
    slots.size = entries.length := by
  rw [size_eq_length_keys, ← length_map Entry.id]
  refine ((perm_ext_iff_of_nodup slots.keys_nodup hids).mpr fun id => ?_).length_eq
  rw [mem_keys_iff, mem_map]
  constructor
  · rintro ⟨slot, hslot⟩
    obtain ⟨e, he, hid, -⟩ := (h id slot).mp hslot
    exact ⟨e, he, hid⟩
  · rintro ⟨e, he, rfl⟩
    exact ⟨e.slot, h.get_of_mem he⟩

end Holds

namespace StatusTable

/-- A table and the map it follows. -/
structure Tracks (t : StatusTable) (m : Reference) : Prop where
  seq : m.seq = t.seq
  sound : Sound t.entries t.seq
  holds : Holds t.entries m.slots
  cap : t.entries.length ≤ maxRecords

/-- The revision moves exactly when the map holds other records. -/
def Moves (t t' : StatusTable) (m m' : Reference) : Prop :=
  t.revision ≤ t'.revision ∧ (t.revision < t'.revision ↔ ∃ id, m'.content id ≠ m.content id)

/-- Operations of a table are steps of the map it follows. -/
def Follows (t t' : StatusTable) (m : Reference) (op : Op) : Prop :=
  ∃ m', m.Step op m' ∧ t'.Tracks m' ∧ Moves t t' m m'

namespace Tracks

variable {t : StatusTable} {m : Reference}
variable {id : Option RecordId}

theorem new : StatusTable.new.Tracks .empty where
  seq := rfl
  sound := ⟨nodup_nil, nodup_nil, nodup_nil, fun e he => by cases he⟩
  holds := fun id slot => by
    constructor
    · intro h
      cases h
    · rintro ⟨e, he, -⟩
      cases he
  cap := Nat.zero_le _

section

variable (h : t.Tracks m)
include h

theorem contains_iff (id : Option RecordId) :
    m.slots.contains id = true ↔ id ∈ t.entries.map Entry.id := by
  rw [← Bool.not_eq_false, contains_eq_false_iff, h.holds.get_eq_none_iff, not_not]

/-- Keeping some entries is keeping their slots. -/
theorem retain {keep : Entry → Bool} {keep' : Option RecordId → Slot → Bool}
    (hkeep : ∀ e ∈ t.entries, keep e = keep' e.id e.slot) :
    (t.retain keep).Tracks { m with slots := m.slots.retain keep' } ∧
      Moves t (t.retain keep) m { m with slots := m.slots.retain keep' } := by
  refine ⟨⟨h.seq, h.sound.sublist filter_sublist, h.holds.retain hkeep,
    Nat.le_trans (length_filter_le _ _) h.cap⟩, ?_⟩
  unfold Moves Reference.content StatusTable.retain
  dsimp only
  split
  · next hlen =>
    refine ⟨Nat.le_succ _, fun _ => ?_, fun _ => Nat.lt_succ_self _⟩
    obtain ⟨e, he, hdrop⟩ : ∃ e ∈ t.entries, keep e ≠ true := by
      by_contra hall
      push Not at hall
      exact hlen (by rw [filter_eq_self.mpr hall])
    refine ⟨e.id, ?_⟩
    rw [get_retain, h.holds.get_of_mem he, Option.filter_some, if_neg (hkeep e he ▸ hdrop)]
    exact fun hnone => by cases hnone
  · next hlen =>
    refine ⟨Nat.le_refl _, fun hlt => absurd hlt (Nat.lt_irrefl _), ?_⟩
    rintro ⟨id, hne⟩
    have hall : ∀ e ∈ t.entries, keep e = true := length_filter_eq_length_iff.mp (not_not.mp hlen)
    refine absurd ?_ hne
    rw [get_retain]
    cases hget : m.slots.get id with
    | none => rfl
    | some slot =>
      obtain ⟨e, he, rfl, rfl⟩ := (h.holds id slot).mp hget
      rw [Option.filter_some, if_pos ((hkeep e he).symm.trans (hall e he))]

/-- Dropping everything. -/
theorem clear : (t.retain fun _ => false).Tracks { m with slots := ∅ } ∧
      Moves t (t.retain fun _ => false) m { m with slots := ∅ } := by
  let m₁ : Reference := { m with slots := m.slots.retain fun _ _ => false }
  have hget (id : Option RecordId) : m₁.slots.get id = none := by
    show (m.slots.retain fun _ _ => false).get id = none
    rw [get_retain]
    cases m.slots.get id <;> rfl
  obtain ⟨htracks, hle, hmoves⟩ : (t.retain fun _ => false).Tracks m₁ ∧
    Moves t (t.retain fun _ => false) m m₁ := h.retain fun _ _ => rfl
  refine ⟨⟨htracks.seq, htracks.sound, fun id slot => ?_, htracks.cap⟩, hle, hmoves.trans ?_⟩
  · rw [get_empty, ← hget id]
    exact htracks.holds id slot
  · unfold Reference.content
    simp only [hget, get_empty]

theorem set_known {e : Entry}
    (hfind : t.entries.find? (fun e => e.id == id) = some e) (record : Record) (stamp : Nat) :
    Follows t (t.set id record stamp) m (.report (.set id record) stamp) := by
  obtain ⟨rest, rfl, hperm, hperm'⟩ := set_of_known hfind record stamp
  have hmem : e ∈ t.entries := mem_of_find?_eq_some hfind
  have hget := h.holds.get_of_mem hmem
  have hsound := h.sound.perm hperm
  have hid : (e.report record (t.seq + 1) stamp).id ∉ rest.map Entry.id :=
    (nodup_cons.mp hsound.ids).1
  have hupdated := (nodup_cons.mp hsound.updated).1
  have hrest : Sound rest t.seq := hsound.sublist (sublist_cons_self _ _)
  have hslot : Reference.latest (some e.slot) record (t.seq + 1) stamp =
      (e.report record (t.seq + 1) stamp).slot := rfl
  have hset : (t.set e.id record stamp).seq = t.seq + 1 ∧ (t.set e.id record stamp).revision =
      if e.record = record then t.revision else t.revision + 1 := by
    unfold StatusTable.set
    rw [hfind]
    exact ⟨rfl, rfl⟩
  refine ⟨_, .known ((h.contains_iff _).mpr (mem_map_of_mem hmem)), ⟨?_, ?_, ?_, ?_⟩, ?_⟩
  · rw [hset.1]
    exact congrArg (· + 1) h.seq
  · rw [hset.1]
    refine (hrest.cons hid rfl ?_ ?_).perm hperm'.symm
    · show (if e.record = record then e.updated else t.seq + 1) ∉ _
      split
      · exact hupdated
      · exact hrest.not_mem_updated
    · show (if e.record = record then e.updated else t.seq + 1) ≤ _
      split
      · exact Nat.le_succ_of_le (h.sound.bound e hmem).2
      · exact Nat.le_refl _
  · unfold Reference.put
    rw [hget, h.seq, hslot]
    have hholds : Holds (e.report record (t.seq + 1) stamp :: rest)
        (m.slots.insert e.id (e.report record (t.seq + 1) stamp).slot) :=
      Holds.insert (fun id hne slot => (h.holds.perm hperm).tail hne slot) hid
    exact hholds.perm hperm'.symm
  · rw [hperm'.length_eq, length_cons, ← length_cons (a := e), ← hperm.length_eq]
    exact h.cap
  · unfold Moves Reference.content Reference.put
    rw [hset.2]
    dsimp only
    split
    · next heq =>
      refine ⟨Nat.le_refl _, fun hlt => absurd hlt (Nat.lt_irrefl _), ?_⟩
      rintro ⟨id, hne⟩
      refine absurd ?_ hne
      rw [get_insert]
      split
      · next hid =>
        rw [hid, hget]
        exact congrArg some heq.symm
      · rfl
    · next hne =>
      refine ⟨Nat.le_succ _, fun _ => ⟨e.id, ?_⟩, fun _ => Nat.lt_succ_self _⟩
      rw [get_insert_self, hget]
      exact fun heq => hne (Option.some.inj heq).symm

/-- A new id goes in front of entries that leave room for it. -/
theorem set_fresh
    (hfind : t.entries.find? (fun e => e.id == id) = none) (record : Record) (stamp : Nat)
    (m₁ : Reference) (hseq : m₁.seq = m.seq) (hholds : Holds t.evict m₁.slots)
    (hsound : Sound t.evict t.seq) (hcap : t.evict.length < maxRecords)
    (hid : id ∉ t.evict.map Entry.id) :
    (t.set id record stamp).Tracks (m₁.put id record stamp) ∧
      Moves t (t.set id record stamp) m (m₁.put id record stamp) := by
  have hget : m₁.slots.get id = none := (hholds.get_eq_none_iff id).mpr hid
  have hget' : m.slots.get id = none := by
    rw [h.holds.get_eq_none_iff]
    rintro hmem
    obtain ⟨e, he, rfl⟩ := mem_map.mp hmem
    exact List.find?_eq_none.mp hfind e he (beq_self_eq_true _)
  unfold StatusTable.set Reference.put
  rw [hfind, hget, hseq, h.seq]
  set e : Entry := ⟨id, record, t.seq + 1, t.seq + 1, stamp,
    Function.update (fun _ => 0) record.state stamp⟩ with he
  have hperm : e :: t.evict ~ t.evict ++ [e] := (perm_append_singleton _ _).symm
  have hholds' : Holds (e :: t.evict) (m₁.slots.insert id e.slot) :=
    Holds.insert (fun id _ slot => hholds id slot) hid
  refine ⟨⟨rfl, (hsound.cons hid rfl hsound.not_mem_updated (Nat.le_refl _)).perm hperm,
    hholds'.perm hperm, ?_⟩, Nat.le_succ _, fun _ => ⟨id, ?_⟩, fun _ => Nat.lt_succ_self _⟩
  · show (t.evict ++ [e]).length ≤ maxRecords
    rw [← hperm.length_eq]
    exact hcap
  · unfold Reference.content
    dsimp only
    rw [get_insert_self, hget']
    exact fun hnone => by cases hnone

theorem set_new
    (hfind : t.entries.find? (fun e => e.id == id) = none) (record : Record) (stamp : Nat) :
    Follows t (t.set id record stamp) m (.report (.set id record) stamp) := by
  have hid : id ∉ t.entries.map Entry.id := by
    rintro hmem
    obtain ⟨e, he, rfl⟩ := mem_map.mp hmem
    exact List.find?_eq_none.mp hfind e he (beq_self_eq_true _)
  have hnew : m.slots.contains id = false := by
    rw [contains_eq_false_iff, h.holds.get_eq_none_iff]
    exact hid
  have hsize := h.holds.size h.sound.ids
  rcases Nat.lt_or_ge t.entries.length maxRecords with hroom | hfull
  · have hevict := evict_of_room hroom
    obtain ⟨htracks, hmoves⟩ := h.set_fresh hfind record stamp m rfl (hevict ▸ h.holds)
      (hevict ▸ h.sound) (hevict ▸ hroom) (hevict ▸ hid)
    exact ⟨_, .fresh hnew (hsize ▸ hroom), htracks, hmoves⟩
  · obtain ⟨victim, hperm, holdest⟩ := evict_of_full h.sound hfull
    have hsound := h.sound.perm hperm.symm
    have hholds := h.holds.perm hperm.symm
    have hvictim := (nodup_cons.mp hsound.ids).1
    have hlen : t.evict.length < maxRecords := by
      have hlength := hperm.length_eq
      rw [length_cons] at hlength
      have := h.cap
      omega
    have hid' : id ∉ t.evict.map Entry.id := fun hmem =>
      hid ((hperm.map Entry.id).mem_iff.mp (mem_cons_of_mem _ hmem))
    obtain ⟨htracks, hmoves⟩ := h.set_fresh hfind record stamp
      { m with slots := m.slots.remove victim.id } rfl
      (hholds.remove hvictim) (hsound.sublist (sublist_cons_self _ _)) hlen hid'
    refine ⟨_, .evict hnew (by rw [hsize]; exact Nat.le_antisymm h.cap hfull)
      ⟨victim.slot, hholds.get_of_mem mem_cons_self, fun k s hk hne => ?_⟩, htracks, hmoves⟩
    obtain ⟨e, he, -, rfl⟩ := (hholds.tail hne s).mp hk
    exact holdest e he

theorem step (op : Op) : Follows t (t.step op) m op := by
  cases op with
  | report report stamp =>
    cases report with
    | set id record =>
      cases hfind : t.entries.find? (fun e => e.id == id) with
      | some e => exact h.set_known hfind record stamp
      | none => exact h.set_new hfind record stamp
    | clear id =>
      cases id with
      | none => exact ⟨_, .clearAll, h.clear⟩
      | some path =>
        refine ⟨_, .clear, h.retain fun e _ => congrArg not ?_⟩
        cases hid : e.id with
        | none => rfl
        | some id =>
          show id.isWithin path = path.segments.isPrefixOf id.segments
          rw [Bool.eq_iff_iff, RecordId.isWithin_iff, isPrefixOf_iff_prefix]
  | promptStart =>
    refine ⟨_, .promptStart, h.retain fun e _ => ?_⟩
    show e.record.state.survivesExit = (e.record.state == .done || e.record.state == .error)
    cases e.record.state <;> rfl
  | processExit =>
    refine ⟨_, .processExit, h.retain fun e _ => ?_⟩
    show e.record.state.survivesExit = (e.record.state == .done || e.record.state == .error)
    cases e.record.state <;> rfl
  | fullReset => exact ⟨_, .fullReset, h.clear⟩

end

/-- Every run of the table is a run of the map. -/
theorem run (ops : List Op) : ∃ m, Reference.Run ops m ∧ (StatusTable.run ops).Tracks m := by
  induction ops using List.reverseRecOn with
  | nil => exact ⟨_, .nil, new⟩
  | append_singleton ops op ih =>
    obtain ⟨m, hrun, htracks⟩ := ih
    obtain ⟨m', hstep, htracks', -⟩ := htracks.step op
    refine ⟨m', hrun.snoc hstep, ?_⟩
    unfold StatusTable.run
    rw [foldl_concat]
    exact htracks'

end Tracks

end StatusTable

end Shux.ProgramStatus
