/-
# What verification of the audit log checks

Verification reads texts. This module says what it does on the texts of written values: a file
of single lines reads back as these lines, and lines of written values are accepted exactly
when the values form a chain, over the files of a set as over the lines of one file.
-/

import Shux.Lens.AuditLog
import Shux.Lib.Fallible

namespace Shux.Lens

open Shux.Plugin (Json)
open List Codec
open HashChain

/-- The file that holds the lines. -/
def fileOf (texts : List Str) : Str := texts.flatMap (· ++ ['\n'])

/-- A text that is one line of a file. -/
def OneLine (text : Str) : Prop := '\n' ∉ text ∧ text.getLast? ≠ some '\r'

theorem linesFrom_line {text read rest : Str} (h : '\n' ∉ text) :
    linesFrom read (text ++ '\n' :: rest) =
      endLine (text.reverse ++ read) :: linesFrom [] rest := by
  induction text generalizing read with
  | nil => simp [linesFrom]
  | cons ch text ih =>
    have hch : ch ≠ '\n' := by
      rintro rfl
      exact h (by simp)
    rw [cons_append, linesFrom, if_neg hch, ih (fun hmem => h (mem_cons_of_mem _ hmem))]
    simp

theorem endLine_reverse {text : Str} (h : text.getLast? ≠ some '\r') :
    endLine text.reverse = text := by
  rw [← List.head?_reverse] at h
  unfold endLine
  split
  · rename_i rest heq
    rw [heq] at h
    simp at h
  · simp

/-- A file of single lines reads back as these lines. -/
theorem lines_fileOf {texts : List Str} (h : ∀ text ∈ texts, OneLine text) :
    lines (fileOf texts) = texts := by
  induction texts with
  | nil => rfl
  | cons text rest ih =>
    have hline := h text (by simp)
    have hsplit : fileOf (text :: rest) = text ++ '\n' :: fileOf rest := by simp [fileOf]
    rw [hsplit, lines, linesFrom_line hline.1, append_nil, endLine_reverse hline.2]
    congr 1
    exact ih fun t ht => h t (mem_cons_of_mem _ ht)

theorem lookup_insertField_self (key : Str) (value : Json) (fields : List (Str × Json)) :
    (insertField key value fields).lookup key = some value := by
  induction fields with
  | nil => simp [insertField]
  | cons field rest ih =>
    obtain ⟨k, v⟩ := field
    unfold insertField
    split_ifs with heq hlt
    · simp
    · simp
    · rw [lookup_cons, beq_false_of_ne heq]
      exact ih

theorem lookup_insertField_of_ne {key other : Str} (hne : other ≠ key) (value : Json)
    (fields : List (Str × Json)) :
    (insertField key value fields).lookup other = fields.lookup other := by
  induction fields with
  | nil => simp [insertField, hne]
  | cons field rest ih =>
    obtain ⟨k, v⟩ := field
    unfold insertField
    split_ifs with heq hlt
    · subst heq
      simp [lookup_cons, beq_false_of_ne hne]
    · rw [lookup_cons, beq_false_of_ne hne]
    · rw [lookup_cons, lookup_cons, ih]

/-- An inserted field goes away again, and nothing else with it. -/
theorem removeField_insertField {key : Str} {fields : List (Str × Json)}
    (h : fields.lookup key = none) (value : Json) :
    removeField key (insertField key value fields) = fields := by
  induction fields with
  | nil => simp [insertField, removeField]
  | cons field rest ih =>
    obtain ⟨k, v⟩ := field
    have hne : key ≠ k := by
      rintro rfl
      simp at h
    rw [lookup_cons, beq_false_of_ne hne] at h
    have hkeep : removeField key rest = rest := by
      refine filter_eq_self.2 fun field hmem => ?_
      have hother : key ≠ field.1 := by simpa using lookup_eq_none_iff.1 h field hmem
      simpa using hother.symm
    unfold insertField
    rw [if_neg hne]
    split_ifs with hlt
    · simpa [removeField, hne.symm] using hkeep
    · simpa [removeField, hne.symm] using ih h

def prevOf (value : Json) : Str := (strField keyPrevHash value).getD []
def hashIn (value : Json) : Str := (strField keyHash value).getD []

/-- A written value carries both hashes, and its own is the right one. -/
structure Intact (c : Codec) (value : Json) : Prop where
  prev : strField keyPrevHash value = some (prevOf value)
  hash : strField keyHash value = some (hashIn value)
  recomputed : c.hashOf (prevOf value) (removeKey keyHash value) = hashIn value

/-- The header of a rotation. -/
def IsRotate (value : Json) : Prop := strField keyMethod value = some auditRotate

instance (value : Json) : Decidable (IsRotate value) := inferInstanceAs (Decidable (_ = _))

section Stamp

variable (c : Codec) (prev : Str) (entry : Entry)

theorem strField_stamp_prev : strField keyPrevHash (c.stamp prev entry.value) = some prev := by
  simp only [strField, stamp, Entry.value, insertKey, Json.get]
  rw [lookup_insertField_of_ne (by decide), lookup_insertField_self]
  rfl

theorem strField_stamp_hash : strField keyHash (c.stamp prev entry.value) =
    some (c.hashOf prev (insertKey keyPrevHash (.string prev) entry.value)) := by
  simp only [strField, stamp, Entry.value, insertKey, Json.get]
  rw [lookup_insertField_self]
  rfl

theorem strField_stamp_method :
    strField keyMethod (c.stamp prev entry.value) = strField keyMethod entry.value := by
  simp only [strField, stamp, Entry.value, insertKey, Json.get]
  rw [lookup_insertField_of_ne (by decide), lookup_insertField_of_ne (by decide)]

theorem prevOf_stamp : prevOf (c.stamp prev entry.value) = prev := by
  rw [prevOf, strField_stamp_prev]
  rfl

theorem hashIn_stamp : hashIn (c.stamp prev entry.value) =
    c.hashOf prev (insertKey keyPrevHash (.string prev) entry.value) := by
  rw [hashIn, strField_stamp_hash]
  rfl

theorem removeKey_stamp : removeKey keyHash (c.stamp prev entry.value) =
    insertKey keyPrevHash (.string prev) entry.value := by
  have hnone : (insertField keyPrevHash (.string prev) entry.fields).lookup keyHash = none := by
    rw [lookup_insertField_of_ne (by decide)]
    exact entry.noHash
  simp only [stamp, Entry.value, insertKey, removeKey]
  rw [removeField_insertField hnone]

theorem intact_stamp : Intact c (c.stamp prev entry.value) where
  prev := by rw [prevOf_stamp, strField_stamp_prev]
  hash := by rw [hashIn_stamp, strField_stamp_hash]
  recomputed := by rw [prevOf_stamp, hashIn_stamp, removeKey_stamp]

end Stamp

/-- Parsing undoes serialization on these values, and each serializes to one line. -/
structure Faithful (c : Codec) (values : List Json) : Prop where
  parses : ∀ value ∈ values, c.fromStr (c.toVec value) = some value
  oneLine : ∀ value ∈ values, OneLine (c.toVec value)

namespace Faithful

variable {c : Codec} {values : List Json}

theorem mono (h : Faithful c values) {fewer : List Json} (hsub : fewer ⊆ values) :
    Faithful c fewer :=
  ⟨fun value hmem => h.parses value (hsub hmem), fun value hmem => h.oneLine value (hsub hmem)⟩

theorem lines_eq (h : Faithful c values) :
    lines (fileOf (values.map c.toVec)) = values.map c.toVec := by
  refine lines_fileOf fun text hmem => ?_
  obtain ⟨value, hvalue, rfl⟩ := mem_map.1 hmem
  exact h.oneLine value hvalue

end Faithful

namespace Codec

variable (c : Codec)
variable {value : Json}

theorem verifyLine_of_intact (hparse : c.fromStr (c.toVec value) = some value)
    (h : Intact c value) (start : Str) (i : Nat) :
    c.verifyLine (some start) i (c.toVec value) =
      if prevOf value = start then .ok (hashIn value)
      else .error (.chainBreak (i + 1) (prevOf value) start) := by
  simp only [verifyLine, hparse, h.prev, h.hash, expectedPrev, bind, Except.bind]
  by_cases hprev : prevOf value = start
  · subst hprev
    simp [h.recomputed]
  · simp [hprev]

/-- At a trusted start the first line has to be justified, and then anchors itself. -/
theorem verifyLine_trusted (hparse : c.fromStr (c.toVec value) = some value)
    (h : Intact c value) (i : Nat) :
    c.verifyLine none i (c.toVec value) =
      if prevOf value ≠ genesisHash ∧ ¬ IsRotate value
      then .error (.unjustifiedAnchor (prevOf value))
      else .ok (hashIn value) := by
  simp only [verifyLine, hparse, h.prev, h.hash, expectedPrev]
  by_cases hbad : prevOf value ≠ genesisHash ∧ ¬ IsRotate value
  · have hraw : prevOf value ≠ genesisHash ∧ strField keyMethod value ≠ some auditRotate := hbad
    rw [if_pos hbad, if_pos hraw]
    rfl
  · have hraw : ¬ (prevOf value ≠ genesisHash ∧ strField keyMethod value ≠ some auditRotate) := hbad
    rw [if_neg hbad, if_neg hraw]
    simp [bind, Except.bind, h.recomputed]

/-- Written values are accepted from a hash exactly when they are chained from there. -/
theorem verifyLines_ok_iff {values : List Json} (hfaithful : Faithful c values)
    (hintact : ∀ value ∈ values, Intact c value) (start : Str) (i : Nat) (r : Nat × Option Str) :
    c.verifyLines (some start) i (values.map c.toVec) = .ok r ↔
      Chained prevOf hashIn start values ∧
        r = (i + values.length, some (tip hashIn start values)) := by
  induction values generalizing start i with
  | nil => simp [verifyLines, Chained, tip, eq_comm]
  | cons value rest ih =>
    have hrest := ih (hfaithful.mono (subset_cons_self _ _))
      fun v hv => hintact v (mem_cons_of_mem _ hv)
    rw [map_cons, verifyLines,
      verifyLine_of_intact c (hfaithful.parses value (by simp)) (hintact value (by simp))]
    by_cases hprev : prevOf value = start
    · rw [if_pos hprev]
      simp only [bind, Except.bind, hrest, Chained, hprev, true_and, tip, length_cons,
        Nat.add_assoc, Nat.add_comm 1]
    · simp [hprev, bind, Except.bind, Chained]

theorem verifyLines_trusted {rest : List Json}
    (hfaithful : Faithful c (value :: rest)) (hintact : ∀ v ∈ value :: rest, Intact c v)
    (r : Nat × Option Str) :
    c.verifyLines none 0 ((value :: rest).map c.toVec) = .ok r ↔
      (prevOf value = genesisHash ∨ IsRotate value) ∧
        c.verifyLines (some (prevOf value)) 0 ((value :: rest).map c.toVec) = .ok r := by
  rw [map_cons, verifyLines, verifyLines,
    verifyLine_of_intact c (hfaithful.parses value (by simp)) (hintact value (by simp)),
    verifyLine_trusted c (hfaithful.parses value (by simp)) (hintact value (by simp)), if_pos rfl]
  split_ifs with hbad
  · simp only [bind, Except.bind, reduceCtorEq, false_iff]
    tauto
  · have hgood : prevOf value = genesisHash ∨ IsRotate value := by tauto
    simp only [hgood, true_and]

end Codec

/-- The text of a file that holds the values. -/
def Codec.textOf (c : Codec) (values : List Json) : Str := fileOf (values.map c.toVec)

/-- The files of a set hold written values. -/
structure Laid (c : Codec) (files : Files) (held : Nat → Option (List Json)) : Prop where
  text : ∀ n ≤ auditKeepRotations, files n = (held n).map c.textOf
  faithful : ∀ n values, held n = some values → Faithful c values
  intact : ∀ n values, held n = some values → ∀ value ∈ values, Intact c value

/-- The values of the numbered files, in order. -/
def inOrder (held : Nat → Option (List Json)) (numbers : List Nat) : List Json :=
  numbers.flatMap fun n => (held n).getD []

namespace Laid

variable {c : Codec} {files : Files} {held : Nat → Option (List Json)}
variable {n : Nat}

section

variable (h : Laid c files held)
include h

theorem verifyChainFile_of_held (hn : n ≤ auditKeepRotations)
    {values : List Json} (hheld : held n = some values) (anchor : ChainAnchor) (r : Nat × Str) :
    c.verifyChainFile (files n) anchor = .ok r ↔
      ∃ found, c.verifyLines anchor.start 0 (values.map c.toVec) = .ok found ∧
        (found.1, found.2.getD genesisHash) = r := by
  rw [h.text n hn, hheld]
  simp only [Option.map_some, verifyChainFile, textOf,
    (h.faithful n values hheld).lines_eq, Fallible.bind_eq_ok, pure, Except.pure, Except.ok.injEq]

theorem verifyChainFile_ok_iff (hn : n ≤ auditKeepRotations) (start : Str) (r : Nat × Str) :
    c.verifyChainFile (files n) (.exact start) = .ok r ↔
      ∃ values, held n = some values ∧ Chained prevOf hashIn start values ∧
        r = (values.length, tip hashIn start values) := by
  cases hheld : held n with
  | none => simp [h.text n hn, hheld, verifyChainFile]
  | some values =>
    rw [h.verifyChainFile_of_held hn hheld]
    simp only [ChainAnchor.start, Codec.verifyLines_ok_iff c (h.faithful n values hheld)
      (h.intact n values hheld), Option.some.injEq, exists_eq_left']
    constructor
    · rintro ⟨_, ⟨hchain, rfl⟩, rfl⟩
      exact ⟨hchain, by simp⟩
    · rintro ⟨hchain, rfl⟩
      exact ⟨_, ⟨hchain, rfl⟩, by simp⟩

/-- At a trusted start a file with a first line anchors itself, if that line may. -/
theorem verifyChainFile_trusted_iff
    (hn : n ≤ auditKeepRotations) {value : Json} {values : List Json}
    (hheld : held n = some (value :: values)) (r : Nat × Str) :
    c.verifyChainFile (files n) .trustedStart = .ok r ↔
      (prevOf value = genesisHash ∨ IsRotate value) ∧
        c.verifyChainFile (files n) (.exact (prevOf value)) = .ok r := by
  have hlines := Codec.verifyLines_trusted c (h.faithful n _ hheld) (h.intact n _ hheld)
  simp only [h.verifyChainFile_of_held hn hheld, ChainAnchor.start, hlines, and_assoc,
    exists_and_left]

/-- Behind a known hash the files are accepted when they continue it, one after another. -/
theorem verifyFiles_ok_iff {numbers : List Nat}
    (hn : ∀ n ∈ numbers, n ≤ auditKeepRotations) (start : Str) (total r : Nat) :
    c.verifyFiles files (some start) total numbers = .ok r ↔
      (∀ n ∈ numbers, (held n).isSome) ∧ Chained prevOf hashIn start (inOrder held numbers) ∧
        r = total + (inOrder held numbers).length := by
  induction numbers generalizing start total with
  | nil =>
    simp only [verifyFiles, inOrder, flatMap_nil, Chained, length_nil,
      Except.ok.injEq, not_mem_nil, IsEmpty.forall_iff, implies_true, true_and, add_zero]
    exact eq_comm
  | cons n rest ih =>
    have hrest := ih fun m hm => hn m (mem_cons_of_mem _ hm)
    rw [verifyFiles]
    simp only [Fallible.bind_eq_ok, h.verifyChainFile_ok_iff (hn n (by simp)), hrest]
    constructor
    · rintro ⟨_, ⟨values, hvalues, hchain, rfl⟩, hall, hmore, rfl⟩
      have hsplit : inOrder held (n :: rest) = values ++ inOrder held rest := by
        simp [inOrder, hvalues]
      rw [hsplit, chained_append, length_append, ← Nat.add_assoc]
      exact ⟨forall_mem_cons.2 ⟨by simp [hvalues], hall⟩, ⟨hchain, hmore⟩, rfl⟩
    · rintro ⟨hall, hchain, rfl⟩
      obtain ⟨values, hvalues⟩ := Option.isSome_iff_exists.1 (hall n (by simp))
      have hsplit : inOrder held (n :: rest) = values ++ inOrder held rest := by
        simp [inOrder, hvalues]
      rw [hsplit, chained_append] at hchain
      rw [hsplit, length_append, ← Nat.add_assoc]
      exact ⟨_, ⟨values, hvalues, hchain.1, rfl⟩, (forall_mem_cons.1 hall).2, hchain.2, rfl⟩

/-- A set is accepted when its files chain from a hash that is the genesis or that a rotation
header carries. -/
theorem verifyFiles_trusted_iff {rest : List Nat}
    (hn : ∀ m ∈ n :: rest, m ≤ auditKeepRotations) (r : Nat) :
    c.verifyFiles files none 0 (n :: rest) = .ok r ↔
      (∀ m ∈ n :: rest, (held m).isSome) ∧ r = (inOrder held (n :: rest)).length ∧
        ∃ start, Chained prevOf hashIn start (inOrder held (n :: rest)) ∧
          (start = genesisHash ∨
            ∃ value values, held n = some (value :: values) ∧ IsRotate value) := by
  cases hheld : held n with
  | none => simp [verifyFiles, h.text n (hn n (by simp)), hheld, verifyChainFile, bind, Except.bind]
  | some values =>
    cases values with
    | nil =>
      -- An empty first file ends where a log starts.
      have hempty : c.verifyFiles files none 0 (n :: rest) =
          c.verifyFiles files (some genesisHash) 0 rest := by
        simp [verifyFiles, h.text n (hn n (by simp)), hheld, verifyChainFile,
          textOf, fileOf, lines, linesFrom, Codec.verifyLines, ChainAnchor.start, bind,
          Except.bind, pure, Except.pure]
      have hsplit : inOrder held (n :: rest) = inOrder held rest := by simp [inOrder, hheld]
      rw [hempty, hsplit, h.verifyFiles_ok_iff fun m hm => hn m (mem_cons_of_mem _ hm)]
      constructor
      · rintro ⟨hall, hchain, rfl⟩
        exact ⟨forall_mem_cons.2 ⟨by simp [hheld], hall⟩, by simp, _, hchain, .inl rfl⟩
      · rintro ⟨hall, rfl, start, hchain, rfl | ⟨_, _, hsome, -⟩⟩
        · exact ⟨(forall_mem_cons.1 hall).2, hchain, by simp⟩
        · cases hsome
    | cons value values =>
      have hfirst : c.verifyFiles files none 0 (n :: rest) = .ok r ↔
          (prevOf value = genesisHash ∨ IsRotate value) ∧
            c.verifyFiles files (some (prevOf value)) 0 (n :: rest) = .ok r := by
        simp only [verifyFiles, Fallible.bind_eq_ok,
          h.verifyChainFile_trusted_iff (hn n (by simp)) hheld, and_assoc, exists_and_left]
      have hsplit : inOrder held (n :: rest) = value :: (values ++ inOrder held rest) := by
        simp [inOrder, hheld]
      rw [hfirst, h.verifyFiles_ok_iff hn, hsplit]
      constructor
      · rintro ⟨hjust, hall, hchain, rfl⟩
        refine ⟨hall, by simp, _, hchain, hjust.imp id fun hrotate => ?_⟩
        exact ⟨value, values, rfl, hrotate⟩
      · rintro ⟨hall, rfl, start, hchain, hjust⟩
        obtain rfl : prevOf value = start := hchain.1
        refine ⟨hjust.imp id ?_, hall, hchain, by simp⟩
        rintro ⟨_, _, heq, hrotate⟩
        cases heq
        exact hrotate

end

end Laid

end Shux.Lens
