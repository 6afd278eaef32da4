/-
# Program status records

A program reports what it is doing in records. A record is addressed by a path of segments,
or by nothing, which is the root record of the terminal; the paths form a tree under the
root. A path is kept as the text it came in, and everything the status code does with paths
is done on that text: whether one path lies beneath another, and what its parent is. Read as
lists of segments these are a prefix test and dropping the last segment.
-/

import Mathlib

namespace Shux.ProgramStatus

open List

/-- `ESC ]` through `ST`. -/
def maxSequenceBytes : Nat := 4096

/-- `ESC ] 7501 ;` and the two bytes `ESC \`. -/
def framingBytes : Nat := 9

def maxPayloadBytes : Nat := maxSequenceBytes - framingBytes

def maxKeyBytes : Nat := 16

def maxMsgEncoded : Nat := 2732

def maxMsgDecoded : Nat := 2048

def maxTitleEncoded : Nat := 256

def maxTitleDecoded : Nat := 192

def maxAppBytes : Nat := 32

def maxIdBytes : Nat := 128

def maxIdSegmentBytes : Nat := 32

def maxIdDepth : Nat := 8

/-- Records one terminal keeps. -/
def maxRecords : Nat := 256

/-- The bytes of a text. -/
def utf8 (s : String) : List UInt8 := s.toByteArray.data.toList

/-- The text some bytes spell, if they are valid UTF-8. -/
def fromUtf8 (bytes : List UInt8) : Option String := String.fromUTF8? ⟨bytes.toArray⟩

theorem fromUtf8_utf8 (s : String) : fromUtf8 (utf8 s) = some s := by
  unfold fromUtf8 utf8 String.fromUTF8?
  rw [Array.toArray_toList, dif_pos s.isValidUTF8]
  rfl

theorem utf8_of_fromUtf8 {bytes : List UInt8} {s : String} (h : fromUtf8 bytes = some s) :
    utf8 s = bytes := by
  unfold fromUtf8 String.fromUTF8? at h
  split at h
  · obtain rfl := Option.some.inj h
    rfl
  · cases h

theorem utf8_injective : Function.Injective utf8 := fun s s' h =>
  Option.some.inj ((fromUtf8_utf8 s).symm.trans (h ▸ fromUtf8_utf8 s'))

theorem utf8_ofList (chars : List Char) :
    utf8 (String.ofList chars) = chars.flatMap String.utf8EncodeChar := by
  unfold utf8
  rw [String.toByteArray_ofList]
  exact toList_data_toByteArray

theorem utf8_eq_flatMap (s : String) : utf8 s = s.toList.flatMap String.utf8EncodeChar := by
  rw [← utf8_ofList, String.ofList_toList]

def isAsciiAlphanumeric (b : UInt8) : Bool :=
  (0x30 ≤ b && b ≤ 0x39) || (0x41 ≤ b && b ≤ 0x5a) || (0x61 ≤ b && b ≤ 0x7a)

/-- `[A-Za-z0-9_.+-]` -/
def isIdByte (b : UInt8) : Bool :=
  isAsciiAlphanumeric b || b == 0x5f || b == 0x2e || b == 0x2b || b == 0x2d

/-- What a program is doing. -/
inductive State where
  | idle
  | working
  | done
  | blocked
  | error
deriving Repr, DecidableEq

namespace State

def all : List State := [idle, working, done, blocked, error]

def asStr : State → String
  | idle => "idle"
  | working => "working"
  | done => "done"
  | blocked => "blocked"
  | error => "error"

def parse (s : String) : Option State := all.find? fun state => state.asStr == s

/-- Whether a record in this state outlives its process and the next prompt. -/
def survivesExit : State → Bool
  | done => true
  | error => true
  | _ => false

end State

/-- What a blocked program needs. -/
inductive Kind where
  | permission
  | question
  | auth
deriving Repr, DecidableEq

namespace Kind

def all : List Kind := [permission, question, auth]

def asStr : Kind → String
  | permission => "permission"
  | question => "question"
  | auth => "auth"

def parse (s : String) : Option Kind := all.find? fun kind => kind.asStr == s

end Kind

/-- The segments of a path. -/
def segmentsOf (path : String) : List (List Char) := path.toList.splitOn '/'

/-- A segment has one to thirty-two id bytes. -/
def validSegment (segment : List Char) : Bool :=
  !segment.isEmpty && (utf8 (String.ofList segment)).length ≤ maxIdSegmentBytes &&
    (utf8 (String.ofList segment)).all isIdByte

/-- A path keeps within the limits and all its segments are valid. -/
def validPath (path : String) : Bool :=
  !path.isEmpty && (utf8 path).length ≤ maxIdBytes &&
    (segmentsOf path).all validSegment && (segmentsOf path).length ≤ maxIdDepth

/-- A validated record path. -/
structure RecordId where
  path : String
  valid : validPath path = true
deriving DecidableEq

/-- The text before the last separator, and after it. -/
def rsplitOnce (sep : Char) : List Char → Option (List Char × List Char)
  | [] => none
  | c :: cs =>
    match rsplitOnce sep cs with
    | some (before, after) => some (c :: before, after)
    | none => if c = sep then some ([], cs) else none

theorem not_mem_of_rsplitOnce_eq_none {sep : Char} {cs : List Char}
    (h : rsplitOnce sep cs = none) : sep ∉ cs := by
  induction cs with
  | nil => exact not_mem_nil
  | cons c cs ih =>
    unfold rsplitOnce at h
    split at h
    · cases h
    · next hcs =>
      split at h
      · cases h
      · next hne =>
        rw [mem_cons, not_or]
        exact ⟨fun heq => hne heq.symm, ih hcs⟩

theorem eq_of_rsplitOnce {sep : Char} {cs before after : List Char}
    (h : rsplitOnce sep cs = some (before, after)) :
    cs = before ++ sep :: after ∧ sep ∉ after := by
  induction cs generalizing before with
  | nil => cases h
  | cons c cs ih =>
    unfold rsplitOnce at h
    split at h
    · next before' after' hcs =>
      obtain ⟨rfl, rfl⟩ := Prod.mk.inj (Option.some.inj h)
      obtain ⟨heq, hmem⟩ := ih hcs
      exact ⟨by rw [heq, cons_append], hmem⟩
    · next hcs =>
      split at h
      · next heq =>
        obtain ⟨rfl, rfl⟩ := Prod.mk.inj (Option.some.inj h)
        exact ⟨by rw [heq, nil_append], not_mem_of_rsplitOnce_eq_none hcs⟩
      · cases h

/-- Cutting a path at its last separator drops its last segment. -/
theorem segmentsOf_rsplitOnce {path : String} {before after : List Char}
    (h : rsplitOnce '/' path.toList = some (before, after)) :
    segmentsOf path = segmentsOf (String.ofList before) ++ [after] := by
  obtain ⟨heq, hmem⟩ := eq_of_rsplitOnce h
  unfold segmentsOf
  rw [String.toList_ofList, heq, splitOn_append_cons_self, splitOn_eq_singleton hmem]

namespace RecordId

variable (id : RecordId)

/-- The text of a path. -/
def asStr (id : RecordId) : String := id.path

def parse (s : String) : Option RecordId := if h : validPath s = true then some ⟨s, h⟩ else none

theorem parse_asStr : parse id.asStr = some id := dif_pos id.valid

/-- A path is another or lies beneath it. -/
def isWithin (id other : RecordId) : Bool :=
  match id.path.toList.dropPrefix? other.path.toList with
  | some rest => rest.isEmpty || rest.head? == some '/'
  | none => false

/-- The segments of a path. -/
def segments (id : RecordId) : List (List Char) := segmentsOf id.path

theorem segments_valid : ∀ segment ∈ id.segments, validSegment segment = true := by
  have h := id.valid
  unfold validPath at h
  simp only [Bool.and_eq_true] at h
  exact all_eq_true.mp h.1.2

theorem length_segments : id.segments.length ≤ maxIdDepth := by
  have h := id.valid
  unfold validPath at h
  simp only [Bool.and_eq_true, decide_eq_true_eq] at h
  exact h.2

theorem length_path : (utf8 id.path).length ≤ maxIdBytes := by
  have h := id.valid
  unfold validPath at h
  simp only [Bool.and_eq_true, decide_eq_true_eq] at h
  exact h.1.1.2

theorem validPath_of_parent {before after : List Char}
    (h : rsplitOnce '/' id.path.toList = some (before, after)) :
    validPath (String.ofList before) = true := by
  have hsegments := segmentsOf_rsplitOnce h
  have hvalid : ∀ s ∈ segmentsOf (String.ofList before), validSegment s = true := fun s hs =>
    id.segments_valid s (by unfold segments; rw [hsegments]; exact mem_append_left _ hs)
  have hdepth := id.length_segments
  unfold segments at hdepth
  rw [hsegments, length_append, length_singleton] at hdepth
  have hbytes := id.length_path
  rw [utf8_eq_flatMap, (eq_of_rsplitOnce h).1, flatMap_append, length_append] at hbytes
  have hne : before ≠ [] := by
    rintro rfl
    have := hvalid [] (by decide)
    cases this
  unfold validPath
  simp only [Bool.and_eq_true, Bool.not_eq_true', decide_eq_true_eq]
  refine ⟨⟨⟨?_, ?_⟩, all_eq_true.mpr hvalid⟩, Nat.le_of_succ_le hdepth⟩
  · rw [Bool.eq_false_iff]
    intro hempty
    exact hne (by simpa using hempty)
  · rw [utf8_ofList]
    exact Nat.le_trans (Nat.le_add_right _ _) hbytes

/-- The parent path; a top-level path has none. -/
def parent (id : RecordId) : Option RecordId :=
  match h : rsplitOnce '/' id.path.toList with
  | some (before, _) => some ⟨String.ofList before, id.validPath_of_parent h⟩
  | none => none

theorem segments_ne_nil : id.segments ≠ [] := splitOn_ne_nil _ _

theorem intercalate_append_cons (sep segment : List Char) (front tail : List (List Char))
    (h : front ≠ []) : sep.intercalate (front ++ segment :: tail) =
      sep.intercalate front ++ (sep ++ sep.intercalate (segment :: tail)) := by
  induction front with
  | nil => exact absurd rfl h
  | cons first front ih =>
    cases front with
    | nil => rw [singleton_append, intercalate_singleton, intercalate_cons_cons, append_assoc]
    | cons second front =>
      rw [cons_append, cons_append, intercalate_cons_cons,
        intercalate_cons_cons, ← cons_append, ih (cons_ne_nil _ _)]
      simp only [append_assoc]

theorem eq_intercalate : ['/'].intercalate id.segments = id.path.toList := intercalate_splitOn '/'

theorem segments_injective : Function.Injective segments := fun id id' h => by
  have hpath : id.path = id'.path := String.ext (by rw [← eq_intercalate, ← eq_intercalate, h])
  cases id
  cases id'
  cases hpath
  rfl

/-- Beneath a path, or at it, are the paths its segments begin. -/
theorem isWithin_iff (id other : RecordId) :
    id.isWithin other = true ↔ other.segments <+: id.segments := by
  unfold isWithin
  constructor
  · intro h
    split at h
    · next rest hrest =>
      obtain ⟨front, heq, hfront⟩ := List.dropPrefix?_eq_some_iff.mp hrest
      obtain rfl := eq_of_beq hfront
      unfold segments segmentsOf
      rw [heq]
      cases rest with
      | nil => rw [append_nil]
      | cons c rest =>
        obtain rfl : c = '/' := by simpa using h
        rw [splitOn_append_cons_self]
        exact prefix_append _ _
    · cases h
  · rintro ⟨tail, htail⟩
    have hpath : id.path.toList = ['/'].intercalate (other.segments ++ tail) := by
      rw [htail, eq_intercalate]
    cases tail with
    | nil =>
      rw [append_nil, eq_intercalate] at hpath
      have hdrop : id.path.toList.dropPrefix? other.path.toList = some [] :=
        List.dropPrefix?_eq_some_iff.mpr ⟨_, by rw [hpath, append_nil], beq_self_eq_true _⟩
      rw [hdrop]
      rfl
    | cons segment tail =>
      rw [intercalate_append_cons _ _ _ _ other.segments_ne_nil, eq_intercalate] at hpath
      have hdrop : id.path.toList.dropPrefix? other.path.toList =
          some ('/' :: ['/'].intercalate (segment :: tail)) :=
        List.dropPrefix?_eq_some_iff.mpr ⟨_, hpath, beq_self_eq_true _⟩
      rw [hdrop]
      rfl

/-- A parent has all segments but the last. -/
theorem segments_parent {id p : RecordId} (h : id.parent = some p) :
    ∃ segment, id.segments = p.segments ++ [segment] := by
  unfold parent at h
  split at h
  · next before after hsplit =>
    obtain rfl := Option.some.inj h
    exact ⟨after, segmentsOf_rsplitOnce hsplit⟩
  · cases h

/-- Only a top-level path has no parent. -/
theorem segments_of_parent_eq_none {id : RecordId} (h : id.parent = none) :
    id.segments = [id.path.toList] := by
  unfold parent at h
  split at h
  · cases h
  · next hsplit => exact splitOn_eq_singleton (not_mem_of_rsplitOnce_eq_none hsplit)

end RecordId

/-- All that a report sets on one record. -/
structure Record where
  state : State
  kind : Option Kind
  progress : Option UInt8
  app : Option String
  title : Option String
  msg : Option String
deriving DecidableEq

/-- A decoded report. No id addresses the root record. -/
inductive Report where
  | set (id : Option RecordId) (record : Record)
  /-- Remove the record and its subtree; without an id, everything. -/
  | clear (id : Option RecordId)
deriving DecidableEq

end Shux.ProgramStatus
