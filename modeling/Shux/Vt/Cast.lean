/-
# Recorded output

A recording is made of lines: output with its time, and resizes. Output comes in chunks that are
cut anywhere, also inside a character, and a line is text; so the bytes at the end of a chunk
that may still become a character are carried over to the next one. What the lines say together
is then the text of the whole stream, however it was cut, and no more than three bytes are
carried.

Times are those of the host's clock; how they are written as seconds is a parameter.
-/

import Mathlib.Data.List.GetD
import Shux.Lib.Utf8

namespace Shux.Vt

open Utf8 List

variable {lead : UInt8}

/-- Bytes that the character of a lead has, by its shape alone. -/
def castNeed (lead : UInt8) : Nat := if 0xF0 ≤ lead then 4 else if 0xE0 ≤ lead then 3 else 2

def castValidLead (b : UInt8) : Bool := 0xC2 ≤ b && b ≤ 0xF4

/-- Look back from the end for a lead that still needs bytes. -/
def castLookBack (buf : List UInt8) : List Nat → Nat
  | [] => buf.length
  | back :: rest =>
    let b := buf.getD (buf.length - back) 0
    if b < 0x80 then buf.length
    else if 0xC0 ≤ b then
      if castValidLead b && decide (back < castNeed b) then buf.length - back else buf.length
    else castLookBack buf rest

/-- How many bytes may be emitted now. -/
def castSplit (buf : List UInt8) : Nat := castLookBack buf (List.range' 1 (min 3 buf.length))

def castCompletePrefix (buf : List UInt8) : Nat × List Char :=
  (castSplit buf, lossy (buf.take (castSplit buf)))

/-- A line of a recording. -/
inductive CastLine (τ : Type) where
  | output (t : τ) (data : List Char)
  | resize (t : τ) (cols rows : UInt16)
deriving Repr, DecidableEq

/-- The text a line shows. -/
def CastLine.data {τ : Type} : CastLine τ → List Char
  | output _ data => data
  | resize _ _ _ => []

structure CastWriter (τ : Type) where
  epoch : Nat
  carry : List UInt8
  lastT : τ

/-- The clock of a recording: nanoseconds as seconds. -/
structure CastClock (τ : Type) where
  zero : τ
  secs : Nat → τ
  max : τ → τ → τ

namespace CastWriter

variable {τ : Type} (clock : CastClock τ)

def new (epoch : Nat) : CastWriter τ := ⟨epoch, [], clock.zero⟩

/-- Time since the epoch, which never goes back. -/
def rel (writer : CastWriter τ) (at' : Nat) : CastWriter τ × τ :=
  let t := clock.max (clock.secs (at' - writer.epoch)) writer.lastT
  ({ writer with lastT := t }, t)

def outputLine (writer : CastWriter τ) (data : List UInt8) (at' : Nat) :
    CastWriter τ × Option (CastLine τ) :=
  let carry := writer.carry ++ data
  let (emitLen, out) := castCompletePrefix carry
  if emitLen = 0 then ({ writer with carry := carry }, none)
  else
    let (writer, t) := { writer with carry := carry.drop emitLen }.rel clock at'
    (writer, some (.output t out))

/-- A resize leaves the carried bytes where they are. -/
def resizeLine (writer : CastWriter τ) (cols rows : UInt16) (at' : Nat) :
    CastWriter τ × CastLine τ :=
  let (writer, t) := writer.rel clock at'
  (writer, .resize t cols rows)

/-- Nothing more is coming. -/
def flushLine (writer : CastWriter τ) : CastWriter τ × Option (CastLine τ) :=
  if writer.carry = [] then (writer, none)
  else ({ writer with carry := [] }, some (.output writer.lastT (lossy writer.carry)))

end CastWriter

/-- What the recorder is told. -/
inductive CastEvent where
  | output (data : List UInt8) (at' : Nat)
  | resize (cols rows : UInt16) (at' : Nat)

/-- The bytes of an event. -/
def CastEvent.bytes : CastEvent → List UInt8
  | output data _ => data
  | resize _ _ _ => []

namespace CastWriter

variable {τ : Type} (clock : CastClock τ)

/-- Write the line of an event behind the others. -/
def step (s : CastWriter τ × List (CastLine τ)) : CastEvent → CastWriter τ × List (CastLine τ)
  | .output data at' =>
    let (writer, line) := s.1.outputLine clock data at'
    (writer, s.2 ++ line.toList)
  | .resize cols rows at' =>
    let (writer, line) := s.1.resizeLine clock cols rows at'
    (writer, s.2 ++ [line])

/-- The writer behind the events of a recording, and its lines. -/
def record (epoch : Nat) (events : List CastEvent) : CastWriter τ × List (CastLine τ) :=
  events.foldl (step clock) (new clock epoch, [])

end CastWriter

theorem castLookBack_cases (buf : List UInt8) (backs : List Nat) :
    castLookBack buf backs = buf.length ∨ ∃ back ∈ backs,
      castLookBack buf backs = buf.length - back ∧ 0xC0 ≤ buf.getD (buf.length - back) 0 := by
  induction backs with
  | nil => exact .inl rfl
  | cons back rest ih =>
    rw [castLookBack]
    split_ifs with hascii hlead hneed
    · exact .inl rfl
    · exact .inr ⟨back, mem_cons_self, rfl, hlead⟩
    · exact .inl rfl
    · refine ih.imp_right ?_
      rintro ⟨back', hmem, h⟩
      exact ⟨back', mem_cons_of_mem _ hmem, h⟩

/-- At most three bytes are held back, from a lead on. -/
theorem castSplit_cases (buf : List UInt8) : castSplit buf = buf.length ∨
    ∃ lead rest, buf.drop (castSplit buf) = lead :: rest ∧ 0xC0 ≤ lead ∧ rest.length ≤ 2 := by
  rcases castLookBack_cases buf (List.range' 1 (min 3 buf.length)) with h | ⟨back, hmem, h, hlead⟩
  · exact .inl h
  · obtain ⟨hpos, hle⟩ := mem_range'_1.mp hmem
    have hlt : buf.length - back < buf.length := by omega
    rw [getD_eq_getElem?_getD, List.getElem?_eq_getElem hlt] at hlead
    refine .inr ⟨_, _, (congrArg buf.drop h).trans (drop_eq_getElem_cons hlt), hlead, ?_⟩
    rw [length_drop]
    omega

/-- A lead is no tail, so it stands at the start of its own sequence. -/
theorem not_continues_lead (h : 0xC0 ≤ lead) {seq : List UInt8}
    (hcont : continues seq lead = true) : seq = [] := by
  cases seq with
  | nil => rfl
  | cons a more =>
    have htail := (of_continues hcont).2
    unfold isTail at htail
    rw [Bool.and_eq_true, decide_eq_true_eq, decide_eq_true_eq] at htail
    exact absurd htail.2 (UInt8.not_lt.mpr h)

theorem castNeed_of_width (h : 1 < width lead) :
    castValidLead lead = true ∧ castNeed lead = width lead ∧ ¬lead < 0x80 ∧ 0xC0 ≤ lead := by
  unfold castValidLead castNeed
  rw [width_eq] at h ⊢
  simp only [UInt8.le_iff_toNat_le, UInt8.lt_iff_toNat_lt, Bool.and_eq_true, decide_eq_true_eq]
  change (194 ≤ lead.toNat ∧ lead.toNat ≤ 244) ∧ (if 240 ≤ lead.toNat then 4
    else if 224 ≤ lead.toNat then 3 else 2) = _ ∧ ¬lead.toNat < 128 ∧ 192 ≤ lead.toNat
  split_ifs at h ⊢
  all_goals omega

/-- Looking back over tails, the lead that still needs bytes is found. -/
theorem castLookBack_lead (front : List UInt8) {more : List UInt8}
    (hmore : ∀ b ∈ more, isTail b = true) (hneed : (lead :: more).length < width lead) {k n : Nat}
    (hk : 1 ≤ k) (hle : k ≤ more.length + 1) (hn : more.length + 1 < k + n) :
    castLookBack (front ++ lead :: more) (List.range' k n) = front.length := by
  induction n generalizing k with
  | zero => omega
  | succ n ih =>
    rw [length_cons] at hneed
    obtain ⟨hvalid, hwidth, hascii, hlead⟩ := castNeed_of_width (show 1 < width lead by omega)
    have hlength : (front ++ lead :: more).length = front.length + (more.length + 1) :=
      length_append
    rw [range'_succ, castLookBack, hlength]
    by_cases hend : k = more.length + 1
    · have hget : (front ++ lead :: more).getD (front.length + (more.length + 1) - k) 0 = lead := by
        rw [hend, Nat.add_sub_cancel, getD_append_right _ _ _ _ le_rfl, Nat.sub_self]
        rfl
      rw [hget, if_neg hascii, if_pos hlead, if_pos]
      · omega
      · rw [hvalid, hwidth, Bool.true_and, decide_eq_true_eq]
        omega
    · have hlt : more.length - k < more.length := by omega
      have hget : (front ++ lead :: more).getD (front.length + (more.length + 1) - k) 0 =
          more[more.length - k] := by
        rw [getD_append_right _ _ _ _ (by omega),
          show front.length + (more.length + 1) - k - front.length = more.length - k + 1 by omega,
          getD_cons_succ, getD_eq_getElem?_getD, List.getElem?_eq_getElem hlt]
        rfl
      have htail := hmore _ (getElem_mem hlt)
      unfold isTail at htail
      rw [Bool.and_eq_true, decide_eq_true_eq, decide_eq_true_eq] at htail
      rw [hget, if_neg (UInt8.not_lt.mpr htail.1), if_neg (UInt8.not_le.mpr htail.2)]
      exact ih (by omega) (by omega) (by omega)

/-- Where nothing is held back, no byte can belong to what was emitted. -/
theorem begun_eq_nil {buf : List UInt8} (h : castSplit buf = buf.length) {a : UInt8}
    (hcont : continues (begun buf) a = true) : begun buf = [] := by
  by_contra hne
  obtain ⟨lead, more, hseq⟩ := exists_cons_of_ne_nil hne
  obtain ⟨front, hfront⟩ := begun_suffix buf
  have hbegun := begun_begun buf
  rw [hseq] at hcont hfront hbegun
  have hneed := (of_continues hcont).1
  have hshort : width lead ≤ 4 := by
    unfold width
    split_ifs
    all_goals omega
  have hlength : buf.length = front.length + (more.length + 1) := by
    rw [← hfront, length_append, length_cons]
  rw [length_cons] at hneed
  have htails : ∀ b ∈ more, isTail b = true := hbegun
  have hfound := castLookBack_lead front htails hneed (k := 1) (n := min 3 buf.length)
    le_rfl (by omega) (by omega)
  rw [hfront] at hfound
  unfold castSplit at h
  omega

/-- What is emitted is decoded as it would be with all that follows. -/
theorem lossy_split (buf rest : List UInt8) :
    lossy (buf ++ rest) =
      lossy (buf.take (castSplit buf)) ++ lossy (buf.drop (castSplit buf) ++ rest) := by
  rcases castSplit_cases buf with h | ⟨lead, more, hdrop, hlead, -⟩
  · rw [h, take_length, drop_length, nil_append]
    exact lossy_append fun _ _ => begun_eq_nil h
  · conv_lhs => rw [← take_append_drop (castSplit buf) buf, append_assoc]
    refine lossy_append fun a ha => ?_
    rw [hdrop, cons_append] at ha
    obtain rfl := Option.some.inj ha
    exact not_continues_lead hlead

/-- What is said and what is still carried make up the stream so far. -/
structure Recorded {τ : Type} (stream : List UInt8) (s : CastWriter τ × List (CastLine τ)) :
    Prop where
  said : ∀ rest, s.2.flatMap CastLine.data ++ lossy (s.1.carry ++ rest) = lossy (stream ++ rest)
  short : s.1.carry.length ≤ 3

section

variable {τ : Type} (clock : CastClock τ)

theorem recorded_new (epoch : Nat) : Recorded [] (CastWriter.new clock epoch, []) where
  said _ := rfl
  short := Nat.zero_le 3

theorem Recorded.step {stream : List UInt8} {s : CastWriter τ × List (CastLine τ)}
    (h : Recorded stream s) (event : CastEvent) :
    Recorded (stream ++ event.bytes) (CastWriter.step clock s event) := by
  cases event with
  | resize cols rows at' =>
    refine ⟨fun rest => ?_, h.short⟩
    show (s.2 ++ [CastLine.resize _ cols rows]).flatMap CastLine.data ++
      lossy (s.1.carry ++ rest) = lossy (stream ++ [] ++ rest)
    rw [flatMap_append, flatMap_singleton, append_nil stream, ← h.said]
    exact congrArg (· ++ _) (append_nil _)
  | output data at' =>
    have hsplit := lossy_split (s.1.carry ++ data)
    have hshort : ((s.1.carry ++ data).drop (castSplit (s.1.carry ++ data))).length ≤ 3 := by
      rcases castSplit_cases (s.1.carry ++ data) with hall | ⟨lead, more, hdrop, -, hmore⟩
      · rw [hall, drop_length]
        exact Nat.zero_le 3
      · rw [hdrop, length_cons]
        omega
    unfold CastWriter.step CastWriter.outputLine castCompletePrefix
    dsimp only
    by_cases hzero : castSplit (s.1.carry ++ data) = 0
    · rw [if_pos hzero]
      rw [hzero, drop_zero] at hshort
      refine ⟨fun rest => ?_, hshort⟩
      show (s.2 ++ []).flatMap CastLine.data ++ lossy (s.1.carry ++ data ++ rest) = _
      rw [append_nil, append_assoc, h.said, append_assoc]
      rfl
    · rw [if_neg hzero]
      refine ⟨fun rest => ?_, hshort⟩
      show (s.2 ++ [CastLine.output _ (lossy _)]).flatMap CastLine.data ++
        lossy ((s.1.carry ++ data).drop (castSplit (s.1.carry ++ data)) ++ rest) = _
      rw [flatMap_append, flatMap_singleton, append_assoc]
      show s.2.flatMap CastLine.data ++ (lossy _ ++ lossy _) = _
      rw [← hsplit rest, append_assoc, h.said, append_assoc]
      rfl

theorem recorded_record (epoch : Nat) (events : List CastEvent) :
    Recorded (events.flatMap CastEvent.bytes) (CastWriter.record clock epoch events) := by
  induction events using List.reverseRecOn with
  | nil => exact recorded_new clock epoch
  | append_singleton events event ih =>
    unfold CastWriter.record at ih ⊢
    rw [flatMap_append, foldl_append, flatMap_singleton]
    exact ih.step clock event

theorem flushLine_data (writer : CastWriter τ) :
    (writer.flushLine.2.toList.flatMap CastLine.data) = lossy writer.carry := by
  unfold CastWriter.flushLine
  by_cases h : writer.carry = []
  · rw [if_pos h, h]
    rfl
  · rw [if_neg h]
    exact append_nil _

/-- The lines of a recording and its last flush say the whole stream, however it was cut into
chunks, and at no time are more than three bytes carried. -/
theorem record_lossy (epoch : Nat) (events : List CastEvent) :
    ((CastWriter.record clock epoch events).2 ++
        (CastWriter.record clock epoch events).1.flushLine.2.toList).flatMap CastLine.data =
      lossy (events.flatMap CastEvent.bytes) ∧
      (CastWriter.record clock epoch events).1.carry.length ≤ 3 := by
  have h := recorded_record clock epoch events
  refine ⟨?_, h.short⟩
  have hsaid := h.said []
  rw [append_nil, append_nil] at hsaid
  rw [flatMap_append, flushLine_data]
  exact hsaid

end

end Shux.Vt
