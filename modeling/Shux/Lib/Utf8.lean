/-
# Lossy decoding

Bytes are cut into sequences, each as long as it can still become a well-formed character, and
each sequence is one character: its own when it is complete, and the replacement character
otherwise. The cut depends on what was read before through the sequence that is begun and
nothing else, so a stream may be decoded in pieces wherever the next byte begins a sequence of
its own.
-/

import Mathlib.Tactic

namespace Utf8

open List UInt8

variable {a : UInt8}

/-- How many bytes the character of a lead has; none where no character begins so. -/
def width (lead : UInt8) : Nat :=
  if lead < 0x80 then 1
  else if lead < 0xC2 then 0
  else if lead < 0xE0 then 2
  else if lead < 0xF0 then 3
  else if lead < 0xF5 then 4
  else 0

def isTail (b : UInt8) : Bool := 0x80 ≤ b && b < 0xC0

/-- The second byte is neither of an overlong form nor of a surrogate, nor past the last
character. -/
def isSecond (lead b : UInt8) : Bool :=
  isTail b && (lead != 0xE0 || 0xA0 ≤ b) && (lead != 0xED || b < 0xA0) &&
    (lead != 0xF0 || 0x90 ≤ b) && (lead != 0xF4 || b < 0x90)

/-- Whether a byte may stand behind a sequence that is begun. -/
def continues : List UInt8 → UInt8 → Bool
  | [], _ => true
  | [lead], b => decide (1 < width lead) && isSecond lead b
  | lead :: _ :: more, b => decide (more.length + 2 < width lead) && isTail b

/-- The sequences of bytes that follow a sequence that is begun. -/
def segmentsFrom (seq : List UInt8) : List UInt8 → List (List UInt8)
  | [] => if seq = [] then [] else [seq]
  | b :: rest =>
    if continues seq b then segmentsFrom (seq ++ [b]) rest else seq :: segmentsFrom [b] rest

def segments (bytes : List UInt8) : List (List UInt8) := segmentsFrom [] bytes

def replacement : Char := Char.ofNat 0xFFFD

/-- The low bits of a byte behind the lead. -/
def tailBits (b : UInt8) : Nat := b.toNat % 64

/-- The character of a sequence. -/
def glyph : List UInt8 → Char
  | [a] => if width a = 1 then Char.ofNat a.toNat else replacement
  | [a, b] => if width a = 2 then Char.ofNat (a.toNat % 32 * 64 + tailBits b) else replacement
  | [a, b, c] =>
    if width a = 3 then Char.ofNat ((a.toNat % 16 * 64 + tailBits b) * 64 + tailBits c)
    else replacement
  | [a, b, c, d] =>
    if width a = 4 then
      Char.ofNat (((a.toNat % 8 * 64 + tailBits b) * 64 + tailBits c) * 64 + tailBits d)
    else replacement
  | _ => replacement

/-- The text of bytes, with a replacement character for what is no character. -/
def lossy (bytes : List UInt8) : List Char := (segments bytes).map glyph

/-- The sequence that is begun behind bytes. -/
def begunFrom (seq : List UInt8) : List UInt8 → List UInt8
  | [] => seq
  | b :: rest => if continues seq b then begunFrom (seq ++ [b]) rest else begunFrom [b] rest

def begun (bytes : List UInt8) : List UInt8 := begunFrom [] bytes

/-- A byte that does not continue the sequence that is begun begins its own. -/
theorem segmentsFrom_append (seq front back : List UInt8)
    (h : continues (begunFrom seq front) a = true → begunFrom seq front = []) :
    segmentsFrom seq (front ++ a :: back) = segmentsFrom seq front ++ segments (a :: back) := by
  induction front generalizing seq with
  | nil =>
    change continues seq a = true → seq = [] at h
    by_cases hseq : seq = []
    · rw [hseq]
      rfl
    · have hno : ¬continues seq a = true := fun hyes => hseq (h hyes)
      show segmentsFrom seq (a :: back) = segmentsFrom seq [] ++ segmentsFrom [a] back
      rw [segmentsFrom, segmentsFrom, if_neg hno, if_neg hseq]
      rfl
  | cons b front ih =>
    rw [begunFrom] at h
    rw [cons_append, segmentsFrom, segmentsFrom]
    by_cases hb : continues seq b = true
    · rw [if_pos hb] at h
      rw [if_pos hb, if_pos hb]
      exact ih (seq ++ [b]) h
    · rw [if_neg hb] at h
      rw [if_neg hb, if_neg hb, ih [b] h]
      rfl

/-- Bytes are decoded in two pieces where the second begins a sequence. -/
theorem lossy_append {front back : List UInt8}
    (h : ∀ a ∈ back.head?, continues (begun front) a = true → begun front = []) :
    lossy (front ++ back) = lossy front ++ lossy back := by
  cases back with
  | nil =>
    rw [append_nil]
    exact (append_nil _).symm
  | cons a back =>
    unfold lossy segments
    rw [segmentsFrom_append [] front back (h a rfl), map_append]
    rfl

/-- A lead and bytes behind it. -/
def Begun (seq : List UInt8) : Prop := ∀ b ∈ seq.tail, isTail b = true

theorem isTail_of_isSecond {lead b : UInt8} (h : isSecond lead b = true) : isTail b = true := by
  unfold isSecond at h
  simp only [Bool.and_eq_true] at h
  exact h.1.1.1.1

theorem of_continues {lead b : UInt8} {more : List UInt8} (h : continues (lead :: more) b = true) :
    (lead :: more).length < width lead ∧ isTail b = true := by
  cases more with
  | nil =>
    have h := (Bool.and_eq_true _ _).mp h
    exact ⟨of_decide_eq_true h.1, isTail_of_isSecond h.2⟩
  | cons c more =>
    have h := (Bool.and_eq_true _ _).mp h
    exact ⟨of_decide_eq_true h.1, h.2⟩

namespace Begun

theorem nil : Begun [] := fun _ hb => absurd hb not_mem_nil

theorem singleton (b : UInt8) : Begun [b] := fun _ hc => absurd hc not_mem_nil

theorem push {seq : List UInt8} {b : UInt8} (h : Begun seq) (hb : continues seq b = true) :
    Begun (seq ++ [b]) := by
  cases seq with
  | nil => exact singleton b
  | cons lead more =>
    intro c hc
    rcases List.mem_append.mp hc with hc | hc
    · exact h c hc
    · exact List.mem_singleton.mp hc ▸ (of_continues hb).2

theorem begunFrom {seq : List UInt8} (h : Begun seq) (bytes : List UInt8) :
    Begun (begunFrom seq bytes) := by
  induction bytes generalizing seq with
  | nil => exact h
  | cons b rest ih =>
    rw [Utf8.begunFrom]
    by_cases hb : continues seq b = true
    · rw [if_pos hb]
      exact ih (h.push hb)
    · rw [if_neg hb]
      exact ih (singleton b)

end Begun

theorem begunFrom_suffix (seq bytes : List UInt8) : begunFrom seq bytes <:+ seq ++ bytes := by
  induction bytes generalizing seq with
  | nil => rw [append_nil]; exact suffix_rfl
  | cons b rest ih =>
    rw [begunFrom]
    by_cases hb : continues seq b = true
    · rw [if_pos hb]
      have h := ih (seq ++ [b])
      rwa [append_assoc] at h
    · rw [if_neg hb]
      exact (ih [b]).trans (suffix_append seq (b :: rest))

/-- What is begun stands at the end of the bytes. -/
theorem begun_suffix (bytes : List UInt8) : begun bytes <:+ bytes := begunFrom_suffix [] bytes

theorem begun_begun (bytes : List UInt8) : Begun (begun bytes) := Begun.nil.begunFrom bytes

theorem toNat_ofNat {n : Nat} (h : n < 256) : (ofNat n).toNat = n := by
  rw [toNat_ofNat']
  exact Nat.mod_eq_of_lt h

theorem isTail_ofNat {n : Nat} (h : 0x80 ≤ n) (h' : n < 0xC0) : isTail (ofNat n) = true := by
  have hn : (ofNat n).toNat = n := toNat_ofNat (by omega)
  unfold isTail
  rw [Bool.and_eq_true, decide_eq_true_eq, decide_eq_true_eq, le_iff_toNat_le, lt_iff_toNat_lt, hn]
  exact ⟨h, h'⟩

theorem width_eq (lead : UInt8) : width lead =
    if lead.toNat < 0x80 then 1 else if lead.toNat < 0xC2 then 0 else if lead.toNat < 0xE0 then 2
    else if lead.toNat < 0xF0 then 3 else if lead.toNat < 0xF5 then 4 else 0 := by
  unfold width
  simp only [lt_iff_toNat_lt]
  rfl

theorem isSecond_eq (lead b : UInt8) : isSecond lead b = true ↔ isTail b = true ∧
    (lead.toNat = 0xE0 → 0xA0 ≤ b.toNat) ∧ (lead.toNat = 0xED → b.toNat < 0xA0) ∧
    (lead.toNat = 0xF0 → 0x90 ≤ b.toNat) ∧ (lead.toNat = 0xF4 → b.toNat < 0x90) := by
  unfold isSecond
  simp only [Bool.and_eq_true, Bool.or_eq_true, decide_eq_true_eq, bne_iff_ne, ne_eq,
    le_iff_toNat_le, lt_iff_toNat_lt, ← UInt8.toNat_inj, and_assoc,
    ← imp_iff_not_or]
  rfl

/-- The bytes of a character are one sequence, and its glyph is the character. -/
structure Spells (seq : List UInt8) (c : Char) : Prop where
  whole : ∀ rest, segmentsFrom [] (seq ++ rest) = segmentsFrom seq rest
  closed : ∀ b, continues seq b = false
  ne_nil : seq ≠ []
  glyph : glyph seq = c

theorem spells_one (ha : width a = 1) : Spells [a] (Char.ofNat a.toNat) where
  whole _ := rfl
  closed b := by
    show (decide (1 < width a) && isSecond a b) = false
    rw [ha]
    rfl
  ne_nil := cons_ne_nil _ _
  glyph := if_pos ha

/-- Bytes that continue a sequence as long as its lead allows go to the sequence. -/
theorem segmentsFrom_tails {b : UInt8} (tail more rest : List UInt8)
    (htail : ∀ c ∈ tail, isTail c = true) (hroom : more.length + 2 + tail.length ≤ width a) :
    segmentsFrom (a :: b :: more) (tail ++ rest) =
      segmentsFrom (a :: b :: (more ++ tail)) rest := by
  induction tail generalizing more with
  | nil => rw [nil_append, append_nil]
  | cons c tail ih =>
    rw [forall_mem_cons] at htail
    rw [length_cons] at hroom
    have hcont : continues (a :: b :: more) c = true := by
      show (decide (more.length + 2 < width a) && isTail c) = true
      rw [decide_eq_true (by omega), htail.1]
      rfl
    rw [cons_append, segmentsFrom, if_pos hcont]
    refine (ih (more ++ [c]) htail.2 ?_).trans (by rw [append_assoc, singleton_append])
    rw [length_append, length_singleton]
    omega

/-- A lead and as many bytes behind it as it asks for. -/
theorem spells_tails {b : UInt8} {more : List UInt8} {c : Char}
    (ha : width a = more.length + 2) (hb : isSecond a b = true)
    (hmore : ∀ c ∈ more, isTail c = true) (hglyph : glyph (a :: b :: more) = c) :
    Spells (a :: b :: more) c where
  whole rest := by
    have hcont : continues [a] b = true := by
      show (decide (1 < width a) && isSecond a b) = true
      rw [decide_eq_true (by omega), hb]
      rfl
    show segmentsFrom [a] (b :: (more ++ rest)) = segmentsFrom (a :: b :: more) rest
    rw [segmentsFrom, if_pos hcont]
    exact segmentsFrom_tails more [] rest hmore (by rw [length_nil]; omega)
  closed x := by
    show (decide (more.length + 2 < width a) && isTail x) = false
    rw [decide_eq_false (by omega)]
    rfl
  ne_nil := cons_ne_nil _ _
  glyph := hglyph

theorem spells_two {b : UInt8} (ha : width a = 2) (hb : isSecond a b = true) :
    Spells [a, b] (Char.ofNat (a.toNat % 32 * 64 + tailBits b)) :=
  spells_tails ha hb (forall_mem_nil _) (if_pos ha)

theorem spells_three {b c : UInt8} (ha : width a = 3) (hb : isSecond a b = true)
    (hc : isTail c = true) :
    Spells [a, b, c] (Char.ofNat ((a.toNat % 16 * 64 + tailBits b) * 64 + tailBits c)) :=
  spells_tails ha hb (forall_mem_singleton.mpr hc) (if_pos ha)

theorem spells_four {b c d : UInt8} (ha : width a = 4) (hb : isSecond a b = true)
    (hc : isTail c = true) (hd : isTail d = true) :
    Spells [a, b, c, d] (Char.ofNat
      (((a.toNat % 8 * 64 + tailBits b) * 64 + tailBits c) * 64 + tailBits d)) :=
  spells_tails ha hb (forall_mem_cons.mpr ⟨hc, forall_mem_singleton.mpr hd⟩) (if_pos ha)

theorem width_ofNat {n : Nat} (h : n < 256) : width (ofNat n) =
    if n < 0x80 then 1 else if n < 0xC2 then 0 else if n < 0xE0 then 2
    else if n < 0xF0 then 3 else if n < 0xF5 then 4 else 0 := by
  rw [width_eq, toNat_ofNat h]

theorem isSecond_ofNat {n m : Nat} (hn : n < 256) (hm : 0x80 ≤ m ∧ m < 0xC0)
    (h : (n = 0xE0 → 0xA0 ≤ m) ∧ (n = 0xED → m < 0xA0) ∧ (n = 0xF0 → 0x90 ≤ m) ∧
      (n = 0xF4 → m < 0x90)) : isSecond (ofNat n) (ofNat m) = true := by
  rw [isSecond_eq, toNat_ofNat hn, toNat_ofNat (by omega : m < 256)]
  exact ⟨isTail_ofNat hm.1 hm.2, h⟩

theorem tailBits_ofNat (n : Nat) : tailBits (ofNat (n % 64 + 0x80)) = n % 64 := by
  rw [tailBits, toNat_ofNat (by omega)]
  omega

theorem spells_encode (c : Char) : Spells (String.utf8EncodeChar c) c := by
  have hvalid : c.val.toNat < 0xD800 ∨ 0xDFFF < c.val.toNat ∧ c.val.toNat < 0x110000 := c.valid
  have hself : Char.ofNat c.val.toNat = c := Char.ofNat_toNat c
  unfold String.utf8EncodeChar
  dsimp only
  generalize c.val.toNat = v at hvalid hself
  split_ifs with hone htwo hthree
  · have h := spells_one (a := ofNat v) (by
      rw [width_ofNat (by omega), if_pos (by omega)])
    rwa [toNat_ofNat (by omega), hself] at h
  · have h := spells_two (a := ofNat (v / 64 % 32 + 0xC0))
      (b := ofNat (v % 64 + 0x80))
      (by rw [width_ofNat (by omega), if_neg (by omega), if_neg (by omega), if_pos (by omega)])
      (isSecond_ofNat (by omega) (by omega) (by omega))
    rw [tailBits_ofNat, toNat_ofNat (by omega)] at h
    rwa [show (v / 64 % 32 + 0xC0) % 32 * 64 + v % 64 = v by omega, hself] at h
  · have h := spells_three (a := ofNat (v / 4096 % 16 + 0xE0))
      (b := ofNat (v / 64 % 64 + 0x80)) (c := ofNat (v % 64 + 0x80))
      (by
        rw [width_ofNat (by omega), if_neg (by omega), if_neg (by omega), if_neg (by omega),
          if_pos (by omega)])
      (isSecond_ofNat (by omega) (by omega) (by omega)) (isTail_ofNat (by omega) (by omega))
    rw [tailBits_ofNat, tailBits_ofNat, toNat_ofNat (by omega)] at h
    rwa [show ((v / 4096 % 16 + 0xE0) % 16 * 64 + v / 64 % 64) * 64 + v % 64 = v by omega,
      hself] at h
  · have h := spells_four (a := ofNat (v / 262144 % 8 + 0xF0))
      (b := ofNat (v / 4096 % 64 + 0x80)) (c := ofNat (v / 64 % 64 + 0x80))
      (d := ofNat (v % 64 + 0x80))
      (by
        rw [width_ofNat (by omega), if_neg (by omega), if_neg (by omega), if_neg (by omega),
          if_neg (by omega), if_pos (by omega)])
      (isSecond_ofNat (by omega) (by omega) (by omega)) (isTail_ofNat (by omega) (by omega))
      (isTail_ofNat (by omega) (by omega))
    rw [tailBits_ofNat, tailBits_ofNat, tailBits_ofNat, toNat_ofNat (by omega)] at h
    rwa [show ((((v / 262144 % 8 + 0xF0) % 8 * 64 + v / 4096 % 64) * 64 + v / 64 % 64) * 64 +
      v % 64) = v by omega, hself] at h

/-- A whole sequence is decoded alone. -/
theorem Spells.lossy_append {seq : List UInt8} {c : Char} (h : Spells seq c)
    (rest : List UInt8) : lossy (seq ++ rest) = c :: lossy rest := by
  unfold lossy segments
  rw [h.whole]
  cases rest with
  | nil =>
    rw [segmentsFrom, if_neg h.ne_nil, map_singleton, h.glyph]
    rfl
  | cons b rest =>
    rw [segmentsFrom, if_neg (by rw [h.closed b]; exact Bool.false_ne_true), map_cons, h.glyph]
    rfl

/-- Text is decoded as it was. -/
theorem lossy_encode (text : List Char) : lossy (text.flatMap String.utf8EncodeChar) = text := by
  induction text with
  | nil => rfl
  | cons c text ih => rw [flatMap_cons, (spells_encode c).lossy_append, ih]

end Utf8
