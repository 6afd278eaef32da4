/-
# Base64

Bytes as letters of the standard alphabet: three bytes make a quantum of four letters, and
padding completes the last one. The decoder takes the last quantum with its padding or
without it, and refuses bits left over that are not zero.
-/

import Mathlib.Tactic

namespace Base64

open UInt8

variable (bytes : List UInt8)

/-- The letter of six bits. -/
def letter (n : Nat) : UInt8 :=
  if n < 26 then ofNat (0x41 + n)
  else if n < 52 then ofNat (0x61 + (n - 26))
  else if n < 62 then ofNat (0x30 + (n - 52))
  else if n = 62 then 0x2b
  else 0x2f

/-- The six bits of a letter. -/
def bits (b : UInt8) : Option Nat :=
  if 0x41 ≤ b && b ≤ 0x5a then some (b.toNat - 0x41)
  else if 0x61 ≤ b && b ≤ 0x7a then some (b.toNat - 0x61 + 26)
  else if 0x30 ≤ b && b ≤ 0x39 then some (b.toNat - 0x30 + 52)
  else if b = 0x2b then some 62
  else if b = 0x2f then some 63
  else none

def padding : UInt8 := 0x3d

def encode : List UInt8 → List UInt8
  | [] => []
  | [a] => [letter (a.toNat / 4), letter (a.toNat % 4 * 16), padding, padding]
  | [a, b] =>
    [letter (a.toNat / 4), letter (a.toNat % 4 * 16 + b.toNat / 16), letter (b.toNat % 16 * 4),
      padding]
  | a :: b :: c :: rest =>
    letter (a.toNat / 4) :: letter (a.toNat % 4 * 16 + b.toNat / 16) ::
      letter (b.toNat % 16 * 4 + c.toNat / 64) :: letter (c.toNat % 64) :: encode rest

/-- One byte from two letters. -/
def decodeOne (w x : UInt8) : Option (List UInt8) := do
  let w ← bits w
  let x ← bits x
  if x % 16 = 0 then some [ofNat (w * 4 + x / 16)] else none

/-- Two bytes from three letters. -/
def decodeTwo (w x y : UInt8) : Option (List UInt8) := do
  let w ← bits w
  let x ← bits x
  let y ← bits y
  if y % 4 = 0 then some [ofNat (w * 4 + x / 16), ofNat (x % 16 * 16 + y / 4)]
  else none

/-- Three bytes from four letters. -/
def decodeThree (w x y z : UInt8) : Option (List UInt8) := do
  let w ← bits w
  let x ← bits x
  let y ← bits y
  let z ← bits z
  some [ofNat (w * 4 + x / 16), ofNat (x % 16 * 16 + y / 4), ofNat (y % 4 * 64 + z)]

def decode : List UInt8 → Option (List UInt8)
  | [] => some []
  | [_] => none
  | [w, x] => decodeOne w x
  | [w, x, y] => if y = padding then decodeOne w x else decodeTwo w x y
  | w :: x :: y :: z :: rest =>
    if rest = [] ∧ y = padding ∧ z = padding then decodeOne w x
    else if rest = [] ∧ z = padding then decodeTwo w x y
    else do
      let front ← decodeThree w x y z
      let back ← decode rest
      some (front ++ back)

theorem bits_letter {n : Nat} (h : n < 64) : bits (letter n) = some n := by
  have : ∀ n < 64, bits (letter n) = some n := by decide
  exact this n h

theorem letter_ne_padding {n : Nat} (h : n < 64) : letter n ≠ padding := by
  have : ∀ n < 64, letter n ≠ padding := by decide
  exact this n h

theorem letter_mem {n : Nat} (h : n < 64) : ((0x30 ≤ letter n && letter n ≤ 0x39) ||
    (0x41 ≤ letter n && letter n ≤ 0x5a) || (0x61 ≤ letter n && letter n ≤ 0x7a)) = true ∨
      letter n = 0x2b ∨ letter n = 0x2f := by
  have : ∀ n < 64, ((0x30 ≤ letter n && letter n ≤ 0x39) ||
      (0x41 ≤ letter n && letter n ≤ 0x5a) || (0x61 ≤ letter n && letter n ≤ 0x7a)) = true ∨
        letter n = 0x2b ∨ letter n = 0x2f := by decide
  exact this n h

theorem decodeOne_letter (a : UInt8) :
    decodeOne (letter (a.toNat / 4)) (letter (a.toNat % 4 * 16)) = some [a] := by
  have ha := a.toNat_lt
  unfold decodeOne
  rw [bits_letter (by omega), bits_letter (by omega)]
  show (if a.toNat % 4 * 16 % 16 = 0 then _ else _) = _
  rw [if_pos (by omega), show a.toNat / 4 * 4 + a.toNat % 4 * 16 / 16 = a.toNat by omega,
    UInt8.ofNat_toNat]

theorem decodeTwo_letter (a b : UInt8) :
    decodeTwo (letter (a.toNat / 4)) (letter (a.toNat % 4 * 16 + b.toNat / 16))
      (letter (b.toNat % 16 * 4)) = some [a, b] := by
  have ha := a.toNat_lt
  have hb := b.toNat_lt
  unfold decodeTwo
  rw [bits_letter (by omega), bits_letter (by omega), bits_letter (by omega)]
  show (if b.toNat % 16 * 4 % 4 = 0 then _ else _) = _
  rw [if_pos (by omega),
    show a.toNat / 4 * 4 + (a.toNat % 4 * 16 + b.toNat / 16) / 16 = a.toNat by omega,
    show (a.toNat % 4 * 16 + b.toNat / 16) % 16 * 16 + b.toNat % 16 * 4 / 4 = b.toNat by omega,
    UInt8.ofNat_toNat, UInt8.ofNat_toNat]

theorem decodeThree_letter (a b c : UInt8) :
    decodeThree (letter (a.toNat / 4)) (letter (a.toNat % 4 * 16 + b.toNat / 16))
      (letter (b.toNat % 16 * 4 + c.toNat / 64)) (letter (c.toNat % 64)) = some [a, b, c] := by
  have ha := a.toNat_lt
  have hb := b.toNat_lt
  have hc := c.toNat_lt
  unfold decodeThree
  rw [bits_letter (by omega), bits_letter (by omega), bits_letter (by omega),
    bits_letter (by omega)]
  show some [_, _, _] = _
  rw [show a.toNat / 4 * 4 + (a.toNat % 4 * 16 + b.toNat / 16) / 16 = a.toNat by omega,
    show (a.toNat % 4 * 16 + b.toNat / 16) % 16 * 16 +
      (b.toNat % 16 * 4 + c.toNat / 64) / 4 = b.toNat by omega,
    show (b.toNat % 16 * 4 + c.toNat / 64) % 4 * 64 + c.toNat % 64 = c.toNat by omega,
    UInt8.ofNat_toNat, UInt8.ofNat_toNat, UInt8.ofNat_toNat]

/-- The decoder takes back what the encoder made. -/
theorem decode_encode : decode (encode bytes) = some bytes := by
  induction bytes using encode.induct with
  | case1 => rfl
  | case2 a =>
    unfold encode decode
    rw [if_pos ⟨rfl, rfl, rfl⟩, decodeOne_letter]
  | case3 a b =>
    have hb := b.toNat_lt
    unfold encode decode
    rw [if_neg fun h => letter_ne_padding (by omega) h.2.1, if_pos ⟨rfl, rfl⟩, decodeTwo_letter]
  | case4 a b c rest ih =>
    have hz : letter (c.toNat % 64) ≠ padding := letter_ne_padding (Nat.mod_lt _ (by decide))
    unfold encode decode
    rw [if_neg fun h => hz h.2.2, if_neg fun h => hz h.2, decodeThree_letter]
    show (do
      let back ← decode (encode rest)
      some ([a, b, c] ++ back)) = _
    rw [ih]
    rfl

theorem length_encode : (encode bytes).length = 4 * ((bytes.length + 2) / 3) := by
  induction bytes using encode.induct with
  | case1 => rfl
  | case2 a | case3 a b => simp only [encode, List.length_cons, List.length_nil]
  | case4 a b c rest ih =>
    unfold encode
    simp only [List.length_cons]
    rw [ih]
    omega

/-- Letters, and at most two padding bytes after them. -/
theorem padded :
    ∃ body pad, encode bytes = body ++ List.replicate pad padding ∧ pad ≤ 2 ∧
      ∀ b ∈ body, ∃ n < 64, b = letter n := by
  induction bytes using encode.induct with
  | case1 => exact ⟨[], 0, rfl, by decide, fun b hb => by cases hb⟩
  | case2 a =>
    have ha := a.toNat_lt
    refine ⟨[_, _], 2, rfl, by decide, fun b hb => ?_⟩
    rw [List.mem_pair] at hb
    rcases hb with rfl | rfl
    · exact ⟨_, by omega, rfl⟩
    · exact ⟨_, by omega, rfl⟩
  | case3 a b =>
    have ha := a.toNat_lt
    have hb := b.toNat_lt
    refine ⟨[_, _, _], 1, rfl, by decide, fun x hx => ?_⟩
    rw [List.mem_cons, List.mem_pair] at hx
    rcases hx with rfl | rfl | rfl
    · exact ⟨_, by omega, rfl⟩
    · exact ⟨_, by omega, rfl⟩
    · exact ⟨_, by omega, rfl⟩
  | case4 a b c rest ih =>
    have ha := a.toNat_lt
    have hb := b.toNat_lt
    have hc := c.toNat_lt
    obtain ⟨body, pad, heq, hpad, hbody⟩ := ih
    refine ⟨_ :: _ :: _ :: _ :: body, pad, by unfold encode; rw [heq]; rfl, hpad, fun x hx => ?_⟩
    simp only [List.mem_cons] at hx
    rcases hx with rfl | rfl | rfl | rfl | hx
    · exact ⟨_, by omega, rfl⟩
    · exact ⟨_, by omega, rfl⟩
    · exact ⟨_, by omega, rfl⟩
    · exact ⟨_, by omega, rfl⟩
    · exact hbody x hx

end Base64
