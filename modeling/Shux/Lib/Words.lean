/-
# Words of a line

A line falls into words at blanks. Inside quotes every symbol stands for itself, up to the next
quote; outside them an escape makes the next symbol stand for itself, and a special symbol, or
one that may not lead a word, means more than itself: such a line is not just words.

A text spells a word when the splitter reads it as that word, wherever a word may begin. Texts
that spell words, joined by a blank, are read as these words.
-/

import Mathlib.Data.List.Flatten
import Mathlib.Tactic

namespace Words

open List

/-- The symbols that are not just themselves. -/
structure Rules (α : Type) where
  blank : α → Bool
  quote : α
  escape : α
  special : α → Bool
  leading : α → Bool

/-- Where the splitter is: between words, in a word, inside quotes, behind an escape, or at a
symbol that makes the line more than words. -/
inductive Mode (α : Type) where
  | gap
  | bare (word : List α)
  | quoted (word : List α)
  | escaped (word : List α)
  | stuck

/-- The words so far, and where the splitter is. -/
structure Splitter (α : Type) where
  words : List (List α)
  mode : Mode α

variable {α : Type} [DecidableEq α] (R : Rules α)

/-- Go on with a word, or begin one. -/
def Splitter.symbol (s : Splitter α) (word : List α) (stops : Bool) (c : α) : Splitter α :=
  if c = R.quote then ⟨s.words, .quoted word⟩
  else if c = R.escape then ⟨s.words, .escaped word⟩
  else if stops then ⟨s.words, .stuck⟩
  else ⟨s.words, .bare (word ++ [c])⟩

def Splitter.step (s : Splitter α) (c : α) : Splitter α :=
  match s.mode with
  | .gap => if R.blank c then s else s.symbol R [] (R.special c || R.leading c) c
  | .bare word => if R.blank c then ⟨s.words ++ [word], .gap⟩ else s.symbol R word (R.special c) c
  | .quoted word => if c = R.quote then ⟨s.words, .bare word⟩ else ⟨s.words, .quoted (word ++ [c])⟩
  | .escaped word => ⟨s.words, .bare (word ++ [c])⟩
  | .stuck => s

def Splitter.run (s : Splitter α) (line : List α) : Splitter α := line.foldl (Splitter.step R) s

/-- The words of a line that is nothing but words. -/
def split (line : List α) : Option (List (List α)) :=
  let s := (Splitter.mk [] .gap).run R line
  match s.mode with
  | .gap => some s.words
  | .bare word => some (s.words ++ [word])
  | _ => none

variable {R} {text : List α}

theorem run_append (s : Splitter α) (xs ys : List α) : s.run R (xs ++ ys) = (s.run R xs).run R ys :=
  foldl_append

/-- A symbol that stands for itself inside a word. -/
structure Rules.Plain (R : Rules α) (c : α) : Prop where
  blank : R.blank c = false
  quote : c ≠ R.quote
  escape : c ≠ R.escape
  special : R.special c = false

/-- A text is read as a word, wherever a word may begin. -/
def Spells (R : Rules α) (text word : List α) : Prop :=
  ∀ words, (Splitter.mk words .gap).run R text = ⟨words, .bare word⟩

theorem run_plain (h : ∀ c ∈ text, R.Plain c) (words : List (List α))
    (word : List α) :
    (Splitter.mk words (.bare word)).run R text = ⟨words, .bare (word ++ text)⟩ := by
  induction text generalizing word with
  | nil => rw [append_nil]; rfl
  | cons c text ih =>
    have hc := h c mem_cons_self
    have hstep : (Splitter.mk words (.bare word)).step R c = ⟨words, .bare (word ++ [c])⟩ := by
      simp [Splitter.step, Splitter.symbol, hc.blank, hc.quote, hc.escape, hc.special]
    have hrest := ih (fun d hd => h d (mem_cons_of_mem _ hd)) (word ++ [c])
    rw [append_assoc, singleton_append] at hrest
    unfold Splitter.run at hrest ⊢
    rw [foldl_cons, hstep, hrest]

/-- Plain symbols spell themselves, unless the first one may not lead a word. -/
theorem spells_plain {c : α} (hlead : R.leading c = false)
    (h : ∀ d ∈ c :: text, R.Plain d) : Spells R (c :: text) (c :: text) := by
  intro words
  have hc := h c mem_cons_self
  have hstep : (Splitter.mk words .gap).step R c = ⟨words, .bare [c]⟩ := by
    simp [Splitter.step, Splitter.symbol, hc.blank, hc.quote, hc.escape, hc.special, hlead]
  have hrest := run_plain (fun d hd => h d (mem_cons_of_mem _ hd)) words [c]
  unfold Splitter.run at hrest ⊢
  rw [foldl_cons, hstep, hrest]
  rfl

/-- A word inside quotes, each quote of its own spliced in between two quoted parts. -/
def enquote (R : Rules α) (word : List α) : List α :=
  R.quote :: word.flatMap (fun c => if c = R.quote then [R.quote, R.escape, R.quote, R.quote]
    else [c]) ++ [R.quote]

/-- Quotes do not stand for anything else. -/
structure Rules.Quotes (R : Rules α) : Prop where
  quote : R.blank R.quote = false
  escape : R.blank R.escape = false
  apart : R.escape ≠ R.quote

theorem run_enquoted (hR : R.Quotes) (words : List (List α)) (front word : List α) :
    (Splitter.mk words (.quoted front)).run R (word.flatMap fun c => if c = R.quote then
      [R.quote, R.escape, R.quote, R.quote] else [c]) = ⟨words, .quoted (front ++ word)⟩ := by
  induction word generalizing front with
  | nil => rw [append_nil]; rfl
  | cons c word ih =>
    have hstep : (Splitter.mk words (.quoted front)).run R (if c = R.quote then
        [R.quote, R.escape, R.quote, R.quote] else [c]) = ⟨words, .quoted (front ++ [c])⟩ := by
      split
      · next hc =>
        -- close the quotes, splice the quote in, and open them again
        subst hc
        simp [Splitter.run, Splitter.step, Splitter.symbol, hR.quote, hR.escape, hR.apart]
      · next hc => simp [Splitter.run, Splitter.step, hc]
    rw [flatMap_cons, run_append, hstep, ih, append_assoc, singleton_append]

theorem spells_enquote (hR : R.Quotes) (word : List α) : Spells R (enquote R word) word := by
  intro words
  have hopen : (Splitter.mk words .gap).step R R.quote = ⟨words, .quoted []⟩ := by
    simp [Splitter.step, Splitter.symbol, hR.quote]
  have hclose : (Splitter.mk words (.quoted word)).run R [R.quote] = ⟨words, .bare word⟩ := by
    simp [Splitter.run, Splitter.step]
  have hword := run_enquoted hR words [] word
  rw [nil_append] at hword
  rw [enquote, cons_append, Splitter.run, foldl_cons, hopen, ← Splitter.run, run_append,
    hword, hclose]

/-- The words of texts that are joined by a blank. -/
theorem run_intercalate {b : α} (hb : R.blank b = true) {word : List α}
    (h : Spells R text word) {texts rest : List (List α)}
    (hrest : List.Forall₂ (Spells R) texts rest)
    (words : List (List α)) :
    ∃ front last, (Splitter.mk words .gap).run R ([b].intercalate (text :: texts)) =
      ⟨front, .bare last⟩ ∧ front ++ [last] = words ++ word :: rest := by
  induction hrest generalizing text word words with
  | nil =>
    refine ⟨words, word, ?_, rfl⟩
    rw [intercalate_singleton]
    exact h words
  | cons hnext _ ih =>
    obtain ⟨front, last, hrun, heq⟩ := ih hnext (words ++ [word])
    refine ⟨front, last, ?_, by rw [heq, append_assoc, singleton_append]⟩
    have hblank : (Splitter.mk words (.bare word)).run R [b] = ⟨words ++ [word], .gap⟩ := by
      simp [Splitter.run, Splitter.step, hb]
    rw [intercalate_cons_cons, run_append, run_append, h words, hblank, hrun]

/-- A line of texts that spell words is split into these words. -/
theorem split_intercalate {b : α} (hb : R.blank b = true) {texts words : List (List α)}
    (h : List.Forall₂ (Spells R) texts words) : split R ([b].intercalate texts) = some words := by
  cases h with
  | nil => rfl
  | cons hfirst hrest =>
    obtain ⟨front, last, hrun, heq⟩ := run_intercalate hb hfirst hrest []
    unfold split
    rw [hrun]
    exact congrArg some heq

end Words
