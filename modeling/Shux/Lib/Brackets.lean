/-
# Bracketed text in a stream

Two markers, each an escape followed by text without one, set stretches of text apart in a
stream. A stream is written as items: the markers, text inside a pair of them with its escapes
removed, and text outside. When the items take turns as they should, and no text outside spells a
marker, a reader who looks for markers in the stream finds those of the items and no others.
-/

import Mathlib.Tactic

namespace Brackets

open List

/-- The two markers, without the escape that both begin with. -/
structure Markers (α : Type) where
  esc : α
  opening : List α
  closing : List α
  opening_free : esc ∉ opening
  closing_free : esc ∉ closing
  differ : ¬ opening <+: closing
  differ' : ¬ closing <+: opening

/-- What a reader makes of a stream. -/
inductive Token (α : Type) where
  | start
  | stop
  | text (a : α)
  deriving DecidableEq

variable {α : Type} [DecidableEq α] (m : Markers α)

namespace Markers

def start : List α := m.esc :: m.opening
def stop : List α := m.esc :: m.closing

/-- Read a stream, passing over the rest of a marker that was found. -/
def scanFrom : Nat → List α → List (Token α)
  | _, [] => []
  | skip + 1, _ :: rest => scanFrom skip rest
  | 0, a :: rest =>
    if m.start <+: a :: rest then .start :: scanFrom m.opening.length rest
    else if m.stop <+: a :: rest then .stop :: scanFrom m.closing.length rest
    else .text a :: scanFrom 0 rest

def scan (stream : List α) : List (Token α) := m.scanFrom 0 stream

/-- Text that spells no marker. -/
def Clear (text : List α) : Prop := ¬ m.start <:+: text ∧ ¬ m.stop <:+: text

variable {m}

theorem scanFrom_append (text rest : List α) :
    m.scanFrom text.length (text ++ rest) = m.scan rest := by
  induction text with
  | nil => rfl
  | cons a text ih => exact ih

theorem scan_start (rest : List α) : m.scan (m.start ++ rest) = .start :: m.scan rest := by
  have hstart : m.start <+: m.esc :: (m.opening ++ rest) := ⟨rest, rfl⟩
  show m.scanFrom 0 (m.esc :: (m.opening ++ rest)) = _
  rw [scanFrom, if_pos hstart, scanFrom_append]

theorem scan_stop (rest : List α) : m.scan (m.stop ++ rest) = .stop :: m.scan rest := by
  have hstop : m.stop <+: m.esc :: (m.closing ++ rest) := ⟨rest, rfl⟩
  have hstart : ¬ m.start <+: m.esc :: (m.closing ++ rest) := by
    intro hfront
    have htail : m.opening <+: m.closing ++ rest := (List.cons_prefix_cons.1 hfront).2
    rcases prefix_or_prefix_of_prefix htail (prefix_append m.closing rest) with h | h
    · exact m.differ h
    · exact m.differ' h
  show m.scanFrom 0 (m.esc :: (m.closing ++ rest)) = _
  rw [scanFrom, if_neg hstart, if_pos hstop, scanFrom_append]

theorem scan_cons {a : α} {rest : List α} (hstart : ¬ m.start <+: a :: rest)
    (hstop : ¬ m.stop <+: a :: rest) : m.scan (a :: rest) = .text a :: m.scan rest := by
  rw [scan, scanFrom, if_neg hstart, if_neg hstop, scan]

/-- Text without escapes is read as it is. -/
theorem scan_text {text : List α} (h : m.esc ∉ text) (rest : List α) :
    m.scan (text ++ rest) = text.map .text ++ m.scan rest := by
  induction text with
  | nil => rfl
  | cons a text ih =>
    have hne : m.esc ≠ a := fun heq => h (heq ▸ mem_cons_self)
    have hstart : ¬ m.start <+: a :: (text ++ rest) :=
      fun hfront => hne (List.cons_prefix_cons.1 hfront).1
    have hstop : ¬ m.stop <+: a :: (text ++ rest) :=
      fun hfront => hne (List.cons_prefix_cons.1 hfront).1
    rw [cons_append, scan_cons hstart hstop, ih fun hmem => h (mem_cons_of_mem _ hmem)]
    rfl

omit [DecidableEq α] in
/-- A marker that begins in a text and goes on behind it needs an escape in its middle when the
stream goes on with one. -/
theorem infix_of_prefix_append {tail text rest : List α} (htail : m.esc ∉ tail)
    (hne : text ≠ []) (hrest : rest = [] ∨ ∃ more, rest = m.esc :: more)
    (h : m.esc :: tail <+: text ++ rest) : m.esc :: tail <:+: text := by
  rcases prefix_or_prefix_of_prefix h (prefix_append text rest) with hshort | hlong
  · exact hshort.isInfix
  · obtain ⟨beyond, hbeyond⟩ := hlong
    rcases hrest with rfl | ⟨more, rfl⟩
    · rw [append_nil] at h
      exact h.isInfix
    · rw [← hbeyond] at h
      have hcut : beyond <+: m.esc :: more := by
        obtain ⟨back, hback⟩ := h
        rw [append_assoc, append_cancel_left_eq] at hback
        exact ⟨back, hback⟩
      cases beyond with
      | nil =>
        rw [append_nil] at hbeyond
        rw [hbeyond]
      | cons a beyond =>
        have ha : a = m.esc := (List.cons_prefix_cons.1 hcut).1
        cases text with
        | nil => exact (hne rfl).elim
        | cons b text =>
          rw [cons_append, List.cons.injEq] at hbeyond
          refine (htail ?_).elim
          rw [← hbeyond.2, ha]
          simp

/-- Clear text before a marker, or at the end, is read as it is. -/
theorem scan_clear {text rest : List α} (h : m.Clear text)
    (hrest : rest = [] ∨ ∃ more, rest = m.esc :: more) :
    m.scan (text ++ rest) = text.map .text ++ m.scan rest := by
  induction text with
  | nil => rfl
  | cons a text ih =>
    have hstart : ¬ m.start <+: a :: (text ++ rest) := fun hfront =>
      h.1 (infix_of_prefix_append m.opening_free (by simp) hrest hfront)
    have hstop : ¬ m.stop <+: a :: (text ++ rest) := fun hfront =>
      h.2 (infix_of_prefix_append m.closing_free (by simp) hrest hfront)
    have htail : m.Clear text := ⟨fun hinf => h.1 (hinf.trans (suffix_cons a text).isInfix),
      fun hinf => h.2 (hinf.trans (suffix_cons a text).isInfix)⟩
    rw [cons_append, scan_cons hstart hstop, ih htail]
    rfl

end Markers

/-- A stream as it is written, with what each stretch inside belongs to. -/
inductive Item (α O : Type) where
  | start (owner : O)
  | stop
  | inside (owner : O) (text : List α)
  | outside (text : List α)

variable {O : Type}

namespace Item

/-- What an item puts in the stream. -/
def render : Item α O → List α
  | start _ => m.start
  | stop => m.stop
  | inside _ text => text.filter fun a => decide (a ≠ m.esc)
  | outside text => text

def tokens : Item α O → List (Token α)
  | start _ => [.start]
  | stop => [.stop]
  | inside _ text => (text.filter fun a => decide (a ≠ m.esc)).map .text
  | outside text => text.map .text

end Item

def render (items : List (Item α O)) : List α := items.flatMap (Item.render m)

variable {m}

/-- The stretch that is open behind an item, if the item may stand there. -/
inductive Turn : Option O → Item α O → Option O → Prop
  | start (owner : O) : Turn none (.start owner) (some owner)
  | stop (owner : O) : Turn (some owner) .stop none
  | inside (owner : O) (text : List α) : Turn (some owner) (.inside owner text) (some owner)
  | outside (text : List α) : Turn none (.outside text) none

/-- Items that take turns. -/
inductive Turns : Option O → List (Item α O) → Option O → Prop
  | nil (state : Option O) : Turns state [] state
  | cons {state state' state'' : Option O} {item : Item α O} {rest : List (Item α O)}
      (hturn : Turn state item state') (hrest : Turns state' rest state'') :
      Turns state (item :: rest) state''

omit [DecidableEq α] in
theorem Turns.append {state state' state'' : Option O} {items more : List (Item α O)}
    (h : Turns state items state') (h' : Turns state' more state'') :
    Turns state (items ++ more) state'' := by
  induction h with
  | nil state => exact h'
  | cons hturn _ ih => exact .cons hturn (ih h')

/-- Markers by turns, the next one to come an opening one or a closing one. -/
def Alternate : Bool → List (Token α) → Prop
  | _, [] => True
  | inside, .text _ :: rest => Alternate inside rest
  | inside, .start :: rest => inside = false ∧ Alternate true rest
  | inside, .stop :: rest => inside = true ∧ Alternate false rest

omit [DecidableEq α] in
theorem alternate_text (inside : Bool) (text : List α) (rest : List (Token α)) :
    Alternate inside (text.map .text ++ rest) ↔ Alternate inside rest := by
  induction text with
  | nil => rfl
  | cons a text ih => exact ih

variable (m) in
/-- The markers of items that take turns alternate. -/
theorem Turns.alternate {state state' : Option O} {items : List (Item α O)}
    (h : Turns state items state') : Alternate state.isSome (items.flatMap (Item.tokens m)) := by
  induction h with
  | nil state => trivial
  | cons hturn _ ih =>
    rw [flatMap_cons]
    cases hturn with
    | start owner => exact ⟨rfl, ih⟩
    | stop owner => exact ⟨rfl, ih⟩
    | inside owner text => exact (alternate_text _ _ _).2 ih
    | outside text => exact (alternate_text _ _ _).2 ih

variable (m) in
/-- Stretches of text outside that follow one another spell no marker together. -/
def ClearOutside (items : List (Item α O)) : Prop :=
  ∀ (front : List (Item α O)) (texts : List (List α)) (back : List (Item α O)),
    items = front ++ texts.map .outside ++ back → m.Clear texts.flatten

omit [DecidableEq α] in
theorem ClearOutside.tail {item : Item α O} {rest : List (Item α O)}
    (h : ClearOutside m (item :: rest)) : ClearOutside m rest :=
  fun front texts back heq => h (item :: front) texts back (by rw [heq]; rfl)

/-- A reader finds the markers of the items. -/
theorem Turns.scan {state state' : Option O} {items : List (Item α O)}
    (h : Turns state items state') (hclear : ClearOutside m items) :
    m.scan (render m items) = items.flatMap (Item.tokens m) := by
  -- The text outside that was passed already may go on with the next item.
  have hpassed : ∀ texts : List (List α), (state.isSome → texts = []) →
      (∀ (more : List (List α)) (back : List (Item α O)), items = more.map Item.outside ++ back →
        m.Clear (texts ++ more).flatten) →
      m.scan (texts.flatten ++ render m items) =
        texts.flatten.map .text ++ items.flatMap (Item.tokens m) := by
    induction h with
    | nil state =>
      intro texts _ hfree
      have htexts := hfree [] [] rfl
      rw [append_nil] at htexts
      exact Markers.scan_clear htexts (.inl rfl)
    | @cons state state' state'' item rest hturn hrest ih =>
      intro texts hnone hfree
      have htexts := hfree [] (item :: rest) rfl
      rw [append_nil] at htexts
      have hagain := ih hclear.tail [] (fun _ => rfl) fun more back heq => by
        rw [nil_append]
        exact hclear [item] more back (by rw [heq]; rfl)
      rw [flatten_nil, nil_append, map_nil, nil_append] at hagain
      cases hturn with
      | start owner =>
        have hmark : render m (.start owner :: rest) = m.start ++ render m rest := rfl
        have hbefore := Markers.scan_clear htexts
          (.inr ⟨m.opening ++ render m rest, rfl⟩ : m.start ++ render m rest = [] ∨ _)
        rw [hmark, hbefore, Markers.scan_start, hagain]
        rfl
      | stop owner =>
        have hmark : render m (.stop :: rest : List (Item α O)) = m.stop ++ render m rest := rfl
        have hbefore := Markers.scan_clear htexts
          (.inr ⟨m.closing ++ render m rest, rfl⟩ : m.stop ++ render m rest = [] ∨ _)
        rw [hmark, hbefore, Markers.scan_stop, hagain]
        rfl
      | inside owner text =>
        have hmark : render m (.inside owner text :: rest) =
          (text.filter fun a => decide (a ≠ m.esc)) ++ render m rest := rfl
        have hfilter : m.esc ∉ text.filter fun a => decide (a ≠ m.esc) := by simp
        rw [hnone rfl, hmark, flatten_nil, nil_append, Markers.scan_text hfilter, hagain]
        rfl
      | outside text =>
        have hmark : render m (.outside text :: rest : List (Item α O)) = text ++ render m rest :=
          rfl
        have hnext := ih hclear.tail (texts ++ [text]) (fun h => by cases h) fun more back heq => by
          rw [append_assoc]
          exact hfree (text :: more) back (by rw [heq]; rfl)
        rw [flatten_append, flatten_singleton, append_assoc] at hnext
        rw [hmark, hnext, map_append, append_assoc]
        rfl
  have hstart := hpassed [] (fun _ => rfl) fun more back heq => hclear [] more back heq
  exact hstart

end Brackets
