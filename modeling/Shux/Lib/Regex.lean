/-
# Regular expressions with word boundaries

A pattern is matched against a passage: a text and the characters that stand before and after it.
A word boundary looks at both sides of a position, and at the ends of the text at these two. So a
match that lies in a part of a text is a match of the part, when the part is read beside its
neighbours. Read alone it may have boundaries that it has not in its place: those at its two ends,
where a word character stands on the other side.
-/

import Mathlib.Logic.Relation
import Mathlib.Tactic

namespace Regex

open List Relation.ReflTransGen

variable {α : Type}

/-- A pattern. -/
inductive Pattern (α : Type) where
  | cls (p : α → Bool)
  | eps
  | seq (a b : Pattern α)
  | alt (a b : Pattern α)
  | star (a : Pattern α)
  | boundary

namespace Pattern

/-- One pattern after the other. -/
def all : List (Pattern α) → Pattern α
  | [] => eps
  | [a] => a
  | a :: b :: as => seq a (all (b :: as))

/-- One of several patterns. -/
def any : Pattern α → List (Pattern α) → Pattern α
  | a, [] => a
  | a, b :: as => alt a (any b as)

def times : Nat → Pattern α → Pattern α
  | 0, _ => eps
  | n + 1, a => seq a (times n a)

def atLeast (n : Nat) (a : Pattern α) : Pattern α := seq (times n a) (star a)

def opt (a : Pattern α) : Pattern α := alt a eps

/-- At most so many times. -/
def upTo : Nat → Pattern α → Pattern α
  | 0, _ => eps
  | n + 1, a => opt (seq a (upTo n a))

end Pattern

/-- A text and what stands on either side of it. -/
structure Passage (α : Type) where
  before : Option α
  text : List α
  after : Option α

namespace Passage

/-- A text with nothing around it. -/
def alone (text : List α) : Passage α := ⟨none, text, none⟩

def left (P : Passage α) (i : Nat) : Option α := if i = 0 then P.before else P.text[i - 1]?

def right (P : Passage α) (i : Nat) : Option α := if i < P.text.length then P.text[i]? else P.after

/-- One side of a position is a word character and the other is not. -/
def isBoundary (word : α → Bool) (P : Passage α) (i : Nat) : Bool :=
  (P.left i).any word != (P.right i).any word

end Passage

variable (word : α → Bool) (P : Passage α)

/-- A pattern matches from one position to another. -/
def Spans : Pattern α → Nat → Nat → Prop
  | .cls p => fun i j => j = i + 1 ∧ (P.text[i]?).any p = true
  | .eps => fun i j => i = j
  | .seq a b => fun i j => ∃ k, Spans a i k ∧ Spans b k j
  | .alt a b => fun i j => Spans a i j ∨ Spans b i j
  | .star a => Relation.ReflTransGen (Spans a)
  | .boundary => fun i j => i = j ∧ P.isBoundary word i = true

/-- The positions that can be reached, in steps that go forward. -/
def closure (step : Nat → List Nat) : Nat → Nat → List Nat
  | 0, i => [i]
  | fuel + 1, i => i :: ((step i).filter (i < ·)).flatMap (closure step fuel)

/-- The positions to which a pattern matches from a given one. -/
def ends : Pattern α → Nat → List Nat
  | .cls p, i => if (P.text[i]?).any p then [i + 1] else []
  | .eps, i => [i]
  | .seq a b, i => (ends a i).flatMap (ends b)
  | .alt a b, i => ends a i ++ ends b i
  | .star a, i => closure (ends a) (P.text.length - i) i
  | .boundary, i => if P.isBoundary word i then [i] else []

/-- Whether a pattern matches somewhere. -/
def isMatch (p : Pattern α) : Bool :=
  (List.range (P.text.length + 1)).any fun i => !(ends word P p i).isEmpty

variable {word P} {p : Pattern α}

/-- A match goes forward and stays in the text. -/
theorem Spans.bounds {i j : Nat} (h : Spans word P p i j) (hi : i ≤ P.text.length) :
    i ≤ j ∧ j ≤ P.text.length := by
  induction p generalizing i j with
  | cls p =>
    obtain ⟨rfl, hany⟩ := h
    have hlt : i < P.text.length := by
      by_contra hge
      rw [List.getElem?_eq_none (by omega)] at hany
      cases hany
    omega
  | eps =>
    cases h
    exact ⟨le_rfl, hi⟩
  | seq a b iha ihb =>
    obtain ⟨k, ha, hb⟩ := h
    obtain ⟨hik, hk⟩ := iha ha hi
    obtain ⟨hkj, hj⟩ := ihb hb hk
    exact ⟨hik.trans hkj, hj⟩
  | alt a b iha ihb => exact h.elim (fun ha => iha ha hi) fun hb => ihb hb hi
  | star a ih =>
    induction h with
    | refl => exact ⟨le_rfl, hi⟩
    | tail _ hlast ihrest =>
      obtain ⟨hkj, hj⟩ := ih hlast ihrest.2
      exact ⟨ihrest.1.trans hkj, hj⟩
  | boundary =>
    obtain ⟨rfl, -⟩ := h
    exact ⟨le_rfl, hi⟩

/-- What is reached is reached by steps. -/
theorem steps_of_mem_closure {step : Nat → List Nat} {n i j : Nat} (h : j ∈ closure step n i) :
    Relation.ReflTransGen (fun i j => j ∈ step i) i j := by
  induction n generalizing i with
  | zero =>
    rw [closure, mem_singleton] at h
    exact h ▸ .refl
  | succ n ih =>
    rw [closure, mem_cons, mem_flatMap] at h
    rcases h with rfl | ⟨k, hk, hj⟩
    · exact .refl
    · exact .head (mem_filter.1 hk).1 (ih hj)

theorem self_mem_closure (step : Nat → List Nat) (n i : Nat) : i ∈ closure step n i := by
  cases n with
  | zero => exact mem_singleton_self i
  | succ n => exact mem_cons_self

/-- What is reached by steps that go forward up to a limit is found. -/
theorem mem_closure_of_steps {step : Nat → List Nat} {limit : Nat}
    (hstep : ∀ i ≤ limit, ∀ k ∈ step i, i ≤ k ∧ k ≤ limit) {i j : Nat}
    (h : Relation.ReflTransGen (fun i j => j ∈ step i) i j) (hi : i ≤ limit) {n : Nat}
    (hn : limit - i ≤ n) : j ∈ closure step n i := by
  induction h using head_induction_on generalizing n with
  | refl => exact self_mem_closure step n _
  | head hfirst _ ih =>
    obtain ⟨hle, hk⟩ := hstep _ hi _ hfirst
    rcases hle.eq_or_lt with rfl | hlt
    · exact ih hi hn
    · obtain ⟨m, rfl⟩ : ∃ m, n = m + 1 := ⟨n - 1, by omega⟩
      rw [closure, mem_cons, mem_flatMap]
      exact .inr ⟨_, mem_filter.2 ⟨hfirst, decide_eq_true hlt⟩, ih hk (by omega)⟩

/-- The matcher finds exactly the matches. -/
theorem mem_ends {i j : Nat} (hi : i ≤ P.text.length) :
    j ∈ ends word P p i ↔ Spans word P p i j := by
  induction p generalizing i j with
  | cls p =>
    rw [ends, Spans]
    split_ifs with hany
    · rw [mem_singleton]
      exact (and_iff_left hany).symm
    · exact iff_of_false (not_mem_nil) fun h => hany h.2
  | eps => rw [ends, Spans, mem_singleton, eq_comm]
  | seq a b iha ihb =>
    rw [ends, Spans, mem_flatMap]
    refine exists_congr fun k => ?_
    rw [iha hi]
    exact and_congr_right fun ha => ihb (ha.bounds hi).2
  | alt a b iha ihb => rw [ends, Spans, mem_append, iha hi, ihb hi]
  | star a ih =>
    rw [ends, Spans]
    constructor
    · intro h
      have hsteps := steps_of_mem_closure h
      clear h
      induction hsteps using head_induction_on with
      | refl => exact .refl
      | head hfirst _ ihrest =>
        have hspan := (ih hi).1 hfirst
        exact .head hspan (ihrest (hspan.bounds hi).2)
    · intro h
      refine @mem_closure_of_steps _ P.text.length (fun k hk l hl => ?_) _ _ ?_ hi _ le_rfl
      · exact ((ih hk).1 hl).bounds hk
      · induction h using head_induction_on with
        | refl => exact .refl
        | head hfirst _ ihrest => exact .head ((ih hi).2 hfirst) (ihrest (Spans.bounds hfirst hi).2)
  | boundary =>
    rw [ends, Spans]
    split_ifs with hboundary
    · rw [mem_singleton, eq_comm]
      exact (and_iff_left hboundary).symm
    · exact iff_of_false (not_mem_nil) fun h => hboundary h.2

theorem isMatch_iff : isMatch word P p = true ↔ ∃ i j, i ≤ P.text.length ∧ Spans word P p i j := by
  rw [isMatch, any_eq_true]
  constructor
  · rintro ⟨i, hi, hne⟩
    have hle : i ≤ P.text.length := by
      rw [mem_range] at hi
      omega
    obtain ⟨j, hj⟩ := exists_mem_of_ne_nil _ (by simpa using hne)
    exact ⟨i, j, hle, (mem_ends hle).1 hj⟩
  · rintro ⟨i, j, hle, hspan⟩
    have hmem := (mem_ends hle).2 hspan
    refine ⟨i, mem_range.2 (by omega), ?_⟩
    cases hends : ends word P p i with
    | nil => rw [hends] at hmem; cases hmem
    | cons _ _ => rfl

/-- A passage lies in another, from a position on, beside the neighbours that it has there. -/
structure Within (P Q : Passage α) (off : Nat) : Prop where
  left : ∀ i ≤ P.text.length, P.left i = Q.left (off + i)
  right : ∀ i ≤ P.text.length, P.right i = Q.right (off + i)
  text : ∀ i < P.text.length, P.text[i]? = Q.text[off + i]?
  fits : off + P.text.length ≤ Q.text.length

variable {Q : Passage α} {off : Nat}

/-- A match in a part is a match of the part beside its neighbours. -/
theorem spans_within (h : Within P Q off) {i j : Nat} (hij : i ≤ j) (hj : j ≤ P.text.length) :
    Spans word P p i j ↔ Spans word Q p (off + i) (off + j) := by
  induction p generalizing i j with
  | cls p =>
    show j = i + 1 ∧ _ ↔ off + j = off + i + 1 ∧ _
    rw [Nat.add_assoc, Nat.add_left_cancel_iff]
    refine and_congr_right fun heq => ?_
    rw [h.text i (by omega)]
  | eps => exact Nat.add_left_cancel_iff.symm
  | seq a b iha ihb =>
    have hfits := h.fits
    rw [Spans, Spans]
    constructor
    · rintro ⟨k, ha, hb⟩
      obtain ⟨hik, hk⟩ := ha.bounds (hij.trans hj)
      obtain ⟨hkj, -⟩ := hb.bounds hk
      exact ⟨off + k, (iha hik hk).1 ha, (ihb hkj hj).1 hb⟩
    · rintro ⟨k, ha, hb⟩
      obtain ⟨hik, hk⟩ := ha.bounds (by omega)
      obtain ⟨hkj, -⟩ := hb.bounds hk
      obtain ⟨k, rfl⟩ : ∃ l, k = off + l := ⟨k - off, by omega⟩
      exact ⟨k, (iha (by omega) (by omega)).2 ha, (ihb (by omega) hj).2 hb⟩
  | alt a b iha ihb => exact or_congr (iha hij hj) (ihb hij hj)
  | star a ih =>
    have hfits := h.fits
    rw [Spans, Spans]
    constructor
    · intro hsteps
      induction hsteps using head_induction_on with
      | refl => exact .refl
      | head hfirst hrest ihrest =>
        obtain ⟨hik, hk⟩ := Spans.bounds hfirst (hij.trans hj)
        have hkj := (Spans.bounds (p := .star a) hrest hk).1
        exact .head ((ih hik hk).1 hfirst) (ihrest hkj)
    · intro hsteps
      generalize hstart : off + i = start at hsteps
      induction hsteps using head_induction_on generalizing i with
      | refl => rw [Nat.add_left_cancel hstart]
      | @head _ k hfirst hrest ihrest =>
        subst hstart
        obtain ⟨hik, hk⟩ := Spans.bounds hfirst (by omega)
        have hkj := (Spans.bounds (p := .star a) hrest hk).1
        obtain ⟨k, rfl⟩ : ∃ l, k = off + l := ⟨k - off, by omega⟩
        exact .head ((ih (by omega) (by omega)).2 hfirst) (ihrest (by omega) rfl)
  | boundary =>
    show i = j ∧ _ ↔ off + i = off + j ∧ _
    rw [Nat.add_left_cancel_iff]
    refine and_congr_right fun _ => ?_
    rw [Passage.isBoundary, Passage.isBoundary, h.left i (hij.trans hj), h.right i (hij.trans hj)]

section Rows

variable (rows : List (List α))

/-- Where a row begins when the rows are joined. -/
def offset (k : Nat) : Nat := (rows.take k).flatten.length

def rowAt (k : Nat) : List α := rows[k]?.getD []

/-- A row beside its neighbours. -/
def beside (k : Nat) : Passage α :=
  ⟨(rows.take k).flatten.getLast?, rowAt rows k, (rows.drop (k + 1)).flatten.head?⟩

end Rows

/-- The middle of three texts lies in the three joined. -/
theorem within_append (front middle back : List α) :
    Within ⟨front.getLast?, middle, back.head?⟩ (.alone (front ++ (middle ++ back)))
      front.length where
  left i hi := by
    change i ≤ middle.length at hi
    unfold Passage.left
    cases i with
    | zero =>
      rw [if_pos rfl, Nat.add_zero, List.getLast?_eq_getElem?]
      split
      · next hzero =>
        rw [length_eq_zero_iff.1 hzero]
        rfl
      · next hpos =>
        show front[front.length - 1]? = (front ++ (middle ++ back))[front.length - 1]?
        rw [List.getElem?_append_left (by omega)]
    | succ i =>
      rw [if_neg (Nat.succ_ne_zero i), if_neg (by omega)]
      show middle[i]? = (front ++ (middle ++ back))[front.length + (i + 1) - 1]?
      rw [List.getElem?_append_right (by omega), List.getElem?_append_left (by omega)]
      congr 1
      omega
  right i hi := by
    change i ≤ middle.length at hi
    unfold Passage.right
    show (if i < middle.length then middle[i]? else back.head?) =
      if front.length + i < (front ++ (middle ++ back)).length then
        (front ++ (middle ++ back))[front.length + i]? else none
    rw [length_append, length_append]
    rcases hi.lt_or_eq with hlt | rfl
    · rw [if_pos hlt, if_pos (by omega), List.getElem?_append_right (by omega),
        List.getElem?_append_left (by omega), Nat.add_sub_cancel_left]
    · rw [if_neg (lt_irrefl _), List.head?_eq_getElem?]
      split
      · rw [List.getElem?_append_right (by omega), List.getElem?_append_right (by omega),
          show front.length + middle.length - front.length - middle.length = 0 by omega]
      · exact List.getElem?_eq_none (by omega)
  text i hi := by
    change i < middle.length at hi
    show middle[i]? = (front ++ (middle ++ back))[front.length + i]?
    rw [List.getElem?_append_right (by omega), List.getElem?_append_left (by omega),
      Nat.add_sub_cancel_left]
  fits := by
    show front.length + middle.length ≤ (front ++ (middle ++ back)).length
    rw [length_append, length_append]
    omega

theorem flatten_split {rows : List (List α)} {l : Nat} (hl : l < rows.length) : rows.flatten =
    (rows.take l).flatten ++ (rowAt rows l ++ (rows.drop (l + 1)).flatten) := by
  rw [rowAt, List.getElem?_eq_getElem hl, Option.getD_some, ← flatten_cons,
    ← drop_eq_getElem_cons hl, ← flatten_append, take_append_drop]

theorem within_beside {rows : List (List α)} {k : Nat} (hk : k < rows.length) :
    Within (beside rows k) (.alone rows.flatten) (offset rows k) := by
  have hwithin := within_append (rows.take k).flatten (rowAt rows k) (rows.drop (k + 1)).flatten
  rw [← flatten_split hk] at hwithin
  exact hwithin

namespace Pattern

/-- The fewest characters that a match has. -/
def minLength : Pattern α → Nat
  | cls _ => 1
  | eps | star _ | boundary => 0
  | seq a b => minLength a + minLength b
  | alt a b => min (minLength a) (minLength b)

/-- The boundaries in a match stand between two of its characters, if there may not be characters
before it and after it. -/
def isInner : Bool → Bool → Pattern α → Bool
  | _, _, cls _ | _, _, eps => true
  | before, after, boundary => before && after
  | before, after, seq a b =>
    isInner before (after || decide (0 < minLength b)) a &&
      isInner (before || decide (0 < minLength a)) after b
  | before, after, alt a b => isInner before after a && isInner before after b
  | before, after, star a => isInner before after a

/-- A pattern begins with a word boundary. -/
def leads : Pattern α → Bool
  | seq boundary _ => true
  | _ => false

/-- A pattern without the boundary that it begins with. -/
def dropLead : Pattern α → Pattern α
  | seq boundary a => a
  | p => p

/-- A pattern ends with a word boundary. -/
def trails : Pattern α → Bool
  | seq _ boundary => true
  | seq _ b => trails b
  | _ => false

/-- A pattern without the boundary that it ends with. -/
def dropTrail : Pattern α → Pattern α
  | seq a boundary => a
  | seq a b => seq a (dropTrail b)
  | p => p

/-- Between the boundaries at its ends a pattern has inner ones only. -/
def isFramed (p : Pattern α) : Bool := isInner false false (dropTrail (dropLead p))

end Pattern

theorem Spans.minLength_le {i j : Nat} (h : Spans word P p i j) : i + p.minLength ≤ j := by
  induction p generalizing i j with
  | cls q => exact h.1.ge
  | eps => exact (Eq.le h)
  | seq a b iha ihb =>
    obtain ⟨k, ha, hb⟩ := h
    have hk := iha ha
    have hj := ihb hb
    rw [Pattern.minLength]
    omega
  | alt a b iha ihb =>
    rw [Pattern.minLength]
    rcases h with ha | hb
    · have := iha ha
      omega
    · have := ihb hb
      omega
  | star a ih =>
    induction h with
    | refl => exact le_rfl
    | tail _ hlast ihrest => exact ihrest.trans ((Nat.le_add_right _ _).trans (ih hlast))
  | boundary => exact h.1.le

/-- An inner pattern does not see what stands around a text. -/
theorem spans_of_inner {before after : Bool} (hinner : p.isInner before after = true)
    (htext : P.text = Q.text) {i j : Nat} (hbefore : before = true → 0 < i)
    (hafter : after = true → j < P.text.length) (hi : i ≤ P.text.length)
    (h : Spans word P p i j) : Spans word Q p i j := by
  induction p generalizing before after i j with
  | cls q => exact ⟨h.1, htext ▸ h.2⟩
  | eps => exact h
  | seq a b iha ihb =>
    obtain ⟨k, ha, hb⟩ := h
    rw [Pattern.isInner, Bool.and_eq_true] at hinner
    have hk := ha.bounds hi
    have hj := hb.bounds hk.2
    have hlea := ha.minLength_le
    have hleb := hb.minLength_le
    refine ⟨k, iha hinner.1 hbefore (fun hor => ?_) hi ha,
      ihb hinner.2 (fun hor => ?_) hafter hk.2 hb⟩
    · rw [Bool.or_eq_true, decide_eq_true_eq] at hor
      rcases hor with hafter' | hlength
      · have := hafter hafter'
        omega
      · omega
    · rw [Bool.or_eq_true, decide_eq_true_eq] at hor
      rcases hor with hbefore' | hlength
      · have := hbefore hbefore'
        omega
      · omega
  | alt a b iha ihb =>
    rw [Pattern.isInner, Bool.and_eq_true] at hinner
    exact h.imp (iha hinner.1 hbefore hafter hi) (ihb hinner.2 hbefore hafter hi)
  | star a ih =>
    induction h with
    | refl => exact .refl
    | @tail k l hrest hlast ihrest =>
      have hk := Spans.bounds (p := .star a) hrest hi
      have hl := Spans.bounds hlast hk.2
      refine .tail (ihrest fun hafter' => ?_) (ih hinner (fun hbefore' => ?_) hafter hk.2 hlast)
      · have := hafter hafter'
        omega
      · have := hbefore hbefore'
        omega
  | boundary =>
    obtain ⟨rfl, hboundary⟩ := h
    rw [Pattern.isInner, Bool.and_eq_true] at hinner
    have hpos := hbefore hinner.1
    have hlt := hafter hinner.2
    refine ⟨rfl, ?_⟩
    rw [Passage.isBoundary, Passage.left, Passage.right, if_neg (by omega), if_pos hlt]
      at hboundary
    rw [htext] at hlt hboundary
    rw [Passage.isBoundary, Passage.left, Passage.right, if_neg (by omega), if_pos hlt]
    exact hboundary

/-- A pattern matches when the boundaries at its ends are there and the rest of it matches between
them. -/
theorem spans_iff_leads {i j : Nat} : Spans word P p i j ↔
    (p.leads = true → P.isBoundary word i = true) ∧ Spans word P p.dropLead i j := by
  unfold Pattern.leads Pattern.dropLead
  split
  · next a =>
    constructor
    · rintro ⟨k, ⟨rfl, hboundary⟩, ha⟩
      exact ⟨fun _ => hboundary, ha⟩
    · rintro ⟨hboundary, ha⟩
      exact ⟨i, ⟨rfl, hboundary rfl⟩, ha⟩
  · exact (and_iff_right fun h => absurd h Bool.false_ne_true).symm

theorem spans_iff_trails {i j : Nat} : Spans word P p i j ↔
    Spans word P p.dropTrail i j ∧ (p.trails = true → P.isBoundary word j = true) := by
  fun_induction Pattern.trails p generalizing i with
  | case1 a =>
    constructor
    · rintro ⟨k, ha, rfl, hboundary⟩
      exact ⟨ha, fun _ => hboundary⟩
    · rintro ⟨ha, hboundary⟩
      exact ⟨j, ha, rfl, hboundary rfl⟩
  | case2 a b hb ih =>
    rw [Pattern.dropTrail]
    · constructor
      · rintro ⟨k, ha, hb⟩
        exact ⟨⟨k, ha, (ih.1 hb).1⟩, (ih.1 hb).2⟩
      · rintro ⟨⟨k, ha, hb⟩, hboundary⟩
        exact ⟨k, ha, ih.2 ⟨hb, hboundary⟩⟩
    · exact hb
  | case3 p hboundary hseq =>
    have hdrop : p.dropTrail = p := by
      unfold Pattern.dropTrail
      split
      · exact absurd rfl (hboundary _)
      · exact absurd rfl (hseq _ _)
      · rfl
    rw [hdrop]
    exact (and_iff_left fun h => absurd h Bool.false_ne_true).symm

/-- Where a text has a boundary when it is read alone, it has one in its place exactly when no word
character stands on the other side of its ends. -/
theorem isBoundary_iff_of_alone {i : Nat} (hi : i ≤ P.text.length)
    (halone : (Passage.alone P.text).isBoundary word i = true) :
    P.isBoundary word i = true ↔ (i = 0 → P.before.any word = false) ∧
      (i = P.text.length → P.after.any word = false) := by
  unfold Passage.isBoundary Passage.left Passage.right at halone ⊢
  change ((if i = 0 then none else P.text[i - 1]?).any word !=
    (if i < P.text.length then P.text[i]? else none).any word) = true at halone
  by_cases hzero : i = 0
  · rw [if_pos hzero] at halone ⊢
    by_cases hlt : i < P.text.length
    · rw [if_pos hlt] at halone ⊢
      have hright : (P.text[i]?).any word = true := by simpa using halone
      rw [hright, and_iff_left fun heq => absurd heq hlt.ne, forall_prop_of_true hzero]
      cases P.before.any word <;> decide
    · rw [if_neg hlt] at halone
      cases halone
  · rw [if_neg hzero] at halone ⊢
    by_cases hlt : i < P.text.length
    · rw [if_pos hlt] at halone ⊢
      simp only [halone, hzero, false_implies, true_and, true_iff]
      exact fun heq => absurd heq hlt.ne
    · rw [if_neg hlt] at halone ⊢
      have hleft : (P.text[i - 1]?).any word = true := by simpa using halone
      rw [hleft, and_iff_right fun heq => absurd heq hzero,
        forall_prop_of_true (hi.antisymm (not_lt.1 hlt))]
      cases P.after.any word <;> decide

section Rows

variable (word : α → Bool) (rows : List (List α)) (p : Pattern α)

/-- No word character stands on the other side of an end of a row. -/
def IsFree (k i : Nat) : Prop :=
  (i = 0 → (rows.take k).flatten.getLast?.any word = false) ∧
    (i = (rowAt rows k).length → (rows.drop (k + 1)).flatten.head?.any word = false)

/-- A match of a row that is read alone, whose ends are free where it asks for a boundary. -/
structure Survives (k i j : Nat) : Prop where
  row : k < rows.length
  bounds : i ≤ (rowAt rows k).length
  matched : Spans word (.alone (rowAt rows k)) p i j
  start : p.leads = true → IsFree word rows k i
  stop : p.dropLead.trails = true → IsFree word rows k j

/-- From a place in a row to a place in that row or a later one, beside the neighbours. -/
def stretch (k i l j : Nat) : Passage α :=
  let text := ((rows.take l).drop k).flatten ++ (rowAt rows l).take j
  ⟨((rows.take k).flatten ++ text.take i).getLast?, text.drop i,
    ((rowAt rows l).drop j ++ (rows.drop (l + 1)).flatten).head?⟩

/-- A match that is none of a row alone: it begins in one row and ends in a later one, or it takes a
boundary from a neighbour of its row. -/
structure IsFormed (k i l j : Nat) : Prop where
  row : l < rows.length
  matched : Spans word (stretch rows k i l j) p 0 (stretch rows k i l j).text.length
  formed : k < l ∧ i < (rowAt rows k).length ∧ 0 < j ∨
    k = l ∧ i ≤ j ∧ j ≤ (rowAt rows k).length ∧ ¬ Spans word (.alone (rowAt rows k)) p i j

variable {word rows p}

/-- A match of a row alone is a match of the row in its place exactly when it survives. -/
theorem survives_iff (hframed : p.isFramed = true) {k i j : Nat} (hk : k < rows.length)
    (hi : i ≤ (rowAt rows k).length) (halone : Spans word (.alone (rowAt rows k)) p i j) :
    Survives word rows p k i j ↔ Spans word (beside rows k) p i j := by
  have hj : j ≤ (rowAt rows k).length := (halone.bounds hi).2
  obtain ⟨hlead, hrest⟩ := spans_iff_leads.1 halone
  obtain ⟨hinner, htrail⟩ := spans_iff_trails.1 hrest
  have hbeside : Spans word (beside rows k) (p.dropLead.dropTrail) i j :=
    spans_of_inner (P := .alone (rowAt rows k)) (Q := beside rows k) hframed rfl
      (fun h => absurd h Bool.false_ne_true) (fun h => absurd h Bool.false_ne_true) hi hinner
  have hfree {i : Nat} (hi : i ≤ (rowAt rows k).length)
      (hboundary : (Passage.alone (rowAt rows k)).isBoundary word i = true) :
      (beside rows k).isBoundary word i = true ↔ IsFree word rows k i :=
    isBoundary_iff_of_alone (P := beside rows k) hi hboundary
  rw [spans_iff_leads, spans_iff_trails]
  constructor
  · intro h
    exact ⟨fun hp => (hfree hi (hlead hp)).2 (h.start hp), hbeside,
      fun hp => (hfree hj (htrail hp)).2 (h.stop hp)⟩
  · rintro ⟨hstart, -, hstop⟩
    exact ⟨hk, hi, halone, fun hp => (hfree hi (hlead hp)).1 (hstart hp),
      fun hp => (hfree hj (htrail hp)).1 (hstop hp)⟩

variable (rows) in
theorem flatten_take {k l : Nat} (hkl : k ≤ l) :
    (rows.take l).flatten = (rows.take k).flatten ++ ((rows.take l).drop k).flatten := by
  have hsplit := take_append_drop k (rows.take l)
  rw [take_take, Nat.min_eq_left hkl] at hsplit
  rw [← flatten_append, hsplit]

theorem within_stretch {k i l j : Nat} (hkl : k ≤ l) (hl : l < rows.length) :
    Within (stretch rows k i l j) (.alone rows.flatten)
      (offset rows k + min i (((rows.take l).drop k).flatten ++ (rowAt rows l).take j).length) := by
  have hwithin := within_append
    ((rows.take k).flatten ++ (((rows.take l).drop k).flatten ++ (rowAt rows l).take j).take i)
    (stretch rows k i l j).text ((rowAt rows l).drop j ++ (rows.drop (l + 1)).flatten)
  have hrows : rows.flatten = (rows.take k).flatten ++
      (((rows.take l).drop k).flatten ++ (rowAt rows l).take j).take i ++
      ((stretch rows k i l j).text ++ ((rowAt rows l).drop j ++ (rows.drop (l + 1)).flatten)) := by
    rw [flatten_split hl, flatten_take rows hkl, append_assoc _ (take i _),
      ← append_assoc (take i _)]
    show _ = _ ++ (take i _ ++ drop i _ ++ _)
    rw [take_append_drop]
    simp only [append_assoc]
    rw [← append_assoc (take j _), take_append_drop]
  rw [← hrows, length_append, length_take] at hwithin
  exact hwithin

/-- A place before the end of joined rows is a place in a row. -/
theorem exists_place {n : Nat} (hn : n < rows.flatten.length) :
    ∃ k i, k < rows.length ∧ i < (rowAt rows k).length ∧ n = offset rows k + i := by
  induction rows generalizing n with
  | nil => cases hn
  | cons row rows ih =>
    rw [flatten_cons, length_append] at hn
    by_cases hfirst : n < row.length
    · exact ⟨0, n, Nat.succ_pos _, hfirst, (Nat.zero_add n).symm⟩
    · obtain ⟨k, i, hk, hi, heq⟩ := ih (n := n - row.length) (by omega)
      refine ⟨k + 1, i, Nat.succ_lt_succ hk, hi, ?_⟩
      show n = (row :: rows.take k).flatten.length + i
      rw [flatten_cons, length_append]
      change n - row.length = (rows.take k).flatten.length + i at heq
      omega

/-- The two ends of a text in joined rows. -/
theorem exists_places (hne : rows ≠ []) {i j : Nat} (hij : i ≤ j) (hj : j ≤ rows.flatten.length) :
    ∃ k i' l j', l < rows.length ∧ j' ≤ (rowAt rows l).length ∧ i = offset rows k + i' ∧
      j = offset rows l + j' ∧ (k < l ∧ i' < (rowAt rows k).length ∧ 0 < j' ∨ k = l ∧ i' ≤ j') := by
  rcases hij.eq_or_lt with rfl | hlt
  · cases i with
    | zero =>
      exact ⟨0, 0, 0, 0, length_pos_of_ne_nil hne, Nat.zero_le _, rfl, rfl, .inr ⟨rfl, le_rfl⟩⟩
    | succ n =>
      obtain ⟨k, i, hk, hi, rfl⟩ := exists_place hj
      exact ⟨k, i + 1, k, i + 1, hk, hi, rfl, rfl, .inr ⟨rfl, le_rfl⟩⟩
  · obtain ⟨n, rfl⟩ : ∃ n, j = n + 1 := ⟨j - 1, by omega⟩
    obtain ⟨k, i, hk, hi, rfl⟩ := exists_place (hlt.trans_le hj)
    obtain ⟨l, j, hl, hlast, rfl⟩ := exists_place hj
    refine ⟨k, i, l, j + 1, hl, hlast, rfl, rfl, ?_⟩
    rcases lt_trichotomy k l with hkl | rfl | hlk
    · exact .inl ⟨hkl, hi, Nat.succ_pos j⟩
    · exact .inr ⟨rfl, by omega⟩
    · have hfront := congrArg List.length (flatten_take rows (Nat.succ_le_of_lt hlk))
      rw [take_succ_eq_append_getElem hl, flatten_append, length_append, length_append] at hfront
      rw [rowAt, List.getElem?_eq_getElem hl] at hlast
      simp only [flatten_singleton, Option.getD_some] at hfront hlast
      unfold offset at hlt
      omega

/-- A pattern matches somewhere in joined rows when a match of a row alone survives, or joining
forms a match. -/
theorem isMatch_flatten (hframed : p.isFramed = true) (hne : rows ≠ []) :
    isMatch word (.alone rows.flatten) p = true ↔
      (∃ k i j, Survives word rows p k i j) ∨ ∃ k i l j, IsFormed word rows p k i l j := by
  rw [isMatch_iff]
  constructor
  · rintro ⟨i, j, hi, hspan⟩
    obtain ⟨hij, hle⟩ := hspan.bounds hi
    obtain ⟨k, i, l, j, hl, hj, rfl, rfl, hplaces⟩ := exists_places hne hij hle
    have hkl : k ≤ l := hplaces.elim (fun h => h.1.le) fun h => h.1.le
    have hmatched : Spans word (stretch rows k i l j) p 0 (stretch rows k i l j).text.length := by
      have hfront := congrArg List.length (flatten_take rows hkl)
      rw [length_append] at hfront
      refine (spans_within (within_stretch hkl hl) (Nat.zero_le _) le_rfl).2 ?_
      simp only [stretch, length_drop, length_append, length_take]
      unfold offset at hij hspan ⊢
      convert hspan using 1 <;> omega
    rcases hplaces with hplaces | ⟨rfl, hij'⟩
    · exact .inr ⟨k, i, l, j, hl, hmatched, .inl hplaces⟩
    · by_cases halone : Spans word (.alone (rowAt rows k)) p i j
      · exact .inl ⟨k, i, j, (survives_iff hframed hl (hij'.trans hj) halone).2
          ((spans_within (within_beside hl) hij' hj).2 hspan)⟩
      · exact .inr ⟨k, i, k, j, hl, hmatched, .inr ⟨rfl, hij', hj, halone⟩⟩
  · rintro (⟨k, i, j, h⟩ | ⟨k, i, l, j, h⟩)
    · have hbounds := h.matched.bounds h.bounds
      have hfits := (within_beside h.row).fits
      have hspan := (survives_iff hframed h.row h.bounds h.matched).1 h
      refine ⟨offset rows k + i, offset rows k + j, ?_,
        (spans_within (within_beside h.row) hbounds.1 hbounds.2).1 hspan⟩
      have hi := h.bounds
      change offset rows k + (rowAt rows k).length ≤ rows.flatten.length at hfits
      show offset rows k + i ≤ rows.flatten.length
      omega
    · have hkl : k ≤ l := h.formed.elim (fun h => h.1.le) fun h => h.1.le
      have hwithin := within_stretch (i := i) (j := j) hkl h.row
      exact ⟨_, _, (Nat.le_add_right _ _).trans hwithin.fits,
        (spans_within hwithin (Nat.zero_le _) le_rfl).1 h.matched⟩

end Rows

end Regex
