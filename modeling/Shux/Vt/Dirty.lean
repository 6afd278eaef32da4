/-
# Dirty cells of the viewport

The grid remembers which columns of which visible rows changed since a renderer last
asked. A whole-frame mark stands for every row at once, and a row that is already dirty
from edge to edge is not marked again.
-/

import Shux.Lib.Checked

namespace Shux.Vt

open Checked List

/-- A half-open dirty cell range on one visible row. -/
structure DirtyRegion where
  row : Nat
  start : Nat
  stop : Nat
deriving DecidableEq, Repr

structure DirtyState where
  enabled : Bool
  fullFrame : Bool
  anyDirty : Bool
  lastFullRow : Option Nat
  fullRows : List Bool
  rows : List (Option (Nat × Nat))
deriving DecidableEq, Repr

namespace DirtyState

variable {fullRows : List Bool}
variable {marks : List (Option (Nat × Nat))} {row : Nat}

def new (rows : Nat) (enabled : Bool) : DirtyState where
  enabled := enabled
  fullFrame := false
  anyDirty := false
  lastFullRow := none
  fullRows := List.replicate rows false
  rows := List.replicate rows none

def resizeRows (dirty : DirtyState) (rows : Nat) : DirtyState :=
  { dirty with
    fullRows := resize dirty.fullRows rows false
    rows := resize dirty.rows rows none }

/-- Return to the state of a new one; the two row vectors are cleared and refilled. -/
def reset (_ : DirtyState) (rows : Nat) (enabled : Bool) : DirtyState where
  enabled := enabled
  fullFrame := false
  anyDirty := false
  lastFullRow := none
  fullRows := resize [] rows false
  rows := resize [] rows none

def markAll (dirty : DirtyState) : DirtyState :=
  if !dirty.enabled then dirty
  else { dirty with lastFullRow := none, fullFrame := true, anyDirty := true }

def rowIsFullyDirty (dirty : DirtyState) (row : Nat) : Bool :=
  dirty.rows[row]?.isSome && dirty.fullRows[row]?.getD false

def markRow (dirty : DirtyState) (row rows cols : Nat) : Checked DirtyState :=
  if !dirty.enabled || dirty.fullFrame || decide (rows ≤ row) || cols == 0 then pure dirty
  else if dirty.lastFullRow = some row then pure dirty
  else if dirty.rowIsFullyDirty row then pure { dirty with lastFullRow := some row }
  else do
    let fullRows ← assign dirty.fullRows row true
    let marks ← assign dirty.rows row (some (0, cols))
    pure { dirty with anyDirty := true, fullRows, lastFullRow := some row, rows := marks }

def markRows (dirty : DirtyState) (start stop rows cols : Nat) : Checked DirtyState :=
  if !dirty.enabled || dirty.fullFrame then pure dirty
  else
    each (span (min start rows) (min stop rows)) dirty fun dirty row => dirty.markRow row rows cols

/-- Remember that a row is dirty from edge to edge, when it is. -/
def noteFullRow (fullRows : List Bool) (row : Nat) (full : Bool) : Checked (List Bool) :=
  if full then assign fullRows row true else pure fullRows

def markRange (dirty : DirtyState) (row start stop rows cols : Nat) : Checked DirtyState :=
  if !dirty.enabled || dirty.fullFrame || dirty.rowIsFullyDirty row then pure dirty
  else
    let dirty := { dirty with lastFullRow := none }
    if rows ≤ row ∨ cols = 0 then pure dirty
    else
      let start := min start cols
      let stop := min stop cols
      if stop ≤ start then pure dirty
      else do
        let slot ← index dirty.rows row
        let (first, last) := match slot with
          | some (first, last) => (min first start, max last stop)
          | none => (start, stop)
        let marks ← assign dirty.rows row (some (first, last))
        let fullRows ← noteFullRow dirty.fullRows row (first == 0 && decide (cols ≤ last))
        pure { dirty with anyDirty := true, fullRows, rows := marks }

/-- The region of one marked row, cut to the viewport. -/
def region (rows cols row : Nat) (mark : Option (Nat × Nat)) : Option DirtyRegion :=
  mark.bind fun (first, last) =>
    let start := min first cols
    let stop := min last cols
    if row < rows ∧ start < stop then some ⟨row, start, stop⟩ else none

/-- Consume and clear the dirty regions. -/
def take (dirty : DirtyState) (rows cols : Nat) : DirtyState × List DirtyRegion :=
  if !dirty.enabled || !dirty.anyDirty then (dirty, [])
  else
    let regions :=
      if dirty.fullFrame then
        ((List.range rows).filter fun _ => decide (0 < cols)).map fun row => ⟨row, 0, cols⟩
      else dirty.rows.zipIdx.filterMap fun (mark, row) => region rows cols row mark
    ({ dirty with
        fullFrame := false
        anyDirty := false
        lastFullRow := none
        fullRows := dirty.fullRows.map fun _ => false
        rows := dirty.rows.map fun _ => none },
      regions)

/-- The tracker reports the cell at a row and column. -/
def Marks (dirty : DirtyState) (r c : Nat) : Prop :=
  dirty.fullFrame = true ∨ ∃ first last, dirty.rows[r]? = some (some (first, last)) ∧
    first ≤ c ∧ c < last

/-- The tracker has a slot for each of `rows` rows. While it tracks, whatever is marked is
noted as dirty, and short of a whole-frame mark the two shortcuts agree with the marks: a
full row is marked from edge to edge, and the last full row is one. Marks end inside the
viewport. -/
structure Fits (rows cols : Nat) (dirty : DirtyState) : Prop where
  fullRows_length : dirty.fullRows.length = rows
  rows_length : dirty.rows.length = rows
  noted : dirty.enabled = true → ∀ r c : Nat, dirty.Marks r c → dirty.anyDirty = true
  within : dirty.enabled = true → dirty.fullFrame = false → ∀ r first last : Nat,
    dirty.rows[r]? = some (some (first, last)) → last ≤ cols
  full : dirty.enabled = true → dirty.fullFrame = false → ∀ r : Nat,
    dirty.fullRows[r]? = some true → dirty.rows[r]? = some (some (0, cols))
  lastFull : dirty.enabled = true → dirty.fullFrame = false → ∀ r : Nat,
    dirty.lastFullRow = some r → dirty.fullRows[r]? = some true

/-- The tracker has forgotten no mark. -/
structure Keeps (dirty dirty' : DirtyState) : Prop where
  enabled : dirty'.enabled = dirty.enabled
  marks : dirty.enabled = true → ∀ r c, dirty.Marks r c → dirty'.Marks r c

variable {dirty dirty' dirty'' : DirtyState} {rows cols : Nat}

theorem Keeps.refl (dirty : DirtyState) : Keeps dirty dirty := ⟨rfl, fun _ _ _ h => h⟩

theorem Keeps.trans (h : Keeps dirty dirty') (h' : Keeps dirty' dirty'') : Keeps dirty dirty'' :=
  ⟨h'.enabled.trans h.enabled,
    fun he r c hm => h'.marks (h.enabled.trans he) r c (h.marks he r c hm)⟩

/-- A tracker with no marks fits. -/
theorem fits_clear (enabled : Bool) (hfull : fullRows.length = rows) (hmarks : marks.length = rows)
    (hfullRows : ∀ r : Nat, fullRows[r]? ≠ some true)
    (hnone : ∀ (r : Nat) (m : Nat × Nat), marks[r]? ≠ some (some m)) :
    Fits rows cols ⟨enabled, false, false, none, fullRows, marks⟩ where
  fullRows_length := hfull
  rows_length := hmarks
  noted _ r c := by
    rintro (h | ⟨first, last, h, -⟩)
    · cases h
    · exact absurd h (hnone r _)
  within _ _ r first last h := absurd h (hnone r _)
  full _ _ r h := absurd h (hfullRows r)
  lastFull _ _ r h := by cases h

/-- A tracker under a whole-frame mark fits. -/
theorem fits_frame (enabled : Bool)
    (hfull : fullRows.length = rows) (hmarks : marks.length = rows) :
    Fits rows cols ⟨enabled, true, true, none, fullRows, marks⟩ where
  fullRows_length := hfull
  rows_length := hmarks
  noted _ _ _ _ := rfl
  within _ h := Bool.noConfusion h
  full _ h := Bool.noConfusion h
  lastFull _ h := Bool.noConfusion h

theorem fits_new (rows cols : Nat) (enabled : Bool) : (new rows enabled).Fits rows cols := by
  apply fits_clear enabled length_replicate length_replicate
  · intro r h
    rw [List.getElem?_replicate] at h
    split at h <;> cases h
  · intro r m h
    rw [List.getElem?_replicate] at h
    split at h <;> cases h

theorem reset_eq (dirty : DirtyState) (rows : Nat) (enabled : Bool) :
    dirty.reset rows enabled = new rows enabled := by
  simp [reset, new, resize]

theorem Fits.markAll (h : dirty.Fits rows cols) : dirty.markAll.Fits rows cols := by
  unfold DirtyState.markAll
  split
  · exact h
  · exact fits_frame _ h.fullRows_length h.rows_length

theorem keeps_markAll (dirty : DirtyState) : Keeps dirty dirty.markAll := by
  unfold DirtyState.markAll
  split
  · exact .refl dirty
  · exact ⟨rfl, fun _ _ _ _ => .inl rfl⟩

theorem marks_markAll (h : dirty.enabled = true) (r c : Nat) : dirty.markAll.Marks r c := by
  rw [DirtyState.markAll, h]
  exact .inl rfl

/-- Changing the number of rows under a whole-frame mark. -/
theorem fits_resizeRows_markAll (dirty : DirtyState) (rows cols : Nat) :
    (dirty.resizeRows rows).markAll.Fits rows cols := by
  unfold DirtyState.markAll
  split
  · next hoff =>
    have hfalse : dirty.enabled = false := by simpa [resizeRows] using hoff
    have hno {P : Prop} (he : dirty.enabled = true) : P :=
      absurd (hfalse.symm.trans he) Bool.false_ne_true
    exact ⟨length_resize _ _ _, length_resize _ _ _, hno, hno, hno, hno⟩
  · exact fits_frame _ (length_resize _ _ _) (length_resize _ _ _)

section

variable (h : dirty.Fits rows cols)
include h

theorem resizeRows_self : dirty.resizeRows rows = dirty := by
  have hself {α : Type} {xs : List α} (hlen : xs.length = rows) (x : α) :
      resize xs rows x = xs := by
    rw [resize, hlen, Nat.sub_self, replicate_zero, append_nil, ← hlen, take_length]
  rw [resizeRows, hself h.fullRows_length, hself h.rows_length]

theorem rowIsFullyDirty_iff :
    dirty.rowIsFullyDirty row = true ↔ dirty.fullRows[row]? = some true := by
  unfold DirtyState.rowIsFullyDirty
  constructor
  · intro hrow
    rw [Bool.and_eq_true] at hrow
    cases hfull : dirty.fullRows[row]? with
    | none => rw [hfull] at hrow; cases hrow.2
    | some full => rw [hfull] at hrow; exact congrArg some hrow.2
  · intro hrow
    have hlt : row < dirty.rows.length := by
      rw [h.rows_length, ← h.fullRows_length]
      exact (List.getElem?_eq_some_iff.mp hrow).1
    rw [hrow, List.getElem?_eq_getElem hlt]
    rfl

/-- A full row reports each of its cells. -/
theorem Fits.marks_of_full (he : dirty.enabled = true)
    (hfull : dirty.fullRows[row]? = some true) {c : Nat} (hc : c < cols) :
    dirty.Marks row c := by
  cases hframe : dirty.fullFrame with
  | true => exact .inl hframe
  | false => exact .inr ⟨0, cols, h.full he hframe row hfull, Nat.zero_le c, hc⟩

/-- A row marked anew: it fits, keeps the other marks and reports the new one. -/
theorem fits_set {first last : Nat} (hrow : row < rows) (hbound : last ≤ cols)
    (hwiden : ∀ a b, dirty.rows[row]? = some (some (a, b)) → first ≤ a ∧ b ≤ last)
    (hfull : fullRows = dirty.fullRows ∨
      fullRows = dirty.fullRows.set row true ∧ first = 0 ∧ cols ≤ last)
    {lastFullRow : Option Nat}
    (hlastFull : lastFullRow = none ∨ lastFullRow = some row ∧ fullRows[row]? = some true) :
    let dirty' : DirtyState := { dirty with
      anyDirty := true, fullRows := fullRows, lastFullRow := lastFullRow
      rows := dirty.rows.set row (some (first, last)) }
    dirty'.Fits rows cols ∧ Keeps dirty dirty' ∧
      ∀ c, first ≤ c → c < last → dirty'.Marks row c := by
  intro dirty'
  have hlt : row < dirty.rows.length := h.rows_length.symm ▸ hrow
  have hself : dirty'.rows[row]? = some (some (first, last)) := List.getElem?_set_self hlt
  have hother (r : Nat) (hr : r ≠ row) : dirty'.rows[r]? = dirty.rows[r]? :=
    List.getElem?_set_ne (Ne.symm hr)
  have hlength : fullRows.length = rows := by
    rcases hfull with rfl | ⟨rfl, -, -⟩
    · exact h.fullRows_length
    · exact length_set.trans h.fullRows_length
  refine ⟨⟨hlength, length_set.trans h.rows_length, fun _ _ _ _ => rfl, ?_, ?_, ?_⟩,
    ⟨rfl, ?_⟩, fun c hfirst hlast => .inr ⟨first, last, hself, hfirst, hlast⟩⟩
  · intro he hframe r a b hab
    by_cases hr : r = row
    · rw [hr, hself] at hab
      cases hab
      exact hbound
    · rw [hother r hr] at hab
      exact h.within he hframe r a b hab
  · intro he hframe r hr
    by_cases hrow' : r = row
    · subst hrow'
      have hedges : first = 0 ∧ cols ≤ last := by
        rcases hfull with rfl | ⟨-, hzero, hle⟩
        · obtain ⟨hfirst, hlast⟩ := hwiden 0 cols (h.full he hframe r hr)
          exact ⟨Nat.le_zero.mp hfirst, hlast⟩
        · exact ⟨hzero, hle⟩
      rw [hself, hedges.1, le_antisymm hbound hedges.2]
    · rw [hother r hrow']
      apply h.full he hframe r
      rcases hfull with rfl | ⟨rfl, -, -⟩
      · exact hr
      · rwa [List.getElem?_set_ne (Ne.symm hrow')] at hr
  · intro he hframe r hr
    rcases hlastFull with hnone | ⟨hsome, htrue⟩
    · rw [show dirty'.lastFullRow = none from hnone] at hr
      cases hr
    · rw [show dirty'.lastFullRow = some row from hsome] at hr
      cases hr
      exact htrue
  · rintro he r c (hframe | ⟨a, b, hab, hac, hcb⟩)
    · exact .inl hframe
    · by_cases hrow' : r = row
      · subst hrow'
        obtain ⟨hfirst, hlast⟩ := hwiden a b hab
        exact .inr ⟨first, last, hself, by omega, by omega⟩
      · exact .inr ⟨a, b, (hother r hrow').trans hab, hac, hcb⟩

theorem Fits.markRow (row : Nat) :
    Runs (dirty.markRow row rows cols) fun dirty' => dirty'.Fits rows cols ∧
      Keeps dirty dirty' ∧
      (dirty.enabled = true → row < rows → ∀ c, c < cols → dirty'.Marks row c) := by
  unfold DirtyState.markRow
  apply Runs.ite
  · intro hskip
    refine .pure ⟨h, .refl dirty, fun he hrow c hc => ?_⟩
    simp only [he, Bool.not_true, Bool.false_or, Bool.or_eq_true, decide_eq_true_eq,
      beq_iff_eq] at hskip
    rcases hskip with (hframe | hout) | hzero
    · exact .inl hframe
    · omega
    · omega
  intro hguard
  simp only [Bool.or_eq_true, decide_eq_true_eq, not_or, not_le, Bool.not_eq_true,
    Bool.not_eq_false'] at hguard
  obtain ⟨⟨⟨he, hframe⟩, hrow⟩, -⟩ := hguard
  apply Runs.ite
  · intro hlast
    refine .pure ⟨h, .refl dirty, fun he _ c hc => ?_⟩
    exact h.marks_of_full he (h.lastFull he hframe row hlast) hc
  intro _
  apply Runs.ite
  · intro hdirty
    have hfull := (rowIsFullyDirty_iff h).mp hdirty
    refine .pure ⟨⟨h.fullRows_length, h.rows_length, h.noted, h.within, h.full, ?_⟩,
      ⟨rfl, fun _ _ _ hm => hm⟩, fun he _ c hc => h.marks_of_full he hfull hc⟩
    intro he hf r hr
    cases hr
    exact hfull
  intro _
  have hlen : row < dirty.fullRows.length := h.fullRows_length.symm ▸ hrow
  apply Runs.bind (.assign hlen)
  rintro _ rfl
  apply Runs.bind (.assign (h.rows_length.symm ▸ hrow))
  rintro _ rfl
  apply Runs.pure
  obtain ⟨hfits, hkeeps, hmarks⟩ := fits_set h hrow le_rfl
    (fun a b hab => ⟨Nat.zero_le a, h.within he hframe row a b hab⟩)
    (.inr ⟨rfl, rfl, le_rfl⟩) (.inr ⟨rfl, List.getElem?_set_self hlen⟩)
  exact ⟨hfits, hkeeps, fun _ _ c hc => hmarks c (Nat.zero_le c) hc⟩

theorem Fits.markRows (start stop : Nat) :
    Runs (dirty.markRows start stop rows cols) fun dirty' => dirty'.Fits rows cols ∧
      Keeps dirty dirty' ∧ (dirty.enabled = true → ∀ r, start ≤ r → r < stop → r < rows →
        ∀ c, c < cols → dirty'.Marks r c) := by
  apply Runs.ite
  · intro hskip
    refine .pure ⟨h, .refl dirty, fun he r _ _ _ c _ => .inl ?_⟩
    simpa [he] using hskip
  intro _
  by_cases hspan : min start rows ≤ min stop rows
  · have hloop : Runs (each (span (min start rows) (min stop rows)) dirty fun dirty row =>
        dirty.markRow row rows cols) fun dirty' => dirty'.Fits rows cols ∧ Keeps dirty dirty' ∧
          (dirty.enabled = true → ∀ r, min start rows ≤ r → r < min stop rows →
            ∀ c, c < cols → dirty'.Marks r c) := by
      apply Runs.eachSpan (fun k (dirty' : DirtyState) => dirty'.Fits rows cols ∧
        Keeps dirty dirty' ∧ (dirty.enabled = true → ∀ r, min start rows ≤ r → r < k →
          ∀ c, c < cols → dirty'.Marks r c)) hspan
      · exact ⟨h, .refl dirty, fun _ r hr hr' => by omega⟩
      · rintro k hk hk' dirty' ⟨hfits, hkeeps, hmarks⟩
        apply (hfits.markRow k).mono
        rintro dirty'' ⟨hfits', hkeeps', hmarks'⟩
        refine ⟨hfits', hkeeps.trans hkeeps', fun he r hr hr' c hc => ?_⟩
        have he' : dirty'.enabled = true := hkeeps.enabled.trans he
        by_cases hrk : r = k
        · exact hrk ▸ hmarks' he' (by omega) c hc
        · exact hkeeps'.marks he' r c (hmarks he r hr (by omega) c hc)
    apply hloop.mono
    rintro dirty' ⟨hfits, hkeeps, hmarks⟩
    exact ⟨hfits, hkeeps, fun he r hr hr' hrow c hc => hmarks he r (by omega) (by omega) c hc⟩
  · rw [Checked.span, show min stop rows - min start rows = 0 by omega]
    exact .pure ⟨h, .refl dirty, fun he r hr hr' hrow => by omega⟩

end

theorem runs_noteFullRow (h : row < fullRows.length) (full : Bool) :
    Runs (noteFullRow fullRows row full) fun fullRows' => full = false ∧ fullRows' = fullRows ∨
      full = true ∧ fullRows' = fullRows.set row true := by
  apply Runs.ite
  · intro hfull
    apply (Runs.assign h).mono
    rintro _ rfl
    exact .inr ⟨hfull, rfl⟩
  · intro hfull
    exact .pure (.inl ⟨Bool.not_eq_true _ ▸ hfull, rfl⟩)

theorem Fits.markRange (h : dirty.Fits rows cols) (row start stop : Nat) :
    Runs (dirty.markRange row start stop rows cols) fun dirty' => dirty'.Fits rows cols ∧
      Keeps dirty dirty' ∧ (dirty.enabled = true → row < rows →
        ∀ c, start ≤ c → c < stop → c < cols → dirty'.Marks row c) := by
  unfold DirtyState.markRange
  apply Runs.ite
  · intro hskip
    refine .pure ⟨h, .refl dirty, fun he _ c _ _ hc => ?_⟩
    simp only [he, Bool.not_true, Bool.false_or, Bool.or_eq_true] at hskip
    rcases hskip with hframe | hfull
    · exact .inl hframe
    · exact h.marks_of_full he ((rowIsFullyDirty_iff h).mp hfull) hc
  intro hguard
  simp only [Bool.or_eq_true, not_or, Bool.not_eq_true, Bool.not_eq_false'] at hguard
  obtain ⟨⟨he, hframe⟩, -⟩ := hguard
  have hforget : Fits rows cols { dirty with lastFullRow := none } :=
    ⟨h.fullRows_length, h.rows_length, h.noted, h.within, h.full, fun _ _ r hr => by cases hr⟩
  apply Runs.ite
  · intro hout
    exact .pure ⟨hforget, ⟨rfl, fun _ _ _ hm => hm⟩, fun _ _ c _ _ _ => by omega⟩
  intro hin
  have hrow : row < rows := by omega
  apply Runs.ite
  · intro hempty
    exact .pure ⟨hforget, ⟨rfl, fun _ _ _ hm => hm⟩, fun _ _ c _ _ _ => by omega⟩
  intro hspan
  have hlen : row < dirty.rows.length := h.rows_length.symm ▸ hrow
  apply Runs.bind (.index hlen)
  intro slot hslot
  -- the new mark covers the old one and the range
  obtain ⟨first, last, hmark, hbound, hold, hfirst, hlast⟩ : ∃ first last, (match slot with
        | some (first, last) => (min first (min start cols), max last (min stop cols))
        | none => (min start cols, min stop cols)) = (first, last) ∧ last ≤ cols ∧
      (∀ a b, dirty.rows[row]? = some (some (a, b)) → first ≤ a ∧ b ≤ last) ∧
      first ≤ start ∧ min stop cols ≤ last := by
    cases slot with
    | none =>
      refine ⟨_, _, rfl, by omega, fun a b hab => ?_, by omega, le_rfl⟩
      rw [show dirty.rows[row]? = some none from hslot] at hab
      cases hab
    | some mark =>
      obtain ⟨a, b⟩ := mark
      have hb := h.within he hframe row a b hslot
      refine ⟨_, _, rfl, by omega, fun a' b' hab => ?_, by omega, by omega⟩
      rw [show dirty.rows[row]? = some (some (a, b)) from hslot] at hab
      cases hab
      omega
  rw [hmark]
  apply Runs.bind (.assign hlen)
  rintro _ rfl
  apply Runs.bind (runs_noteFullRow (h.fullRows_length.symm ▸ hrow) _)
  intro fullRows hfullRows
  apply Runs.pure
  have hnote : fullRows = dirty.fullRows ∨
      fullRows = dirty.fullRows.set row true ∧ first = 0 ∧ cols ≤ last := by
    rcases hfullRows with ⟨-, hsame⟩ | ⟨hfull, hset⟩
    · exact .inl hsame
    · simp only [Bool.and_eq_true, beq_iff_eq, decide_eq_true_eq] at hfull
      exact .inr ⟨hset, hfull⟩
  obtain ⟨hfits, hkeeps, hmarks⟩ := fits_set hforget hrow hbound hold hnote (.inl rfl)
  refine ⟨hfits, ⟨rfl, fun he r c hm => hkeeps.marks he r c hm⟩, ?_⟩
  exact fun _ _ c hc hc' hcols => hmarks c (by omega) (by omega)

theorem Fits.take (h : dirty.Fits rows cols) : (dirty.take rows cols).1.Fits rows cols := by
  unfold DirtyState.take
  split
  · exact h
  · apply fits_clear dirty.enabled ((length_map _).trans h.fullRows_length)
      ((length_map _).trans h.rows_length)
    · intro r hr
      rw [List.getElem?_map] at hr
      obtain ⟨_, -, hfalse⟩ := Option.map_eq_some_iff.mp hr
      cases hfalse
    · intro r m hr
      rw [List.getElem?_map] at hr
      obtain ⟨_, -, hnone⟩ := Option.map_eq_some_iff.mp hr
      cases hnone

theorem enabled_take (dirty : DirtyState) (rows cols : Nat) :
    (dirty.take rows cols).1.enabled = dirty.enabled := by
  unfold DirtyState.take
  split <;> rfl

theorem region_some {mark : Option (Nat × Nat)} {out : DirtyRegion}
    (h : region rows cols row mark = some out) :
    out.row = row ∧ row < rows ∧ out.start < out.stop ∧ out.stop ≤ cols := by
  unfold region at h
  obtain ⟨⟨first, last⟩, -, hsome⟩ := Option.bind_eq_some_iff.mp h
  dsimp only at hsome
  split at hsome
  · next hin =>
    cases hsome
    exact ⟨rfl, hin.1, hin.2, min_le_right _ _⟩
  · cases hsome

/-- Row by row, the regions follow the rows they are taken from. -/
theorem rows_regions_sublist (marks : List (Option (Nat × Nat))) (n : Nat) :
    List.Sublist (((marks.zipIdx n).filterMap fun (mark, row) => region rows cols row mark).map
      DirtyRegion.row) (List.range' n marks.length) := by
  induction marks generalizing n with
  | nil => exact List.Sublist.refl _
  | cons mark marks ih =>
    rw [zipIdx_cons, length_cons, range'_succ, filterMap_cons]
    dsimp only
    cases hregion : region rows cols n mark with
    | none => exact (ih (n + 1)).cons n
    | some out =>
      rw [map_cons, (region_some hregion).1]
      exact (ih (n + 1)).cons_cons n

/-- At most one region is reported for a row. -/
theorem nodup_take (dirty : DirtyState) (rows cols : Nat) :
    ((dirty.take rows cols).2.map DirtyRegion.row).Nodup := by
  unfold DirtyState.take
  split
  · exact nodup_nil
  · dsimp only
    split
    · rw [map_map]
      refine List.Nodup.map_on (fun a _ b _ hab => hab) ?_
      exact nodup_range.filter _
    · exact (rows_regions_sublist dirty.rows 0).nodup nodup_range'

/-- Every region reported is inside the viewport. -/
theorem bounds_take {out : DirtyRegion} (h : out ∈ (dirty.take rows cols).2) :
    out.row < rows ∧ out.start < out.stop ∧ out.stop ≤ cols := by
  unfold DirtyState.take at h
  split at h
  · cases h
  · dsimp only at h
    split at h
    · obtain ⟨row, hrow, rfl⟩ := mem_map.mp h
      rw [mem_filter, mem_range, decide_eq_true_iff] at hrow
      exact ⟨hrow.1, hrow.2, le_rfl⟩
    · obtain ⟨⟨mark, row⟩, -, hregion⟩ := mem_filterMap.mp h
      obtain ⟨rfl, hbounds⟩ := region_some hregion
      exact hbounds

/-- Every marked cell of the viewport is in a region reported. -/
theorem Fits.covers_take (h : dirty.Fits rows cols) (he : dirty.enabled = true) {r c : Nat}
    (hr : r < rows) (hc : c < cols) (hmarks : dirty.Marks r c) :
    ∃ out ∈ (dirty.take rows cols).2, out.row = r ∧ out.start ≤ c ∧ c < out.stop := by
  have hnoted := h.noted he r c hmarks
  unfold DirtyState.take
  rw [he, hnoted, if_neg (by decide)]
  dsimp only
  cases hframe : dirty.fullFrame with
  | true =>
    refine ⟨⟨r, 0, cols⟩, ?_, rfl, Nat.zero_le c, hc⟩
    rw [if_pos rfl, mem_map]
    refine ⟨r, ?_, rfl⟩
    rw [mem_filter, mem_range, decide_eq_true_iff]
    exact ⟨hr, by omega⟩
  | false =>
    obtain hfull | ⟨first, last, hmark, hfirst, hlast⟩ := hmarks
    · exact absurd (hframe.symm.trans hfull) Bool.false_ne_true
    have hmem : (some (first, last), r) ∈ dirty.rows.zipIdx := by
      rw [mem_zipIdx_iff_getElem?]
      exact hmark
    have hregion : region rows cols r (some (first, last)) =
        some ⟨r, min first cols, min last cols⟩ := by
      show (if r < rows ∧ min first cols < min last cols then _ else _) = _
      exact if_pos ⟨hr, by omega⟩
    refine ⟨⟨r, min first cols, min last cols⟩, ?_, rfl, ?_, ?_⟩
    · rw [if_neg Bool.false_ne_true]
      exact mem_filterMap.mpr ⟨_, hmem, hregion⟩
    · show min first cols ≤ c
      omega
    · show c < min last cols
      omega

end DirtyState

end Shux.Vt
