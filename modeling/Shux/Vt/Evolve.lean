/-
# What a grid operation can do

`Evolves g g'` collects, once for every operation on the live grid, what the properties
of the terminal are drawn from. The new grid is in order and of the same size; its tally
has not gone back, and when it stands still nothing visible has changed; every cell that
changed is marked; and the deque is no longer than it was or than its cap.
-/

import Shux.Vt.Grid
import Shux.Vt.RowEdits

namespace Shux.Vt.Grid

open Checked List DirtyState

variable {row : Nat}
variable {dirty : DirtyState} {placements : List Placement} {mutations : Nat}

/-- Every row of the grid is sound, there are enough of them for the viewport, and the
tracker has a slot for each visible one. -/
structure Ok (g : Grid) : Prop where
  rows_le : g.rows ≤ g.raw.length
  sound : ∀ row ∈ g.raw, row.Sound g.cols
  dirty : g.dirty.Fits g.rows g.cols
  enabled : g.dirty.enabled = g.config.trackDirty

/-- A cell of the viewport. -/
def cellAt (g : Grid) (r c : Nat) : Option Cell :=
  (g.raw[g.scrollbackLen + r]?).bind fun row => row.cells[c]?

/-- What an operation that counts no write leaves alone. History may still be cleared and
a placement that is out of reach may go. -/
structure Quiet (g g' : Grid) : Prop where
  visible : ∀ r, g'.raw[g'.scrollbackLen + r]? = g.raw[g.scrollbackLen + r]?
  raw : g.raw.length = g.rows → g'.raw = g.raw ∧ g'.evicted = g.evicted
  placements : g.placements = [] → g'.placements = [] ∧ g'.placedBytes = g.placedBytes
  marks : g'.dirty.fullRows = g.dirty.fullRows ∧ g'.dirty.rows = g.dirty.rows
  lastFull : g.dirty.lastFullRow = none → g'.dirty.lastFullRow = none

/-- The placement counter is the payload of the placements, and both caps on them hold. -/
structure Accounted (g : Grid) : Prop where
  count : g.placedBytes = placementBytes g.placements
  light : g.placedBytes ≤ maxImageBytes
  few : g.placements.length ≤ maxPlacements

/-- What an operation on the live grid can do. -/
structure Evolves (g g' : Grid) : Prop where
  ok : g'.Ok
  rows : g'.rows = g.rows
  cols : g'.cols = g.cols
  config : g'.config = g.config
  bound : g'.raw.length ≤ max g.raw.length (g.rows + g.config.maxScrollback)
  tally : g.mutations ≤ g'.mutations
  evicted : g.evicted ≤ g'.evicted
  quiet : g'.mutations = g.mutations → Quiet g g'
  keeps : g.dirty.Keeps g'.dirty
  covers : g.config.trackDirty = true → ∀ r c, r < g.rows → g'.cellAt r c ≠ g.cellAt r c →
    g'.dirty.Marks r c
  accounted : g.Accounted → g'.Accounted

variable {g g' g'' : Grid} {cols start stop : Nat} {raw raw' raw'' : List Row}

theorem Quiet.refl (g : Grid) : Quiet g g :=
  ⟨fun _ => rfl, fun _ => ⟨rfl, rfl⟩, fun h => ⟨h, rfl⟩, ⟨rfl, rfl⟩, fun h => h⟩

theorem Quiet.trans (hrows : g'.rows = g.rows) (h : Quiet g g') (h' : Quiet g' g'') :
    Quiet g g'' where
  visible r := (h'.visible r).trans (h.visible r)
  raw hlen := by
    obtain ⟨hraw, hevicted⟩ := h.raw hlen
    obtain ⟨hraw', hevicted'⟩ := h'.raw (by rw [hraw, hrows, hlen])
    exact ⟨hraw'.trans hraw, hevicted'.trans hevicted⟩
  placements hnone := by
    obtain ⟨hnone', hbytes⟩ := h.placements hnone
    obtain ⟨hnone'', hbytes'⟩ := h'.placements hnone'
    exact ⟨hnone'', hbytes'.trans hbytes⟩
  marks := ⟨h'.marks.1.trans h.marks.1, h'.marks.2.trans h.marks.2⟩
  lastFull hlast := h'.lastFull (h.lastFull hlast)

theorem Ok.evolves_refl (h : g.Ok) : Evolves g g where
  ok := h
  rows := rfl
  cols := rfl
  config := rfl
  bound := le_max_left _ _
  tally := le_rfl
  evicted := le_rfl
  quiet _ := .refl g
  keeps := .refl g.dirty
  covers _ _ _ _ hne := absurd rfl hne
  accounted haccount := haccount

theorem Evolves.trans (h : Evolves g g') (h' : Evolves g' g'') : Evolves g g'' where
  ok := h'.ok
  rows := h'.rows.trans h.rows
  cols := h'.cols.trans h.cols
  config := h'.config.trans h.config
  bound := by
    have hbound := h'.bound
    rw [h.rows, h.config] at hbound
    exact hbound.trans (max_le h.bound (le_max_right _ _))
  tally := h.tally.trans h'.tally
  evicted := h.evicted.trans h'.evicted
  quiet htally := by
    have hle := h.tally
    have hle' := h'.tally
    exact (h.quiet (by omega)).trans h.rows (h'.quiet (by omega))
  keeps := h.keeps.trans h'.keeps
  covers htrack r c hr hne := by
    by_cases hmid : g'.cellAt r c = g.cellAt r c
    · refine h'.covers (by rw [h.config]; exact htrack) r c (by rw [h.rows]; exact hr) ?_
      rwa [hmid]
    · exact h'.keeps.marks (by rw [h.ok.enabled, h.config]; exact htrack) r c
        (h.covers htrack r c hr hmid)
  accounted haccount := h'.accounted (h.accounted haccount)

/-- Rows changed inside a range only. -/
structure Patched (cols start stop : Nat) (raw raw' : List Row) : Prop where
  length : raw'.length = raw.length
  sound : (∀ row ∈ raw, row.Sound cols) → ∀ row ∈ raw', row.Sound cols
  kept : ∀ i, ¬(start ≤ i ∧ i < stop) → raw'[i]? = raw[i]?

theorem Patched.refl (cols start stop : Nat) (raw : List Row) : Patched cols start stop raw raw :=
  ⟨rfl, fun h => h, fun _ _ => rfl⟩

theorem Patched.trans (h : Patched cols start stop raw raw')
    (h' : Patched cols start stop raw' raw'') : Patched cols start stop raw raw'' :=
  ⟨h'.length.trans h.length, fun hs => h'.sound (h.sound hs),
    fun i hi => (h'.kept i hi).trans (h.kept i hi)⟩

theorem Patched.widen {start' stop' : Nat} (h : Patched cols start stop raw raw')
    (hstart : start' ≤ start) (hstop : stop ≤ stop') : Patched cols start' stop' raw raw' :=
  ⟨h.length, h.sound, fun i hi => h.kept i (by omega)⟩

theorem runs_reverseLoop (cols fuel : Nat) {i j : Nat} (hi : start ≤ i) (hj : j < stop)
    (hstop : stop ≤ raw.length) :
    Runs (reverseLoop fuel i j raw) (Patched cols start stop raw) := by
  induction fuel generalizing i j raw with
  | zero => exact .pure (.refl cols start stop raw)
  | succ fuel ih =>
    rw [reverseLoop]
    apply Runs.ite
    · intro hij
      apply Runs.bind (.swap (by omega) (by omega))
      rintro raw' ⟨hperm, hkept⟩
      apply Runs.bind (.sub (by omega))
      rintro _ rfl
      apply (ih (by omega) (by omega) (hperm.length_eq ▸ hstop)).mono
      intro raw'' hraw''
      have hswap : Patched cols start stop raw raw' :=
        ⟨hperm.length_eq, fun hs row hrow => hs row (hperm.mem_iff.mp hrow),
          fun k hk => hkept k (by omega) (by omega)⟩
      exact hswap.trans hraw''
    · exact fun _ => .pure (.refl cols start stop raw)

theorem runs_reverseRange (cols : Nat) (hstop : stop ≤ raw.length) :
    Runs (reverseRange raw start stop) (Patched cols start stop raw) := by
  apply Runs.ite
  · exact fun _ => .pure (.refl cols start stop raw)
  · intro hlt
    apply Runs.bind (.sub (by omega))
    rintro _ rfl
    exact runs_reverseLoop cols _ le_rfl (by omega) hstop

theorem runs_rotateRangeLeft (cols n : Nat) (hle : start ≤ stop) (hstop : stop ≤ raw.length) :
    Runs (rotateRangeLeft raw start stop n) (Patched cols start stop raw) := by
  apply Runs.bind (.sub hle)
  rintro _ rfl
  apply Runs.ite
  · exact fun _ => .pure (.refl cols start stop raw)
  intro hlen
  apply Runs.ite
  · exact fun _ => .pure (.refl cols start stop raw)
  intro _
  have hturn : n % (stop - start) < stop - start := Nat.mod_lt _ (by omega)
  apply Runs.bind (runs_reverseRange cols (by omega))
  intro raw₁ h₁
  apply Runs.bind (runs_reverseRange cols (h₁.length ▸ hstop))
  intro raw₂ h₂
  have h₁₂ : Patched cols start stop raw raw₂ :=
    (h₁.widen le_rfl (by omega)).trans (h₂.widen (by omega) le_rfl)
  apply (runs_reverseRange cols (h₁₂.length ▸ hstop)).mono
  exact fun raw₃ h₃ => h₁₂.trans h₃

theorem sound_blankRow {row : Row} (h : row.Sound cols) : (blankRow cols row).Sound cols := by
  unfold blankRow
  split
  · exact h.reset .default
  · exact Row.sound_new cols

theorem runs_updateRow {i : Nat} {f : Row → Row} (hi : i < raw.length) (hin : start ≤ i ∧ i < stop)
    (hf : ∀ row, row.Sound cols → (f row).Sound cols) :
    Runs (update raw i fun row => pure (f row)) (Patched cols start stop raw) := by
  apply Runs.bind (.index hi)
  intro row hrow
  apply Runs.bind (.pure rfl)
  rintro _ rfl
  apply (Runs.assign hi).mono
  rintro _ rfl
  refine ⟨length_set, fun hs row' hrow' => ?_, fun k hk => ?_⟩
  · rcases mem_or_eq_of_mem_set hrow' with hmem | rfl
    · exact hs row' hmem
    · exact hf row (hs row (mem_of_getElem? hrow))
  · apply List.getElem?_set_ne
    rintro rfl
    exact hk hin

theorem runs_mapRows {f : Row → Row} (hstop : stop ≤ raw.length)
    (hf : ∀ row, row.Sound cols → (f row).Sound cols) :
    Runs (mapRows raw start stop f) (Patched cols start stop raw) := by
  apply Runs.each (Patched cols start stop raw) (.refl cols start stop raw)
  intro i hi raw' hraw'
  rw [mem_span] at hi
  apply (runs_updateRow (by rw [hraw'.length]; omega) hi hf).mono
  exact fun raw'' hraw'' => hraw'.trans hraw''

theorem runs_blankRows (cols : Nat) (hstop : stop ≤ raw.length) :
    Runs (blankRows raw cols start stop) (Patched cols start stop raw) :=
  runs_mapRows hstop fun _ h => sound_blankRow h

variable {β : Type} {f : Row → Checked (Row × β)}

/-- Outside the grid's width there is no cell on either side of a change. -/
theorem lt_cols_of_cellAt_ne {row row' : Option Row} (hrow : ∀ r, row = some r → r.Sound cols)
    (hrow' : ∀ r, row' = some r → r.Sound cols) {c : Nat}
    (hne : (row'.bind fun r => r.cells[c]?) ≠ row.bind fun r => r.cells[c]?) : c < cols := by
  by_contra hle
  have hnone (o : Option Row) (ho : ∀ r, o = some r → r.Sound cols) :
      (o.bind fun r => r.cells[c]?) = none := by
    cases o with
    | none => rfl
    | some r => exact List.getElem?_eq_none (by rw [(ho r rfl).length]; omega)
  exact hne ((hnone row' hrow').trans (hnone row hrow).symm)

section

variable (h : g.Ok)
include h

/-- A write: it changes rows without adding any, counts, and marks what it changed. -/
theorem Ok.evolves_write (hlen : raw.length = g.raw.length) (hsound : ∀ row ∈ raw, row.Sound g.cols)
    (htally : g.mutations < mutations) (hfits : dirty.Fits g.rows g.cols)
    (hkeeps : g.dirty.Keeps dirty)
    (hcovers : g.dirty.enabled = true → ∀ r c, r < g.rows → c < g.cols →
      raw[g.scrollbackLen + r]? ≠ g.raw[g.scrollbackLen + r]? →
      ((raw[g.scrollbackLen + r]?).bind fun row => row.cells[c]?) ≠ g.cellAt r c →
      dirty.Marks r c) :
    Evolves g { g with raw, dirty, mutations } where
  ok := ⟨by rw [hlen]; exact h.rows_le, hsound, hfits, hkeeps.enabled.trans h.enabled⟩
  rows := rfl
  cols := rfl
  config := rfl
  bound := by rw [hlen]; exact le_max_left _ _
  tally := htally.le
  evicted := le_rfl
  quiet heq := absurd heq htally.ne'
  keeps := hkeeps
  covers htrack r c hr hne := by
    have hsb : scrollbackLen { g with raw, dirty, mutations } = g.scrollbackLen := by
      rw [scrollbackLen, scrollbackLen, hlen]
    unfold cellAt at hne
    rw [hsb] at hne
    refine hcovers (h.enabled.trans htrack) r c hr ?_ ?_ hne
    · exact lt_cols_of_cellAt_ne (fun r hr => h.sound r (mem_of_getElem? hr))
        (fun r hr => hsound r (mem_of_getElem? hr)) hne
    · intro heq
      exact hne (by rw [heq])
  accounted haccount := ⟨haccount.count, haccount.light, haccount.few⟩

/-- A write to some visible rows, all of them marked. -/
theorem Ok.evolves_patch {first last : Nat}
    (hpatch : Patched g.cols (g.scrollbackLen + first) (g.scrollbackLen + last) g.raw raw)
    (htally : g.mutations < mutations) (hfits : dirty.Fits g.rows g.cols)
    (hkeeps : g.dirty.Keeps dirty)
    (hmarks : g.dirty.enabled = true → ∀ r, first ≤ r → r < last → r < g.rows →
      ∀ c, c < g.cols → dirty.Marks r c) :
    Evolves g { g with raw, dirty, mutations } := by
  apply h.evolves_write hpatch.length (hpatch.sound h.sound) htally hfits hkeeps
  intro he r c hr hc hrow _
  have hin : g.scrollbackLen + first ≤ g.scrollbackLen + r ∧
      g.scrollbackLen + r < g.scrollbackLen + last := by
    by_contra hout
    exact hrow (hpatch.kept _ hout)
  exact hmarks he r (by omega) (by omega) hr c hc

theorem Ok.scrollbackLen_add : g.scrollbackLen + g.rows = g.raw.length :=
  Nat.sub_add_cancel h.rows_le

theorem Ok.editRow {Q : Row → Row × β → Prop} (hrow : row < g.rows)
    (hf : ∀ old, old.Sound g.cols → Runs (f old) (Q old)) :
    Runs (g.editRow row f) fun out => ∃ old new, g.raw[g.scrollbackLen + row]? = some old ∧
      old.Sound g.cols ∧ Q old (new, out.2) ∧
      out.1 = { g with raw := g.raw.set (g.scrollbackLen + row) new } := by
  have hsb := h.scrollbackLen_add
  have hlt : g.scrollbackLen + row < g.raw.length := by omega
  apply Runs.bind (.index hlt)
  intro old hold
  have hsound := h.sound old (mem_of_getElem? hold)
  apply Runs.bind (hf old hsound)
  rintro ⟨new, out⟩ hQ
  apply Runs.bind (.assign hlt)
  rintro _ rfl
  exact .pure ⟨old, new, hold, hsound, hQ, rfl⟩

/-- One row replaced by another that agrees with it outside some columns, those marked. -/
theorem Ok.evolves_setRow {first last : Nat} {old new : Row} (hrow : row < g.rows)
    (hold : g.raw[g.scrollbackLen + row]? = some old) (hnew : new.Sound g.cols)
    (hsame : ∀ c, ¬(first ≤ c ∧ c < last) → new.cells[c]? = old.cells[c]?)
    (htally : g.mutations < mutations) (hfits : dirty.Fits g.rows g.cols)
    (hkeeps : g.dirty.Keeps dirty)
    (hmarks : g.dirty.enabled = true → row < g.rows → ∀ c, first ≤ c → c < last → c < g.cols →
      dirty.Marks row c) :
    Evolves g { g with raw := g.raw.set (g.scrollbackLen + row) new, dirty, mutations } := by
  have hlt : g.scrollbackLen + row < g.raw.length := (List.getElem?_eq_some_iff.mp hold).1
  refine h.evolves_write length_set ?_ htally hfits hkeeps ?_
  · intro r hr
    rcases mem_or_eq_of_mem_set hr with hr | rfl
    · exact h.sound r hr
    · exact hnew
  · intro he r c hr hc hne hcell
    have hrr : r = row := by
      by_contra hrr
      exact hne (List.getElem?_set_ne (by omega))
    subst hrr
    rw [List.getElem?_set_self hlt, cellAt, hold] at hcell
    have hin : first ≤ c ∧ c < last := by
      by_contra hout
      exact hcell (hsame c hout)
    exact hmarks he hr c hin.1 hin.2 hc

theorem Ok.bumpMutations : g.bumpMutations.Ok := ⟨h.rows_le, h.sound, h.dirty, h.enabled⟩

/-- An edit of one visible row, all of it marked. -/
theorem Ok.editRowMarkedAt {old : Row}
    (hrow : row < g.rows) (hold : g.raw[g.scrollbackLen + row]? = some old)
    (hf : old.Sound g.cols → Runs (f old) fun out => out.1.Sound g.cols) :
    Runs (g.editRowMarked row f) fun out => Evolves g out.1 := by
  have hsound := h.sound old (mem_of_getElem? hold)
  have hlt : g.scrollbackLen + row < g.raw.length := (List.getElem?_eq_some_iff.mp hold).1
  apply Runs.bind (h.dirty.markRow row)
  rintro dirty ⟨hfits, hkeeps, hmarks⟩
  apply Runs.bind ⟨old, hold, rfl⟩
  rintro _ rfl
  apply Runs.bind (hf hsound)
  rintro ⟨new, out⟩ hnew
  apply Runs.bind (.assign hlt)
  rintro _ rfl
  have hsame (c : Nat) (hc : ¬(0 ≤ c ∧ c < g.cols)) : new.cells[c]? = old.cells[c]? := by
    have hold' := hsound.length
    have hnew' : new.cells.length = g.cols := hnew.length
    rw [List.getElem?_eq_none (by omega), List.getElem?_eq_none (by omega)]
  apply Runs.pure
  exact h.evolves_setRow hrow hold hnew hsame (Nat.lt_succ_self _) hfits hkeeps
    fun he hr c _ hc _ => hmarks he hr c hc

theorem Ok.editRowMarked (hrow : row < g.rows)
    (hf : ∀ old, old.Sound g.cols → Runs (f old) fun out => out.1.Sound g.cols) :
    Runs (g.editRowMarked row f) fun out => Evolves g out.1 := by
  have hsb := h.scrollbackLen_add
  have hlt : g.scrollbackLen + row < g.raw.length := by omega
  exact h.editRowMarkedAt hrow (List.getElem?_eq_getElem hlt) (hf _)

theorem Ok.modifyRowMarked {f : Row → Checked Row} (hrow : row < g.rows)
    (hf : ∀ old, old.Sound g.cols → Runs (f old) (Row.Sound g.cols)) :
    Runs (g.modifyRowMarked row f) (Evolves g) := by
  refine .bind (h.editRowMarked hrow fun old hold => ?_) fun out hout => .pure hout
  exact .bind (hf old hold) fun new hnew => .pure hnew

theorem Ok.eraseChars (hrow : row < g.rows) (col count : Nat)
    (bg : Color) : Runs (g.eraseChars row col count bg) (Evolves g) := by
  apply Runs.bind (h.bumpMutations.editRow hrow fun old hold =>
    hold.eraseCharsExpandingWidePairs col count bg)
  rintro ⟨g', range⟩ ⟨old, new, hold, hsound, ⟨hnew, hrange⟩, rfl⟩
  cases range with
  | none =>
    have hsame : new = old := hrange
    subst hsame
    apply Runs.pure
    exact h.evolves_setRow hrow hold hnew (fun c (_ : ¬(0 ≤ c ∧ c < 0)) => rfl)
      (Nat.lt_succ_self _) h.dirty (.refl _) (fun _ _ c _ hc => by omega)
  | some range =>
    obtain ⟨first, last⟩ := range
    apply Runs.bind (h.dirty.markRange row first last)
    rintro dirty ⟨hfits, hkeeps, hmarks⟩
    apply Runs.pure
    exact h.evolves_setRow hrow hold hnew hrange (Nat.lt_succ_self _) hfits hkeeps hmarks

end

/-- A row that agrees with another up to the column before `col` differs from it only in
the columns from there to the edge. -/
theorem same_outside {old new : Row} {col : Nat} (hold : old.Sound cols) (hnew : new.Sound cols)
    (hsame : ∀ i, i + 1 < col → new.cells[i]? = old.cells[i]?) (c : Nat)
    (hc : ¬(col - 1 ≤ c ∧ c < cols)) : new.cells[c]? = old.cells[c]? := by
  by_cases hlt : c + 1 < col
  · exact hsame c hlt
  · have hold' := hold.length
    have hnew' := hnew.length
    rw [List.getElem?_eq_none (by omega), List.getElem?_eq_none (by omega)]

theorem Ok.insertChars {col count : Nat} (h : g.Ok) (hrow : row < g.rows)
    (hcol : col < g.cols) (hcount : 0 < count) :
    Runs (g.insertChars row col count) (Evolves g) := by
  refine .bind (h.bumpMutations.editRow (Q := fun old out => (out.1.Sound g.cols ∧
    ∀ i, i + 1 < col → out.1.cells[i]? = old.cells[i]?) ∧ out.2 = old.len) hrow
    fun old hold => ?_) ?_
  · apply Runs.bind (hold.insertChars col count)
    intro new hnew
    exact .pure ⟨hnew, rfl⟩
  · rintro ⟨g', len⟩ ⟨old, new, hold, hsound, ⟨⟨hnew, hsame⟩, hlen⟩, rfl⟩
    have hlen' : len = g.cols := hlen.trans hsound.length
    subst hlen'
    refine .ite (fun _ => ?_) fun hnot => absurd ⟨hcount, hcol⟩ hnot
    apply Runs.bind (h.dirty.markRange row (col - 1) g.cols)
    rintro dirty ⟨hfits, hkeeps, hmarks⟩
    apply Runs.pure
    exact h.evolves_setRow hrow hold hnew (same_outside hsound hnew hsame)
      (Nat.lt_succ_self _) hfits hkeeps hmarks

theorem Ok.deleteChars (h : g.Ok) (hrow : row < g.rows) (col count : Nat) :
    Runs (g.deleteChars row col count) (Evolves g) := by
  refine .bind (h.bumpMutations.editRow (Q := fun old out => out.1.Sound g.cols ∧
    out.2.elim (out.1 = old) fun len =>
      len = old.len ∧ ∀ i, i + 1 < col → out.1.cells[i]? = old.cells[i]?) hrow
    fun old hold => ?_) ?_
  · apply Runs.ite
    · exact fun _ => .pure ⟨hold, rfl⟩
    · intro hactual
      have hlen : old.len = g.bumpMutations.cols := hold.length
      apply Runs.bind (hold.deleteChars (by omega))
      rintro new ⟨hnew, hsame⟩
      exact .pure ⟨hnew, And.intro rfl hsame⟩
  · rintro ⟨g', deleted⟩ ⟨old, new, hold, hsound, ⟨hnew, hdeleted⟩, rfl⟩
    cases deleted with
    | none =>
      have hsame : new = old := hdeleted
      subst hsame
      apply Runs.pure
      exact h.evolves_setRow hrow hold hnew (fun c (_ : ¬(0 ≤ c ∧ c < 0)) => rfl)
        (Nat.lt_succ_self _) h.dirty (.refl _) (fun _ _ c _ hc => by omega)
    | some len =>
      obtain ⟨hlen, hsame⟩ := hdeleted
      have hlen' : len = g.cols := hlen.trans hsound.length
      subst hlen'
      apply Runs.bind (h.dirty.markRange row (col - 1) g.cols)
      rintro dirty ⟨hfits, hkeeps, hmarks⟩
      apply Runs.pure
      exact h.evolves_setRow hrow hold hnew (same_outside hsound hnew hsame)
        (Nat.lt_succ_self _) hfits hkeeps hmarks

/-! ## Clearing -/

theorem Ok.mapVisible {f : Row → Row} (h : g.Ok)
    (hf : ∀ row, row.Sound g.cols → (f row).Sound g.cols) :
    Runs (g.mapVisible f) (Evolves g) := by
  apply Runs.bind (runs_mapRows le_rfl hf)
  intro raw hraw
  apply Runs.bind (h.dirty.markRows 0 g.rows)
  rintro dirty ⟨hfits, hkeeps, hmarks⟩
  apply Runs.pure
  refine h.evolves_patch (hraw.widen le_rfl ?_) (Nat.lt_succ_self _) hfits hkeeps hmarks
  exact h.scrollbackLen_add.ge

theorem Ok.clearVisible (h : g.Ok) (bg : Color) : Runs (g.clearVisible bg) (Evolves g) :=
  h.mapVisible fun _ hrow => hrow.reset bg

theorem Ok.fillAlignmentPattern (h : g.Ok) : Runs g.fillAlignmentPattern (Evolves g) :=
  h.mapVisible fun _ hrow => hrow.fillAlignmentPattern

theorem Ok.clearBelow (h : g.Ok) (startRow : Nat) (bg : Color) :
    Runs (g.clearBelow startRow bg) (Evolves g) := by
  apply Runs.bind (runs_mapRows le_rfl fun _ hrow => hrow.reset bg)
  intro raw hraw
  apply Runs.bind (h.dirty.markRows startRow g.rows)
  rintro dirty ⟨hfits, hkeeps, hmarks⟩
  apply Runs.pure
  refine h.evolves_patch (hraw.widen le_rfl ?_) (Nat.lt_succ_self _) hfits hkeeps hmarks
  exact h.scrollbackLen_add.ge

theorem Ok.clearAbove {endRow : Nat} (h : g.Ok) (hend : endRow < g.rows) (bg : Color) :
    Runs (g.clearAbove endRow bg) (Evolves g) := by
  have hsb := h.scrollbackLen_add
  have hstop : g.scrollbackLen + endRow + 1 ≤ g.raw.length := by omega
  have hstart : g.scrollbackLen ≤ g.scrollbackLen + endRow + 1 := by omega
  apply Runs.bind (.mapSlice hstart hstop)
  rintro raw ⟨hlen, hat⟩
  apply Runs.bind (h.dirty.markRows 0 (endRow + 1))
  rintro dirty ⟨hfits, hkeeps, hmarks⟩
  apply Runs.pure
  have hpatch :
      Patched g.cols (g.scrollbackLen + 0) (g.scrollbackLen + (endRow + 1)) g.raw raw := by
    refine ⟨hlen, fun hs row hrow => ?_, fun i hi => ?_⟩
    · obtain ⟨i, hi⟩ := mem_iff_getElem?.mp hrow
      rw [hat] at hi
      split at hi
      · obtain ⟨old, hold, rfl⟩ := Option.map_eq_some_iff.mp hi
        exact (hs old (mem_of_getElem? hold)).reset bg
      · exact hs row (mem_of_getElem? hi)
    · rw [hat, if_neg]
      show ¬(g.scrollbackLen ≤ i ∧ i < g.scrollbackLen + endRow + 1)
      omega
  exact h.evolves_patch hpatch (Nat.lt_succ_self _) hfits hkeeps hmarks

theorem clampRegion_some {top bottom top' bottom' : Nat}
    (h : g.clampRegion top bottom = some (top', bottom')) : top' ≤ bottom' ∧ bottom' < g.rows := by
  unfold clampRegion at h
  split at h
  · cases h
  · split at h
    · cases h
    · cases h
      omega

/-- A region of the screen lies in the rows that are held. -/
theorem Ok.region_fits (h : g.Ok) {top bottom top' bottom' : Nat}
    (hregion : g.clampRegion top bottom = some (top', bottom')) :
    top' ≤ bottom' ∧ bottom' < g.rows ∧
      g.scrollbackLen + top' ≤ g.scrollbackLen + bottom' + 1 ∧
      g.scrollbackLen + bottom' + 1 ≤ g.raw.length := by
  obtain ⟨hle, hlt⟩ := clampRegion_some hregion
  have hsb := h.scrollbackLen_add
  omega

theorem length_recycle (n : Nat) (raw : List Row) : (recycle cols n raw).1.length = raw.length := by
  induction n generalizing raw with
  | zero => rfl
  | succ n ih =>
    cases raw with
    | nil => rfl
    | cons row raw =>
      rw [recycle]
      show (recycle cols n (raw ++ [blankRow cols row])).1.length = _
      rw [ih, length_append]
      rfl

theorem sound_recycle (n : Nat) (hsound : ∀ row ∈ raw, row.Sound cols) :
    ∀ row ∈ (recycle cols n raw).1, row.Sound cols := by
  induction n generalizing raw with
  | zero => exact hsound
  | succ n ih =>
    cases raw with
    | nil => exact hsound
    | cons row raw =>
      apply ih
      intro r hr
      rcases mem_append.mp hr with hr | hr
      · exact hsound r (mem_cons_of_mem row hr)
      · rw [mem_singleton.mp hr]
        exact sound_blankRow (hsound row mem_cons_self)

theorem Ok.scrollScreenUp (h : g.Ok) (n : Nat) :
    Runs (g.scrollScreenUp n) fun g' => g'.rows ≤ g'.raw.length ∧
      (∀ row ∈ g'.raw, row.Sound g.cols) ∧
      g'.raw.length ≤ g.rows + g.config.maxScrollback ∧ g.evicted ≤ g'.evicted ∧
      ∃ raw evicted, g' = { g with raw, evicted } := by
  apply Runs.bind (.sub (min_le_left _ _))
  rintro _ rfl
  apply Runs.pure
  have hrows := h.rows_le
  have hgrown : ∀ row ∈ g.raw ++ List.replicate
      (min n (g.rows + g.config.maxScrollback - g.raw.length)) (Row.new g.cols),
      row.Sound g.cols := by
    intro row hrow
    rcases mem_append.mp hrow with hrow | hrow
    · exact h.sound row hrow
    · rw [eq_of_mem_replicate hrow]
      exact Row.sound_new g.cols
  refine ⟨?_, ?_, ?_, ?_, _, _, rfl⟩
  · simp only [length_drop, length_recycle, length_append, length_replicate]
    omega
  · intro row hrow
    exact sound_recycle _ hgrown row (mem_of_mem_drop hrow)
  · simp only [length_drop, length_recycle, length_append, length_replicate]
    omega
  · show g.evicted ≤ g.evicted + _ + _
    omega

/-- A scroll of the whole screen marks every cell. -/
theorem Ok.evolves_screen (h : g.Ok) {evicted n : Nat} (hlen : g.rows ≤ raw.length)
    (hsound : ∀ row ∈ raw, row.Sound g.cols)
    (hbound : raw.length ≤ g.rows + g.config.maxScrollback) (hevicted : g.evicted ≤ evicted)
    (hn : n ≠ 0) :
    Evolves g { g with
      raw := raw, evicted := evicted, mutations := g.mutations + n, dirty := g.dirty.markAll } where
  ok := ⟨hlen, hsound, h.dirty.markAll, (keeps_markAll g.dirty).enabled.trans h.enabled⟩
  rows := rfl
  cols := rfl
  config := rfl
  bound := hbound.trans (le_max_right _ _)
  tally := Nat.le_add_right _ _
  evicted := hevicted
  quiet heq := by
    have : g.mutations + n = g.mutations := heq
    omega
  keeps := keeps_markAll _
  covers htrack r c _ _ := marks_markAll (h.enabled.trans htrack) r c
  accounted haccount := ⟨haccount.count, haccount.light, haccount.few⟩

/-- A scroll of a region marks the rows of the region. -/
theorem Ok.markScrolled {top bottom : Nat} (h : g.Ok)
    (hpatch : Patched g.cols (g.scrollbackLen + top) (g.scrollbackLen + (bottom + 1)) g.raw raw)
    (htally : g.mutations < mutations) :
    Runs (markScrolled { g with raw, mutations } top bottom) (Evolves g) := by
  apply Runs.ite
  · intro _
    apply Runs.pure
    exact h.evolves_patch hpatch htally h.dirty.markAll (keeps_markAll _)
      fun he r _ _ _ c _ => marks_markAll he r c
  · intro _
    apply Runs.bind (h.dirty.markRows top (bottom + 1))
    rintro dirty ⟨hfits, hkeeps, hmarks⟩
    apply Runs.pure
    exact h.evolves_patch hpatch htally hfits hkeeps hmarks

theorem Ok.scrollUpN (h : g.Ok) (top bottom n : Nat) :
    Runs (g.scrollUpN top bottom n) (Evolves g) := by
  unfold Grid.scrollUpN
  cases hregion : g.clampRegion top bottom with
  | none => exact .pure h.evolves_refl
  | some region =>
    obtain ⟨top', bottom'⟩ := region
    obtain ⟨hle, hlt, hstart, hstop⟩ := h.region_fits hregion
    apply Runs.bind (.sub hle)
    rintro _ rfl
    apply Runs.ite
    · exact fun _ => .pure h.evolves_refl
    intro hn
    have hrows : 1 ≤ g.rows := by omega
    apply Runs.bind (.sub hrows)
    rintro _ rfl
    apply Runs.ite
    · rintro ⟨rfl, rfl⟩
      have hok : Ok { g with mutations := g.mutations + min n (g.rows - 1 - 0 + 1) } :=
        ⟨h.rows_le, h.sound, h.dirty, h.enabled⟩
      apply Runs.bind (hok.scrollScreenUp _)
      rintro g' ⟨hrows', hsound, hbound, hevicted, raw, evicted, rfl⟩
      rw [Grid.markScrolled, if_pos ⟨rfl, rfl⟩]
      exact .pure (h.evolves_screen hrows' hsound hbound hevicted hn)
    · intro _
      apply Runs.bind (runs_rotateRangeLeft g.cols _ hstart hstop)
      intro raw₁ h₁
      have hfirst : min n (bottom' - top' + 1) ≤ g.scrollbackLen + bottom' + 1 := by omega
      apply Runs.bind (.sub hfirst)
      rintro _ rfl
      apply Runs.bind (runs_blankRows g.cols (h₁.length ▸ hstop))
      intro raw₂ h₂
      have htally : g.mutations < g.mutations + min n (bottom' - top' + 1) := by omega
      refine h.markScrolled (h₁.trans (h₂.widen ?_ le_rfl)) htally
      omega

theorem Ok.scrollDownN (h : g.Ok) (top bottom n : Nat) :
    Runs (g.scrollDownN top bottom n) (Evolves g) := by
  unfold Grid.scrollDownN
  cases hregion : g.clampRegion top bottom with
  | none => exact .pure h.evolves_refl
  | some region =>
    obtain ⟨top', bottom'⟩ := region
    obtain ⟨hle, hlt, hstart, hstop⟩ := h.region_fits hregion
    apply Runs.bind (.sub hle)
    rintro _ rfl
    apply Runs.ite
    · exact fun _ => .pure h.evolves_refl
    intro hn
    apply Runs.bind (.sub (min_le_right _ _))
    rintro _ rfl
    apply Runs.bind (runs_rotateRangeLeft g.cols _ hstart hstop)
    intro raw₁ h₁
    have hblank : g.scrollbackLen + top' + min n (bottom' - top' + 1) ≤
        g.scrollbackLen + bottom' + 1 := by omega
    apply Runs.bind (runs_blankRows g.cols (h₁.length ▸ hblank.trans hstop))
    intro raw₂ h₂
    have htally : g.mutations < g.mutations + min n (bottom' - top' + 1) := by omega
    exact h.markScrolled (h₁.trans (h₂.widen le_rfl hblank)) htally

theorem Ok.markAllDirty (h : g.Ok) : Evolves g g.markAllDirty where
  ok := ⟨h.rows_le, h.sound, h.dirty.markAll, (keeps_markAll g.dirty).enabled.trans h.enabled⟩
  rows := rfl
  cols := rfl
  config := rfl
  bound := le_max_left _ _
  tally := le_rfl
  evicted := le_rfl
  quiet _ := by
    refine ⟨fun _ => rfl, fun _ => ⟨rfl, rfl⟩, fun hnone => ⟨hnone, rfl⟩, ?_, ?_⟩
    · unfold Grid.markAllDirty markAll
      dsimp only
      split <;> exact ⟨rfl, rfl⟩
    · intro hlast
      unfold Grid.markAllDirty markAll
      dsimp only
      split
      · exact hlast
      · rfl
  keeps := keeps_markAll _
  covers _ _ _ _ hne := absurd rfl hne
  accounted haccount := ⟨haccount.count, haccount.light, haccount.few⟩

theorem getElem?_clearScrollback (h : g.Ok) (r : Nat) :
    g.clearScrollback.raw[g.clearScrollback.scrollbackLen + r]? = g.raw[g.scrollbackLen + r]? := by
  have hsb := h.scrollbackLen_add
  have hzero : g.clearScrollback.scrollbackLen = 0 := by
    simp only [scrollbackLen, Grid.clearScrollback, length_drop]
    omega
  rw [hzero, Nat.zero_add]
  exact List.getElem?_drop

theorem Ok.clearScrollback (h : g.Ok) : Evolves g g.clearScrollback where
  ok := by
    refine ⟨?_, fun row hrow => h.sound row (mem_of_mem_drop hrow), h.dirty, h.enabled⟩
    have hsb := h.scrollbackLen_add
    simp only [Grid.clearScrollback, length_drop]
    omega
  rows := rfl
  cols := rfl
  config := rfl
  bound := by
    simp only [Grid.clearScrollback, length_drop]
    omega
  tally := le_rfl
  evicted := Nat.le_add_right _ _
  quiet _ := by
    refine ⟨getElem?_clearScrollback h, fun hlen => ?_, fun hnone => ⟨hnone, rfl⟩, ⟨rfl, rfl⟩,
      fun hlast => hlast⟩
    have hzero : g.scrollbackLen = 0 := by rw [scrollbackLen, hlen, Nat.sub_self]
    simp only [Grid.clearScrollback, hzero, drop_zero, Nat.add_zero, and_self]
  keeps := .refl _
  covers _ r c _ hne := by
    unfold cellAt at hne
    rw [getElem?_clearScrollback h] at hne
    exact absurd rfl hne
  accounted haccount := ⟨haccount.count, haccount.light, haccount.few⟩

theorem placementBytes_append (placements placements' : List Placement) :
    placementBytes (placements ++ placements') =
      placementBytes placements + placementBytes placements' := by
  rw [placementBytes, map_append, sum_append]
  rfl

/-- What is kept and what is dropped make up the whole. -/
theorem placementBytes_filter (placements : List Placement) (keep : Placement → Bool) :
    placementBytes (placements.filter keep) +
        placementBytes (placements.filter fun p => !keep p) =
      placementBytes placements := by
  have hperm := (filter_append_perm keep placements).map fun p => p.image.payload.length
  have hsum := hperm.sum_eq
  rw [map_append, sum_append] at hsum
  exact hsum

/-- Replacing a placement puts its payload in place of the old one. -/
theorem placementBytes_set {i : Nat} {old : Placement}
    (hold : placements[i]? = some old) (p : Placement) :
    placementBytes (placements.set i p) + old.image.payload.length =
      placementBytes placements + p.image.payload.length := by
  induction placements generalizing i with
  | nil => cases hold
  | cons first placements ih =>
    cases i with
    | zero =>
      cases hold
      show p.image.payload.length + placementBytes placements + _ =
        old.image.payload.length + placementBytes placements + _
      omega
    | succ i =>
      have hrest := ih hold
      show first.image.payload.length + placementBytes (placements.set i p) + _ =
        first.image.payload.length + placementBytes placements + _
      omega

theorem Accounted.filter (h : g.Accounted) (keep : Placement → Bool) (mutations : Nat) :
    Accounted { g with
      placements := g.placements.filter keep
      placedBytes := g.placedBytes - placementBytes (g.placements.filter fun p => !keep p)
      mutations } := by
  have hsplit := placementBytes_filter g.placements keep
  have hcount := h.count
  have hlight := h.light
  refine ⟨?_, ?_, (length_filter_le _ _).trans h.few⟩
  · show g.placedBytes - _ = placementBytes (g.placements.filter keep)
    omega
  · show g.placedBytes - _ ≤ maxImageBytes
    omega

theorem Accounted.pruneEvictedPlacements (h : g.Accounted) : g.pruneEvictedPlacements.Accounted :=
  h.filter (placementLive g.evicted) g.mutations

/-- A change of placements, which counts as a write unless it only drops some. -/
theorem Ok.evolves_placements (h : g.Ok) {placedBytes : Nat} (htally : g.mutations ≤ mutations)
    (hquiet : mutations = g.mutations → g.placements = [] →
      placements = [] ∧ placedBytes = g.placedBytes)
    (haccount : g.Accounted → Accounted { g with placements, placedBytes, mutations }) :
    Evolves g { g with placements, placedBytes, mutations } where
  ok := ⟨h.rows_le, h.sound, h.dirty, h.enabled⟩
  rows := rfl
  cols := rfl
  config := rfl
  bound := le_max_left _ _
  tally := htally
  evicted := le_rfl
  quiet heq := ⟨fun _ => rfl, fun _ => ⟨rfl, rfl⟩, hquiet heq, ⟨rfl, rfl⟩, fun hlast => hlast⟩
  keeps := .refl _
  covers _ _ _ _ hne := absurd rfl hne
  accounted := haccount

theorem Ok.pruneEvictedPlacements (h : g.Ok) : Evolves g g.pruneEvictedPlacements := by
  refine h.evolves_placements le_rfl ?_ Accounted.pruneEvictedPlacements
  intro _ hnone
  rw [hnone]
  exact ⟨rfl, rfl⟩

theorem Ok.put (h : g.Ok) (p : Placement) : Runs (g.put p) fun out => Evolves g out.1 := by
  have hprune := h.pruneEvictedPlacements
  have hcount {placements : List Placement} {placedBytes : Nat}
      (haccount : g.pruneEvictedPlacements.Accounted →
        placedBytes = placementBytes placements ∧ placedBytes ≤ maxImageBytes ∧
          placements.length ≤ maxPlacements) :
      Evolves g { g.pruneEvictedPlacements with
        placements, placedBytes, mutations := g.pruneEvictedPlacements.mutations + 1 } := by
    refine hprune.trans (hprune.ok.evolves_placements (Nat.le_add_right _ 1)
      (fun heq => by omega) fun h => ?_)
    obtain ⟨hsum, hlight, hfew⟩ := haccount h
    exact ⟨hsum, hlight, hfew⟩
  unfold Grid.put
  dsimp only
  split
  · next i hfind =>
    have hlt : i < g.pruneEvictedPlacements.placements.length :=
      (List.findIdx?_eq_some_iff_getElem.mp hfind).1
    apply Runs.bind (.index hlt)
    intro old hold
    apply Runs.ite
    · exact fun _ => .pure hprune
    · intro hlight
      apply Runs.bind (.assign hlt)
      rintro _ rfl
      apply Runs.pure
      refine hcount fun haccount => ⟨?_, by omega, ?_⟩
      · have hset := placementBytes_set hold p
        rw [← haccount.count] at hset
        have hle : old.image.payload.length ≤ g.pruneEvictedPlacements.placedBytes := by
          rw [haccount.count]
          exact le_sum_of_mem (mem_map_of_mem (mem_of_getElem? hold))
        omega
      · rw [length_set]
        exact haccount.few
  · apply Runs.ite
    · exact fun _ => .pure hprune
    · intro hroom
      apply Runs.pure
      refine hcount fun haccount => ⟨?_, by omega, ?_⟩
      · rw [placementBytes_append, haccount.count]
        rfl
      · rw [length_append, length_singleton]
        omega

theorem Ok.unplaceWhere (h : g.Ok) (gone : Placement → Bool) :
    Evolves g (g.unplaceWhere gone).1 := by
  apply h.evolves_placements
  · split <;> omega
  · intro _ hnone
    rw [hnone]
    exact ⟨rfl, rfl⟩
  · intro haccount
    have hfilter := haccount.filter (fun p => !gone p)
    simp only [Bool.not_not] at hfilter
    exact hfilter _

theorem accounted_bare (hnone : g.placements = []) (hzero : g.placedBytes = 0) : g.Accounted := by
  refine ⟨?_, ?_, ?_⟩
  · rw [hzero, hnone]
    rfl
  · rw [hzero]
    exact Nat.zero_le _
  · rw [hnone]
    exact Nat.zero_le _

theorem Ok.unplaceAll (h : g.Ok) : Evolves g g.unplaceAll := by
  unfold Grid.unplaceAll
  split
  · exact h.evolves_refl
  · exact h.evolves_placements (Nat.le_add_right _ 1) (fun heq => by omega)
      fun _ => accounted_bare rfl rfl

end Shux.Vt.Grid
