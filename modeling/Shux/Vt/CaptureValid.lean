/-
# What the validator accepts

Runs that encode the glyphs of a row pass the validator. The other way round a row of runs
that passes encodes some glyphs, as long as it has no bare blank in the default style, which
the encoder leaves out, and no array run longer than a row can be, whose length saturates.
-/

import Shux.Lib.Fallible
import Shux.Vt.CaptureRuns

namespace Shux.Vt

open Fallible List

variable {style : CapStyle} {entry : List Char}
variable {simple : Bool} {glyph : Cell} {span : Nat} {out : Nat × Bool}

section Entries

variable [Crates] {row col : Nat}
variable {last : Option (Nat × RunKey)}

/-- A single scalar in one column must display there. -/
def NarrowEntry (entry : List Char) : Prop :=
  entry.isEmpty = false ∧
    (entry.length = 1 → graphemeDisplayWidth entry ≠ 0 ∧ graphemeDisplayWidth entry ≠ 2)

/-- A single scalar in two columns must need them. -/
def WideEntry (entry : List Char) : Prop :=
  entry.isEmpty = false ∧ (entry.length = 1 → graphemeDisplayWidth entry = 2)

theorem validateEntries_narrow {rest : List (List Char)}
    (hentry : NarrowEntry entry) (hrest : StartsGlyph rest) (i span : Nat) (simple : Bool) :
    validateEntries row col (entry :: rest) i span simple =
      validateEntries row col rest (i + 1) (min (span + 1) (2 ^ 16 - 1))
        (simple && decide (entry.length = 1)) := by
  obtain ⟨hne, hdisplay⟩ := hentry
  cases rest with
  | nil =>
    rw [validateEntries, validateEntries, hne, if_neg Bool.false_ne_true]
    by_cases hone : entry.length = 1
    · rw [if_pos hone, if_neg (hdisplay hone).1, if_neg (hdisplay hone).2, decide_eq_true hone,
        Bool.and_true]
    · rw [if_neg hone, decide_eq_false hone, Bool.and_false]
  | cons next rest =>
    rw [validateEntries, hne, if_neg Bool.false_ne_true, hrest next rfl, if_neg Bool.false_ne_true]
    by_cases hone : entry.length = 1
    · rw [if_pos hone, if_neg (hdisplay hone).1, if_neg (hdisplay hone).2, decide_eq_true hone,
        Bool.and_true]
    · rw [if_neg hone, decide_eq_false hone, Bool.and_false]

theorem validateEntries_wide {rest : List (List Char)}
    (hentry : WideEntry entry) (hrest : StartsGlyph rest) (i span : Nat) (simple : Bool) :
    validateEntries row col (entry :: [] :: rest) i span simple =
      validateEntries row col rest (i + 2) (min (span + 2) (2 ^ 16 - 1)) false := by
  obtain ⟨hne, hdisplay⟩ := hentry
  have hsingle : ¬(entry.length = 1 ∧ graphemeDisplayWidth entry ≠ 2) := fun h => h.2 (hdisplay h.1)
  have hnext : ¬(rest.head?.any List.isEmpty = true) := by
    cases hhead : rest.head? with
    | none => exact Bool.false_ne_true
    | some next =>
      rw [Option.any_some, hrest next hhead]
      exact Bool.false_ne_true
  rw [validateEntries, hne, if_neg Bool.false_ne_true, if_pos isEmpty_nil, if_neg hsingle,
    if_neg hnext]

variable {glyphs : List Cell}

omit [Crates] in
theorem displayText_length (h : glyph.Kept) :
    glyph.displayText.length = 1 ↔ glyph.grapheme = none := by
  unfold Cell.displayText
  cases htext : glyph.grapheme with
  | none => exact ⟨fun _ => rfl, fun _ => rfl⟩
  | some text =>
    have hlength := (h.grapheme text htext).1
    constructor
    · intro hone
      rw [Option.getD_some] at hone
      omega
    · intro hnone
      cases hnone

theorem graphemeDisplayWidth_displayText (h : glyph.Faithful)
    (hglyph : glyph.IsGlyph) (hone : glyph.displayText.length = 1) :
    graphemeDisplayWidth glyph.displayText = glyph.width := by
  have hnone := (displayText_length h.toKept).mp hone
  have hwidth := h.width hnone (by rcases hglyph with hw | hw <;> omega)
  unfold graphemeDisplayWidth Cell.displayText charWidth
  rw [hnone]
  show ((some ((Crates.width glyph.ch).getD 0)).getD 0) = _
  rw [hwidth]
  rfl

/-- The entries of glyphs pass, and are as long as the columns. -/
theorem validateEntries_glyphs (hfaithful : ∀ glyph ∈ glyphs, glyph.Faithful)
    (hglyphs : ∀ glyph ∈ glyphs, glyph.IsGlyph) {i : Nat}
    (hfits : span + (expand glyphs).length < 2 ^ 16) :
    validateEntries row col (glyphs.flatMap Cell.entries) i span simple =
      .ok (span + (expand glyphs).length, simple && glyphs.all Cell.isSimple) := by
  induction glyphs generalizing i span simple with
  | nil =>
    rw [flatMap_nil, validateEntries, expand, flatMap_nil, all_nil, Bool.and_true]
    rfl
  | cons glyph glyphs ih =>
    have hself := mem_cons_self (a := glyph) (l := glyphs)
    have hfaithful' := fun g hg => hfaithful g (mem_cons_of_mem glyph hg)
    have ih' {i span : Nat} {simple : Bool} (hfits : span + (expand glyphs).length < 2 ^ 16) :=
      @ih simple span hfaithful' (fun g hg => hglyphs g (mem_cons_of_mem glyph hg)) i hfits
    have hkept := (hfaithful glyph hself).toKept
    have hnext := startsGlyph_entries fun g hg => (hfaithful' g hg).toKept
    have hdisplay := graphemeDisplayWidth_displayText (hfaithful glyph hself) (hglyphs glyph hself)
    rw [expand_cons, length_append] at hfits ⊢
    rw [flatMap_cons, all_cons]
    rcases hglyphs glyph hself with hone | htwo
    · rw [show glyph.entries = [glyph.displayText] by simp [Cell.entries, Cell.isWide, hone]]
      rw [columns_narrow hone, length_singleton] at hfits ⊢
      have hentry : NarrowEntry glyph.displayText := by
        refine ⟨isEmpty_displayText hkept, fun hlen => ?_⟩
        rw [hdisplay hlen, hone]
        decide
      have hsimple : decide (glyph.displayText.length = 1) = glyph.isSimple := by
        rw [Bool.eq_iff_iff, decide_eq_true_iff, displayText_length hkept, isSimple_iff]
        exact ⟨fun h => ⟨hone, h⟩, And.right⟩
      rw [singleton_append, validateEntries_narrow hentry hnext, ih' (by omega), hsimple,
        Bool.and_assoc, Nat.min_eq_left (by omega), Nat.add_assoc]
    · rw [show glyph.entries = [glyph.displayText, []] by simp [Cell.entries, Cell.isWide, htwo]]
      rw [columns_wide htwo] at hfits ⊢
      have hwidth : [glyph, Cell.wideContinuation].length = 2 := rfl
      rw [hwidth] at hfits ⊢
      have hentry : WideEntry glyph.displayText := by
        refine ⟨isEmpty_displayText hkept, fun hlen => ?_⟩
        rw [hdisplay hlen, htwo]
      have hsimple : glyph.isSimple = false := by
        unfold Cell.isSimple
        rw [htwo]
        rfl
      rw [cons_append, singleton_append, validateEntries_wide hentry hnext,
        ih' (by omega), hsimple, Bool.false_and, Bool.and_false,
        Nat.min_eq_left (by omega), Nat.add_assoc]

/-- A run of glyphs passes, and takes its columns. -/
theorem validateCellsRun_glyphs (hne : glyphs ≠ []) (hfaithful : ∀ glyph ∈ glyphs, glyph.Faithful)
    (hglyphs : ∀ glyph ∈ glyphs, glyph.IsGlyph) (hfits : (expand glyphs).length < 2 ^ 16) :
    validateCellsRun row col (contentOf glyphs) = .ok (expand glyphs).length := by
  unfold contentOf
  split
  · next hall =>
    have hsimple := all_eq_true.mp hall
    rw [expand_simple hsimple] at hfits ⊢
    rw [flatMap_displayText hsimple]
    unfold validateCellsRun
    dsimp only
    have hfind : (glyphs.map Cell.ch).find? (fun ch => charWidth ch != 1) = none := by
      rw [List.find?_eq_none]
      intro ch hch
      obtain ⟨glyph, hglyph, rfl⟩ := mem_map.mp hch
      obtain ⟨hone, hnone⟩ := isSimple_iff.mp (hsimple glyph hglyph)
      have hwidth := (hfaithful glyph hglyph).width hnone (by omega)
      unfold charWidth
      rw [hwidth, hone]
      decide
    rw [hfind, if_neg (by simpa using hne)]
    dsimp only
    rw [length_map, if_neg (by omega), asU16, Nat.mod_eq_of_lt hfits]
  · next hall =>
    have hzero : 0 + (expand glyphs).length < 2 ^ 16 := by omega
    have hentries : ¬((glyphs.flatMap Cell.entries).isEmpty = true) := by
      obtain ⟨glyph, rest, rfl⟩ := exists_cons_of_ne_nil hne
      rw [flatMap_cons]
      unfold Cell.entries
      split <;> exact Bool.false_ne_true
    unfold validateCellsRun
    dsimp only
    rw [if_neg hentries, validateEntries_glyphs hfaithful hglyphs hzero]
    rw [Bool.eq_false_of_not_eq_true hall, Bool.and_false, Nat.zero_add]
    rfl

theorem validateRun_cells {content : RunContent} {out : Nat × Nat × RunKey} :
    validateRun row (.cells col content style) = .ok out ↔
      ∃ span, validateCellsRun row col content = .ok span ∧ out = (col, span, .style style) := by
  unfold validateRun
  rw [bind_eq_ok]
  refine exists_congr fun span => and_congr_right fun _ => ?_
  rw [Except.ok.injEq, eq_comm]

/-- What the first run of a row must be like. -/
theorem validateRuns_cons {cols : Nat} {run : Run} {runs : List Run} {expectedMin : Nat} :
    validateRuns row cols (run :: runs) expectedMin last = .ok () ↔
      ∃ col span key, validateRun row run = .ok (col, span, key) ∧ expectedMin ≤ col ∧
        last ≠ some (col, key) ∧ col + span < 2 ^ 16 ∧ col + span ≤ cols ∧
        validateRuns row cols runs (col + span) (some (col + span, key)) = .ok () := by
  rw [validateRuns, bind_eq_ok]
  constructor
  · rintro ⟨⟨col, span, key⟩, hrun, hrest⟩
    dsimp only at hrest
    split at hrest
    · cases hrest
    · split at hrest
      · cases hrest
      · split at hrest
        · cases hrest
        · split at hrest
          · cases hrest
          · next hmin hlast hover hpast =>
            exact ⟨col, span, key, hrun, by omega, hlast, by omega, by omega, hrest⟩
  · rintro ⟨col, span, key, hrun, hmin, hlast, hover, hpast, hrest⟩
    refine ⟨(col, span, key), hrun, ?_⟩
    dsimp only
    rw [if_neg (by omega), if_neg hlast, if_neg (by omega), if_neg (by omega)]
    exact hrest

/-- Runs that encode glyphs pass. -/
theorem Encodes.validate {prev : Option CapStyle} {runs : List Run} {cols : Nat}
    (h : Encodes col prev glyphs runs) (hfaithful : ∀ glyph ∈ glyphs, glyph.Faithful)
    (hglyphs : ∀ glyph ∈ glyphs, glyph.IsGlyph) (hfits : col + (expand glyphs).length ≤ cols)
    (hcols : cols < 2 ^ 16) {expectedMin : Nat} (hmin : expectedMin ≤ col)
    (hlast : ∀ stop key, last = some (stop, key) → stop ≤ expectedMin ∧
      (stop = col → ∃ style, key = .style style ∧ prev = some style)) :
    validateRuns row cols runs expectedMin last = .ok () := by
  induction h generalizing expectedMin last with
  | done => rfl
  | @blank col prev glyphs runs hrest ih =>
    rw [expand_cons, columns_narrow rfl, length_append, length_singleton] at hfits
    refine ih (fun g hg => hfaithful g (mem_cons_of_mem _ hg))
      (fun g hg => hglyphs g (mem_cons_of_mem _ hg)) (by omega) (by omega) ?_
    intro stop key hsome
    have hstop := (hlast stop key hsome).1
    exact ⟨hstop, fun heq => by omega⟩
  | @run col prev style glyphs rest runs hne hstyle hdrawn hprev hrest ih =>
    rw [expand_append, length_append] at hfits
    have hspan : validateCellsRun row col (contentOf glyphs) = .ok (expand glyphs).length :=
      validateCellsRun_glyphs hne (fun g hg => hfaithful g (mem_append_left _ hg))
        (fun g hg => hglyphs g (mem_append_left _ hg)) (by omega)
    have hcoalesce : ¬last = some (col, .style style) := by
      intro hsome
      obtain ⟨style', hkey, hsame⟩ := (hlast _ _ hsome).2 rfl
      cases hkey
      exact hprev hsame
    refine validateRuns_cons.mpr ⟨col, (expand glyphs).length, .style style,
      validateRun_cells.mpr ⟨_, hspan, rfl⟩, hmin, hcoalesce, by omega, by omega, ?_⟩
    refine ih (fun g hg => hfaithful g (mem_append_right _ hg))
      (fun g hg => hglyphs g (mem_append_right _ hg)) (by omega) (le_refl _) ?_
    intro stop key hsome
    cases hsome
    exact ⟨le_refl _, fun _ => ⟨style, rfl, rfl⟩⟩

end Entries

/-- The style of a blank cell. -/
def CapStyle.default : CapStyle := .fromCell .empty

theorem pruned_bind {α : Type} {f : ExtendedAttrs → Option α} (hdefault : f .default = none)
    (ext : ExtendedAttrs) : (pruneDefaultExtended (some ext)).bind f = f ext := by
  unfold pruneDefaultExtended
  split
  · next heq =>
    rw [Option.some.inj heq, hdefault]
    rfl
  · rfl

theorem pruned_ne_default (ext : ExtendedAttrs) :
    pruneDefaultExtended (some ext) ≠ some .default := by
  unfold pruneDefaultExtended
  split
  · exact nofun
  · next hne => exact hne

theorem of_pruned {ext ext' : ExtendedAttrs}
    (h : pruneDefaultExtended (some ext) = some ext') : ext' = ext := by
  unfold pruneDefaultExtended at h
  split at h
  · cases h
  · exact (Option.some.inj h).symm

theorem fromColor_colorFromOpt (color : Option CapColor) :
    CapColor.fromColor (colorFromOpt color) = color := by
  cases color with
  | none => rfl
  | some color => cases color <;> rfl

theorem fromColor_toColor (color : Option CapColor) :
    (color.map CapColor.toColor).bind CapColor.fromColor = color := by
  cases color with
  | none => rfl
  | some color => cases color <;> rfl

/-- A made cell has the style it was made with. -/
theorem fromCell_makeCell (ch : Char) (grapheme : Option (List Char)) (width : Nat)
    (style : CapStyle) :
    CapStyle.fromCell (makeCell ch grapheme width style.cellStyle style) = style := by
  have hflags : ∀ bold dim italic underline blink inverse hidden strikethrough : Bool,
      let flags := CapStyle.toFlags ⟨none, none, bold, dim, italic, underline, blink, inverse,
        hidden, strikethrough, none, none, .none⟩
      (flags.contains CellFlags.bold = bold ∧ flags.contains CellFlags.dim = dim ∧
        flags.contains CellFlags.italic = italic ∧ flags.contains CellFlags.underline = underline) ∧
      flags.contains CellFlags.blink = blink ∧ flags.contains CellFlags.inverse = inverse ∧
        flags.contains CellFlags.hidden = hidden ∧
        flags.contains CellFlags.strikethrough = strikethrough := by
    decide
  obtain ⟨fg, bg, bold, dim, italic, underline, blink, inverse, hidden, strikethrough, hyperlink,
    color, underlineStyle⟩ := style
  obtain ⟨⟨h1, h2, h3, h4⟩, h5, h6, h7, h8⟩ :=
    hflags bold dim italic underline blink inverse hidden strikethrough
  have hstyle : ((pruneDefaultExtended (some ⟨grapheme, hyperlink, color.map CapColor.toColor,
      underlineStyle⟩)).map fun ext => ext.underlineStyle).getD .none = underlineStyle := by
    unfold pruneDefaultExtended
    split
    · next heq => exact (congrArg ExtendedAttrs.underlineStyle (Option.some.inj heq)).symm
    · rfl
  unfold CapStyle.fromCell makeCell CapStyle.cellStyle
  rw [toExtended_eq]
  dsimp only
  rw [pruned_bind rfl, pruned_bind rfl, hstyle, fromColor_colorFromOpt, fromColor_colorFromOpt]
  dsimp only
  rw [fromColor_toColor]
  rw [CapStyle.mk.injEq]
  exact ⟨rfl, rfl, h1, h2, h3, h4, h5, h6, h7, h8, rfl, rfl, rfl⟩

/-- What an entry stands for: a glyph of its width and style that displays it. -/
structure Cell.MadeFrom (glyph : Cell) (style : CapStyle) (entry : List Char) (width : Nat) :
    Prop where
  kept : glyph.Kept
  width : glyph.width = width
  style : CapStyle.fromCell glyph = style
  text : glyph.displayText = entry

theorem madeFrom_entryCell (style : CapStyle) (hentry : entry ≠ [])
    (width : Nat) : (entryCell style entry width).MadeFrom style entry width := by
  have hgrapheme : (entryCell style entry width).grapheme =
      if 1 < entry.length then some entry else none := by
    unfold entryCell makeCell Cell.grapheme
    dsimp only
    rw [toExtended_eq, pruned_bind rfl]
  obtain ⟨ch, rest, rfl⟩ := exists_cons_of_ne_nil hentry
  refine ⟨⟨?_, ?_, ?_⟩, rfl, fromCell_makeCell .., ?_⟩
  · intro text htext
    rw [hgrapheme] at htext
    split at htext
    · next hlong =>
      cases htext
      exact ⟨hlong, rfl⟩
    · cases htext
  · unfold entryCell makeCell
    dsimp only
    rw [toExtended_eq]
    exact pruned_ne_default _
  · intro ext hext
    unfold entryCell makeCell at hext
    dsimp only at hext
    rw [toExtended_eq] at hext
    rw [of_pruned hext]
    dsimp only
    cases style.underlineColor with
    | none => exact nofun
    | some color => cases color <;> exact nofun
  · unfold Cell.displayText
    rw [hgrapheme]
    split
    · rfl
    · next hshort =>
      have hrest : rest = [] := by
        rw [length_cons] at hshort
        exact eq_nil_of_length_eq_zero (by omega)
      rw [hrest]
      rfl

/-- Glyphs that make a run of this style. -/
structure Glyphs (style : CapStyle) (glyphs : List Cell) : Prop where
  kept : ∀ glyph ∈ glyphs, glyph.Kept
  glyph : ∀ glyph ∈ glyphs, glyph.IsGlyph
  style : ∀ glyph ∈ glyphs, CapStyle.fromCell glyph = style

theorem Glyphs.tail {glyphs : List Cell} (h : Glyphs style (glyph :: glyphs)) :
    Glyphs style glyphs :=
  ⟨fun g hg => h.kept g (mem_cons_of_mem _ hg), fun g hg => h.glyph g (mem_cons_of_mem _ hg),
    fun g hg => h.style g (mem_cons_of_mem _ hg)⟩

theorem Glyphs.cons {glyphs : List Cell}
    {width : Nat} (h : Glyphs style glyphs) (hglyph : glyph.MadeFrom style entry width)
    (hwidth : width = 1 ∨ width = 2) : Glyphs style (glyph :: glyphs) := by
  refine ⟨?_, ?_, ?_⟩
  · intro g hg
    rcases mem_cons.mp hg with rfl | hg
    · exact hglyph.kept
    · exact h.kept g hg
  · intro g hg
    rcases mem_cons.mp hg with rfl | hg
    · unfold Cell.IsGlyph
      rw [hglyph.width]
      exact hwidth
    · exact h.glyph g hg
  · intro g hg
    rcases mem_cons.mp hg with rfl | hg
    · exact hglyph.style
    · exact h.style g hg

theorem entries_narrow (h : glyph.MadeFrom style entry 1) : glyph.entries = [entry] := by
  unfold Cell.entries Cell.isWide
  rw [h.width, h.text]
  rfl

theorem entries_wide (h : glyph.MadeFrom style entry 2) : glyph.entries = [entry, []] := by
  unfold Cell.entries Cell.isWide
  rw [h.width, h.text]
  rfl

theorem isSimple_madeFrom
    (h : glyph.MadeFrom style entry 1) : glyph.isSimple = decide (entry.length = 1) := by
  rw [Bool.eq_iff_iff, decide_eq_true_iff, isSimple_iff, ← h.text, displayText_length h.kept]
  exact ⟨And.right, fun hnone => ⟨h.width, hnone⟩⟩

/-- The entries are those of glyphs, an entry to a column, and `out` is what walking them from
`span` and `simple` gives. -/
def Parsed (style : CapStyle) (entries : List (List Char)) (span : Nat) (simple : Bool)
    (out : Nat × Bool) : Prop :=
  ∃ glyphs, Glyphs style glyphs ∧ entries = glyphs.flatMap Cell.entries ∧
    (expand glyphs).length = entries.length ∧
    out = (min (span + entries.length) (2 ^ 16 - 1), simple && glyphs.all Cell.isSimple)

theorem glyphs_nil (style : CapStyle) : Glyphs style [] :=
  ⟨(fun _ h => nomatch h), (fun _ h => nomatch h), (fun _ h => nomatch h)⟩

theorem parsed_nil (style : CapStyle) (hspan : span ≤ 2 ^ 16 - 1) (simple : Bool) :
    Parsed style [] span simple (span, simple) := by
  refine ⟨[], glyphs_nil style, rfl, rfl, ?_⟩
  rw [all_nil, Bool.and_true, length_nil, Nat.add_zero, Nat.min_eq_left hspan]

theorem Parsed.narrow {rest : List (List Char)} (hentry : entry ≠ [])
    (h : Parsed style rest (min (span + 1) (2 ^ 16 - 1))
      (simple && decide (entry.length = 1)) out) :
    Parsed style (entry :: rest) span simple out := by
  obtain ⟨glyphs, hglyphs, hrest, hlength, hout⟩ := h
  have hmade := madeFrom_entryCell style hentry 1
  refine ⟨_ :: glyphs, hglyphs.cons hmade (.inl rfl), ?_, ?_, ?_⟩
  · rw [flatMap_cons, entries_narrow hmade, ← hrest]
    rfl
  · rw [expand_cons, columns_narrow hmade.width, length_append, hlength, length_cons, Nat.add_comm]
    rfl
  · rw [hout, all_cons, isSimple_madeFrom hmade, Bool.and_assoc, length_cons,
      show min (min (span + 1) (2 ^ 16 - 1) + rest.length) (2 ^ 16 - 1) =
        min (span + (rest.length + 1)) (2 ^ 16 - 1) by omega]

theorem Parsed.wide {rest : List (List Char)} (hentry : entry ≠ [])
    (h : Parsed style rest (min (span + 2) (2 ^ 16 - 1)) false out) :
    Parsed style (entry :: [] :: rest) span simple out := by
  obtain ⟨glyphs, hglyphs, hrest, hlength, hout⟩ := h
  have hmade := madeFrom_entryCell style hentry 2
  have hsimple : (entryCell style entry 2).isSimple = false := rfl
  refine ⟨_ :: glyphs, hglyphs.cons hmade (.inr rfl), ?_, ?_, ?_⟩
  · rw [flatMap_cons, entries_wide hmade, ← hrest]
    rfl
  · rw [expand_cons, columns_wide hmade.width, length_append, hlength, length_cons,
      length_cons, Nat.add_comm]
    rfl
  · rw [hout, all_cons, hsimple, Bool.false_and, Bool.and_false, length_cons, length_cons,
      show min (min (span + 2) (2 ^ 16 - 1) + rest.length) (2 ^ 16 - 1) =
        min (span + (rest.length + 1 + 1)) (2 ^ 16 - 1) by omega]

variable [Crates]

/-- Entries that pass are those of glyphs. -/
theorem parsed_of_validateEntries {row col : Nat} (style : CapStyle) {entries : List (List Char)}
    {i : Nat} (hspan : span ≤ 2 ^ 16 - 1)
    (hvalid : validateEntries row col entries i span simple = .ok out) :
    Parsed style entries span simple out := by
  have hmin : ∀ n, min n (2 ^ 16 - 1) ≤ 2 ^ 16 - 1 := fun n => Nat.min_le_right ..
  have hne : ∀ {s : List Char}, ¬s.isEmpty = true → s ≠ [] := fun h heq => h (heq ▸ rfl)
  fun_induction validateEntries row col entries i span simple with
  | case1 i span simple =>
    cases hvalid
    exact parsed_nil style hspan simple
  | case5 s i span simple hs hone hzero htwo =>
    cases hvalid
    refine .narrow (hne hs) ?_
    rw [decide_eq_true hone, Bool.and_true]
    exact parsed_nil style (hmin _) simple
  | case6 s i span simple hs hone =>
    cases hvalid
    refine .narrow (hne hs) ?_
    rw [decide_eq_false hone, Bool.and_false]
    exact parsed_nil style (hmin _) false
  | case10 s n rest i span simple hs hempty hwide hdouble ih =>
    rw [List.isEmpty_iff.mp hempty]
    exact .wide (hne hs) (ih (hmin _) hvalid)
  | case13 s n rest i span simple hs hempty hone hzero htwo ih =>
    refine .narrow (hne hs) ?_
    rw [decide_eq_true hone, Bool.and_true]
    exact ih (hmin _) hvalid
  | case14 s n rest i span simple hs hempty hone ih =>
    refine .narrow (hne hs) ?_
    rw [decide_eq_false hone, Bool.and_false]
    exact ih (hmin _) hvalid
  | case2 | case3 | case4 | case7 | case8 | case9 | case11 | case12 => cases hvalid

/-- A single space in one column. -/
def BareBlank (entries : List (List Char)) : Prop :=
  ∃ before after, entries = before ++ [' '] :: after ∧ after.head? ≠ some []

/-- A run the encoder could have written: no bare blank in the default style, and no more
entries than a row has columns. -/
def Run.Plain : Run → Prop
  | .mask _ _ => True
  | .cells _ (.simple text) style => style = .default → ' ' ∉ text
  | .cells _ (.complex entries) style =>
    entries.length < 2 ^ 16 ∧ (style = .default → ¬BareBlank entries)

section

omit [Crates]

theorem default_of_empty {glyphs : List Cell} (h : Glyphs style glyphs)
    (hmem : Cell.empty ∈ glyphs) : style = .default :=
  (h.style _ hmem).symm

theorem bareBlank_of_empty {glyphs : List Cell} (h : Glyphs style glyphs)
    (hmem : Cell.empty ∈ glyphs) : BareBlank (glyphs.flatMap Cell.entries) := by
  obtain ⟨before, after, rfl⟩ := append_of_mem hmem
  refine ⟨before.flatMap Cell.entries, after.flatMap Cell.entries, ?_, ?_⟩
  · rw [flatMap_append, flatMap_cons]
    rfl
  · intro hhead
    have hkept : ∀ g ∈ after, g.Kept := fun g hg => h.kept g (by simp [hg])
    exact absurd (startsGlyph_entries hkept [] hhead) (by decide)

/-- A text is one of simple glyphs. -/
theorem glyphs_of_text (style : CapStyle) (text : List Char) :
    ∃ glyphs, Glyphs style glyphs ∧ (∀ glyph ∈ glyphs, glyph.isSimple = true) ∧
      glyphs.map Cell.ch = text := by
  induction text with
  | nil => exact ⟨[], glyphs_nil style, (fun _ h => nomatch h), rfl⟩
  | cons ch text ih =>
    obtain ⟨glyphs, hglyphs, hsimple, htext⟩ := ih
    have hmade := madeFrom_entryCell style (cons_ne_nil ch []) 1
    refine ⟨_ :: glyphs, hglyphs.cons hmade (.inl rfl), ?_, ?_⟩
    · intro glyph hmem
      rcases mem_cons.mp hmem with rfl | hmem
      · rw [isSimple_madeFrom hmade]
        rfl
      · exact hsimple glyph hmem
    · rw [map_cons, htext]
      rfl

/-- A bare blank in the default style is the blank cell. -/
theorem eq_empty_of_madeFrom (h : glyph.Kept) (hwidth : glyph.width = 1)
    (hstyle : CapStyle.fromCell glyph = .default) (htext : glyph.displayText = [' ']) :
    glyph = .empty := by
  rw [← entryCell_displayText h, hstyle, htext, hwidth]
  rfl

theorem empty_of_bareBlank {glyphs : List Cell} (h : Glyphs .default glyphs)
    (hblank : BareBlank (glyphs.flatMap Cell.entries)) : Cell.empty ∈ glyphs := by
  obtain ⟨before, after, hsplit, hafter⟩ := hblank
  induction glyphs generalizing before with
  | nil => exact absurd hsplit (by simp)
  | cons glyph glyphs ih =>
    have hself := mem_cons_self (a := glyph) (l := glyphs)
    have hglyphs := h.tail
    rw [flatMap_cons] at hsplit
    rcases h.glyph glyph hself with hone | htwo
    · rw [show glyph.entries = [glyph.displayText] by simp [Cell.entries, Cell.isWide, hone],
        singleton_append] at hsplit
      cases before with
      | nil =>
        have htext := (List.cons.inj hsplit).1
        rw [eq_empty_of_madeFrom (h.kept glyph hself) hone (h.style glyph hself) htext]
        exact mem_cons_self
      | cons entry before => exact mem_cons_of_mem _ (ih hglyphs before (List.cons.inj hsplit).2)
    · rw [show glyph.entries = [glyph.displayText, []] by simp [Cell.entries, Cell.isWide, htwo],
        cons_append, singleton_append] at hsplit
      cases before with
      | nil =>
        obtain ⟨-, hrest⟩ := List.cons.inj hsplit
        rw [← hrest] at hafter
        exact absurd rfl hafter
      | cons entry before =>
        cases before with
        | nil => exact absurd (List.cons.inj (List.cons.inj hsplit).2).1 (by decide)
        | cons next before =>
          exact mem_cons_of_mem _ (ih hglyphs before (List.cons.inj (List.cons.inj hsplit).2).2)

end

/-- A run that passes is one of glyphs; its span saturates. -/
theorem glyphs_of_validateCellsRun {row col : Nat} {content : RunContent} (style : CapStyle)
    (hvalid : validateCellsRun row col content = .ok span) :
    ∃ glyphs, glyphs ≠ [] ∧ Glyphs style glyphs ∧ content = contentOf glyphs ∧
      span = min (expand glyphs).length (2 ^ 16 - 1) ∧
      (glyphs.all Cell.isSimple = true → (expand glyphs).length < 2 ^ 16) := by
  cases content with
  | simple text =>
    unfold validateCellsRun at hvalid
    dsimp only at hvalid
    split at hvalid
    · cases hvalid
    · next hne =>
      split at hvalid
      · cases hvalid
      · split at hvalid
        · cases hvalid
        · next hlength =>
          cases hvalid
          obtain ⟨glyphs, hglyphs, hsimple, rfl⟩ := glyphs_of_text style text
          have hfits : (expand glyphs).length < 2 ^ 16 := by
            rw [expand_simple hsimple]
            rw [length_map] at hlength
            omega
          refine ⟨glyphs, ?_, hglyphs, ?_, ?_, fun _ => hfits⟩
          · rintro rfl
            exact hne rfl
          · unfold contentOf
            rw [if_pos (all_eq_true.mpr hsimple), flatMap_displayText hsimple]
          · rw [asU16_of_lt (by omega), length_map, Nat.min_eq_left (by omega),
              expand_simple hsimple]
  | complex entries =>
    unfold validateCellsRun at hvalid
    dsimp only at hvalid
    split at hvalid
    · cases hvalid
    · next hne =>
      obtain ⟨⟨span', simple⟩, hentries, hform⟩ := bind_eq_ok.mp hvalid
      dsimp only at hform
      split at hform
      · cases hform
      · next hsimple =>
        cases hform
        obtain ⟨glyphs, hglyphs, rfl, hlength, hout⟩ :=
          parsed_of_validateEntries style (Nat.zero_le _) hentries
        obtain ⟨hspan, hall⟩ := Prod.mk.inj hout
        rw [Bool.true_and] at hall
        refine ⟨glyphs, ?_, hglyphs, ?_, ?_, fun h => absurd (hall.trans h) hsimple⟩
        · rintro rfl
          exact hne rfl
        · unfold contentOf
          rw [← hall, if_neg hsimple]
        · rw [hspan, Nat.zero_add, ← hlength]

section

omit [Crates]

theorem length_entries {glyphs : List Cell} :
    (glyphs.flatMap Cell.entries).length = (expand glyphs).length := by
  induction glyphs with
  | nil => rfl
  | cons glyph glyphs ih =>
    rw [flatMap_cons, expand_cons, length_append, length_append, ih]
    unfold Cell.entries Cell.columns
    split <;> rfl

/-- A run of glyphs is plain if none of them is blank and it is no longer than a row. -/
theorem plain_iff {glyphs : List Cell} (h : Glyphs style glyphs)
    (hsimple : glyphs.all Cell.isSimple = true → (expand glyphs).length < 2 ^ 16) (col : Nat) :
    (Run.cells col (contentOf glyphs) style).Plain ↔
      (expand glyphs).length < 2 ^ 16 ∧ ∀ glyph ∈ glyphs, glyph ≠ .empty := by
  unfold contentOf
  split
  · next hall =>
    have hall' := all_eq_true.mp hall
    constructor
    · intro hplain
      refine ⟨hsimple hall, ?_⟩
      rintro glyph hmem rfl
      refine hplain (default_of_empty h hmem) ?_
      rw [flatMap_displayText hall']
      exact mem_map.mpr ⟨_, hmem, rfl⟩
    · rintro ⟨-, hdrawn⟩ rfl hspace
      rw [flatMap_displayText hall'] at hspace
      obtain ⟨glyph, hmem, hch⟩ := mem_map.mp hspace
      obtain ⟨hwidth, hgrapheme⟩ := isSimple_iff.mp (hall' glyph hmem)
      refine hdrawn glyph hmem (eq_empty_of_madeFrom (h.kept glyph hmem) hwidth
        (h.style glyph hmem) ?_)
      unfold Cell.displayText
      rw [hgrapheme, hch]
      rfl
  · constructor
    · rintro ⟨hfits, hblank⟩
      rw [length_entries] at hfits
      refine ⟨hfits, ?_⟩
      rintro glyph hmem rfl
      exact hblank (default_of_empty h hmem) (bareBlank_of_empty h hmem)
    · rintro ⟨hfits, hdrawn⟩
      refine ⟨by rwa [length_entries], ?_⟩
      rintro rfl hblank
      exact hdrawn _ (empty_of_bareBlank h hblank) rfl

/-- Blanks before what is encoded. -/
theorem Encodes.gap {col : Nat} {prev : Option CapStyle} {glyphs : List Cell} {runs : List Run}
    {k : Nat} (h : Encodes (col + k) (if k = 0 then prev else none) glyphs runs) :
    Encodes col prev (List.replicate k .empty ++ glyphs) runs := by
  induction k generalizing col prev with
  | zero => exact h
  | succ k ih =>
    rw [replicate_succ]
    refine .blank (ih ?_)
    rw [if_neg (Nat.succ_ne_zero k), Nat.add_comm k 1, ← Nat.add_assoc] at h
    split <;> exact h

theorem expand_blanks (k : Nat) :
    expand (List.replicate k Cell.empty) = List.replicate k .empty := by
  refine expand_simple fun glyph hmem => ?_
  rw [eq_of_mem_replicate hmem]
  rfl

end

/-- Plain runs of cells that pass encode the glyphs of a row. -/
theorem encodes_of_validateRuns {row cols : Nat} {runs : List Run}
    (hplain : ∀ run ∈ runs, run.Plain) (hcells : ∀ run ∈ runs, ∀ col cells, run ≠ .mask col cells)
    {expectedMin : Nat} {prev : Option CapStyle} {last : Option (Nat × RunKey)}
    (hmin : expectedMin ≤ cols)
    (hprev : ∀ style, prev = some style → last = some (expectedMin, .style style))
    (hvalid : validateRuns row cols runs expectedMin last = .ok ()) :
    ∃ glyphs, Encodes expectedMin prev glyphs runs ∧ (∀ glyph ∈ glyphs, glyph.Kept) ∧
      (∀ glyph ∈ glyphs, glyph.IsGlyph) ∧ expectedMin + (expand glyphs).length = cols := by
  have hblankKept : Cell.empty.Kept := ⟨nofun, nofun, nofun⟩
  induction runs generalizing expectedMin prev last with
  | nil =>
    refine ⟨List.replicate (cols - expectedMin) .empty, ?_, ?_, ?_, ?_⟩
    · rw [← append_nil (List.replicate _ _)]
      exact .gap .done
    · intro glyph hmem
      rw [eq_of_mem_replicate hmem]
      exact hblankKept
    · intro glyph hmem
      rw [eq_of_mem_replicate hmem]
      exact .inl rfl
    · rw [expand_blanks, length_replicate]
      omega
  | cons run runs ih =>
    obtain ⟨col, span, key, hrun, hcol, hlast, -, hpast, hrest⟩ := validateRuns_cons.mp hvalid
    cases run with
    | mask c n => exact absurd rfl (hcells _ (mem_cons_self ..) c n)
    | cells c content style =>
      obtain ⟨span', hspan, hout⟩ := validateRun_cells.mp hrun
      cases hout
      obtain ⟨glyphs, hne, hglyphs, rfl, hmin', hsimple⟩ := glyphs_of_validateCellsRun style hspan
      obtain ⟨hfits, hdrawn⟩ := (plain_iff hglyphs hsimple col).mp (hplain _ (mem_cons_self ..))
      rw [Nat.min_eq_left (by omega)] at hmin'
      subst hmin'
      have hsame : ∀ style', some style = some style' →
          some (col + (expand glyphs).length, RunKey.style style) =
            some (col + (expand glyphs).length, .style style') := by
        rintro style' ⟨⟩
        rfl
      obtain ⟨rest, hencodes, hkept, hisGlyph, hlength⟩ :=
        ih (fun r hr => hplain r (mem_cons_of_mem _ hr))
          (fun r hr => hcells r (mem_cons_of_mem _ hr)) hpast hsame hrest
      refine ⟨List.replicate (col - expectedMin) .empty ++ (glyphs ++ rest), ?_, ?_, ?_, ?_⟩
      · apply Encodes.gap
        rw [Nat.add_sub_cancel' hcol]
        refine .run hne hglyphs.style hdrawn ?_ hencodes
        split
        · next hzero =>
          intro hsame
          refine hlast ?_
          rw [hprev style hsame, show expectedMin = col by omega]
        · exact nofun
      · intro glyph hmem
        rcases mem_append.mp hmem with hmem | hmem
        · rw [eq_of_mem_replicate hmem]
          exact hblankKept
        · exact (mem_append.mp hmem).elim (hglyphs.kept glyph) (hkept glyph)
      · intro glyph hmem
        rcases mem_append.mp hmem with hmem | hmem
        · rw [eq_of_mem_replicate hmem]
          exact .inl rfl
        · exact (mem_append.mp hmem).elim (hglyphs.glyph glyph) (hisGlyph glyph)
      · rw [expand_append, expand_append, expand_blanks, length_append, length_append,
          length_replicate]
        omega

end Shux.Vt
