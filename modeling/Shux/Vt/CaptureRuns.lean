/-
# Runs describe their cells

A row that holds whole characters is a list of glyphs, each wide one followed by its
continuation. What the encoder makes of the glyphs is described once, as a way to cut them
into blanks and runs of one style. That the runs are canonical and that they decode to the
cells are then inductions on the description.
-/

import Shux.Vt.Capture
import Shux.Vt.Pairs

namespace Shux.Vt

open List CapStyle CapColor

variable {cells : List Cell}

/-- What is true of the storage of a cell: a payload of several scalars starts with the scalar
of the cell, and rare storage holds something, never the default colour. -/
structure Cell.Kept (cell : Cell) : Prop where
  grapheme : ∀ text, cell.grapheme = some text → 2 ≤ text.length ∧ text.head? = some cell.ch
  extended : cell.extended ≠ some .default
  underline : ∀ ext, cell.extended = some ext → ext.underlineColor ≠ some .default

/-- What the terminal keeps true of a cell: its storage, and that a single scalar has the width
it displays with. -/
structure Cell.Faithful [Crates] (cell : Cell) : Prop extends cell.Kept where
  width : cell.grapheme = none → cell.width ≠ 0 → Crates.width cell.ch = some cell.width

/-- The columns a glyph takes. -/
def Cell.columns (glyph : Cell) : List Cell :=
  if glyph.isWide then [glyph, .wideContinuation] else [glyph]

/-- The columns of a row of glyphs. -/
def expand (glyphs : List Cell) : List Cell := glyphs.flatMap Cell.columns

theorem expand_cons (glyph : Cell) (glyphs : List Cell) :
    expand (glyph :: glyphs) = glyph.columns ++ expand glyphs :=
  flatMap_cons

theorem expand_append (xs ys : List Cell) : expand (xs ++ ys) = expand xs ++ expand ys :=
  flatMap_append

theorem columns_narrow {glyph : Cell} (h : glyph.width = 1) : glyph.columns = [glyph] := by
  unfold Cell.columns Cell.isWide
  rw [h]
  rfl

theorem columns_wide {glyph : Cell} (h : glyph.width = 2) :
    glyph.columns = [glyph, .wideContinuation] := by
  unfold Cell.columns Cell.isWide
  rw [h]
  rfl

/-- A cell that starts a glyph. -/
def Cell.IsGlyph (cell : Cell) : Prop := cell.width = 1 ∨ cell.width = 2

theorem Row.Paired.tail {cell : Cell} (h : Row.Paired (cell :: cells))
    (hwidth : cell.width ≠ 2) : Row.Paired cells := by
  have hshift : ∀ i, Row.widthAt (cell :: cells) (i + 1) = Row.widthAt cells i := fun _ => rfl
  refine ⟨fun c hc => h.regular c (mem_cons_of_mem _ hc), ?_, ?_, ?_⟩
  · intro hzero
    exact hwidth (h.whole.tail 0 hzero)
  · intro i hi
    exact h.whole.head (i + 1) hi
  · intro i hi
    exact h.whole.tail (i + 1) hi

theorem Row.Paired.rest {cell next : Cell}
    (h : Row.Paired (cell :: next :: cells)) (hwidth : next.width = 0) : Row.Paired cells := by
  refine ⟨fun c hc => h.regular c (by simp [hc]), ?_, ?_, ?_⟩
  · intro hzero
    have hnext : next.width = 2 := h.whole.tail 1 hzero
    rw [hwidth] at hnext
    cases hnext
  · intro i hi
    exact h.whole.head (i + 2) hi
  · intro i hi
    exact h.whole.tail (i + 2) hi

/-- A row of whole characters is a row of glyphs. -/
theorem exists_glyphs (h : Row.Paired cells) :
    ∃ glyphs, cells = expand glyphs ∧ ∀ glyph ∈ glyphs, glyph ∈ cells ∧ glyph.IsGlyph := by
  -- induction on the columns, of which a wide character takes two
  induction hlen : cells.length using Nat.strong_induction_on generalizing cells with
  | _ n ih =>
    subst hlen
    cases cells with
    | nil => exact ⟨[], rfl, fun _ hmem => nomatch hmem⟩
    | cons cell cells =>
      have hfirst : cell.width ≠ 0 := h.whole.first
      rcases h.regular cell (mem_cons_self ..) with hone | htwo | hcont
      · obtain ⟨glyphs, rfl, hglyphs⟩ :=
          ih cells.length (Nat.lt_succ_self _) (h.tail (by omega)) rfl
        refine ⟨cell :: glyphs, ?_, ?_⟩
        · rw [expand_cons, columns_narrow hone]
          rfl
        · intro glyph hmem
          rcases mem_cons.mp hmem with rfl | hmem
          · exact ⟨mem_cons_self .., .inl hone⟩
          · exact ⟨mem_cons_of_mem _ (hglyphs glyph hmem).1, (hglyphs glyph hmem).2⟩
      · have hzero : Row.widthAt (cell :: cells) 1 = 0 := h.whole.head 0 htwo
        cases cells with
        | nil => cases hzero
        | cons next cells =>
          have hnext : next.width = 0 := hzero
          obtain hregular := h.regular next (by simp)
          obtain rfl : next = .wideContinuation := by
            rcases hregular with hbad | hbad | hcont
            · omega
            · omega
            · exact hcont
          obtain ⟨glyphs, rfl, hglyphs⟩ := ih cells.length (by simp) (h.rest hnext) rfl
          refine ⟨cell :: glyphs, ?_, ?_⟩
          · rw [expand_cons, columns_wide htwo]
            rfl
          · intro glyph hmem
            rcases mem_cons.mp hmem with rfl | hmem
            · exact ⟨mem_cons_self .., .inr htwo⟩
            · have hglyph := hglyphs glyph hmem
              exact ⟨by simp [hglyph.1], hglyph.2⟩
      · rw [hcont] at hfirst
        exact absurd rfl hfirst

theorem colorFromOpt_fromColor (color : Color) :
    colorFromOpt (fromColor color) = color := by
  cases color <;> rfl

theorem toColor_fromColor {color : Color} (h : color ≠ .default) :
    (fromColor color).map toColor = some color := by
  cases color with
  | default => exact absurd rfl h
  | indexed i => rfl
  | rgb r g b => rfl

/-- Eight flags make a byte. -/
theorem toFlags_fromCell (cell : Cell) : (fromCell cell).toFlags = cell.style.flags := by
  obtain ⟨ch, width, ⟨fg, bg, ⟨⟨bits⟩⟩⟩, extended⟩ := cell
  unfold toFlags fromCell
  dsimp only
  revert bits
  decide

theorem cellStyle_fromCell (cell : Cell) : (fromCell cell).cellStyle = cell.style := by
  unfold cellStyle
  rw [toFlags_fromCell]
  unfold fromCell
  dsimp only
  rw [colorFromOpt_fromColor, colorFromOpt_fromColor]

/-- Rare storage is made only when something is in it. -/
theorem toExtended_eq (style : CapStyle) (grapheme : Option (List Char)) :
    style.toExtended grapheme =
      pruneDefaultExtended (some ⟨grapheme, style.hyperlink,
        style.underlineColor.map toColor, style.underlineStyle⟩) := by
  unfold toExtended pruneDefaultExtended ExtendedAttrs.default
  simp only [Bool.and_eq_true, Option.isNone_iff_eq_none, beq_iff_eq, Option.some.injEq,
    ExtendedAttrs.mk.injEq, and_assoc]

section Kept

variable {cell : Cell}

theorem toExtended_fromCell (h : cell.Kept) :
    (fromCell cell).toExtended cell.grapheme = cell.extended := by
  rw [toExtended_eq]
  unfold fromCell Cell.grapheme
  dsimp only
  cases hext : cell.extended with
  | none => rfl
  | some ext =>
    have hcolor : (ext.underlineColor.bind fromColor).map toColor =
        ext.underlineColor := by
      cases hunderline : ext.underlineColor with
      | none => rfl
      | some color =>
        refine toColor_fromColor fun hdefault => h.underline ext hext ?_
        rw [hunderline, hdefault]
    dsimp only [Option.bind_some, Option.map_some, Option.getD_some]
    rw [hcolor, pruneDefaultExtended, if_neg]
    rw [← hext]
    exact h.extended

/-- A cell is made again from its scalar, payload, width and style. -/
theorem makeCell_fromCell (h : cell.Kept) :
    makeCell cell.ch cell.grapheme cell.width (fromCell cell).cellStyle
      (fromCell cell) = cell := by
  unfold makeCell
  rw [cellStyle_fromCell, toExtended_fromCell h]

/-- An entry gives back its cell. -/
theorem entryCell_displayText (h : cell.Kept) :
    entryCell (fromCell cell) cell.displayText cell.width = cell := by
  unfold entryCell Cell.displayText
  cases htext : cell.grapheme with
  | none =>
    have hmake := makeCell_fromCell h
    rw [htext] at hmake
    exact hmake
  | some text =>
    obtain ⟨hlength, hhead⟩ := h.grapheme text htext
    have hmake := makeCell_fromCell h
    rw [Option.getD_some, if_pos (by omega), headD_eq_head?_getD, hhead]
    rw [htext] at hmake
    exact hmake

theorem displayText_ne_nil (h : cell.Kept) : cell.displayText ≠ [] := by
  unfold Cell.displayText
  cases htext : cell.grapheme with
  | none => exact cons_ne_nil cell.ch []
  | some text =>
    intro hnil
    have hlength := (h.grapheme text htext).1
    rw [show text = [] from hnil] at hlength
    exact absurd hlength (by decide)

end Kept

/-- The entries of a glyph. -/
def Cell.entries (glyph : Cell) : List (List Char) :=
  if glyph.isWide then [glyph.displayText, []] else [glyph.displayText]

/-- The content of a run of glyphs. -/
def contentOf (glyphs : List Cell) : RunContent :=
  if glyphs.all Cell.isSimple then .simple (glyphs.flatMap Cell.displayText)
  else .complex (glyphs.flatMap Cell.entries)

/-- A way to cut glyphs into blanks and runs. `prev` is the style of a run that ends at `col`,
and the next run there is of another style. -/
inductive Encodes : Nat → Option CapStyle → List Cell → List Run → Prop where
  | done {col : Nat} {prev : Option CapStyle} : Encodes col prev [] []
  | blank {col : Nat} {prev : Option CapStyle} {glyphs : List Cell} {runs : List Run}
      (hrest : Encodes (col + 1) none glyphs runs) : Encodes col prev (.empty :: glyphs) runs
  | run {col : Nat} {prev : Option CapStyle} {style : CapStyle} {glyphs rest : List Cell}
      {runs : List Run} (hglyphs : glyphs ≠ [])
      (hstyle : ∀ glyph ∈ glyphs, fromCell glyph = style)
      (hdrawn : ∀ glyph ∈ glyphs, glyph ≠ .empty) (hprev : prev ≠ some style)
      (hrest : Encodes (col + (expand glyphs).length) (some style) rest runs) :
      Encodes col prev (glyphs ++ rest) (.cells col (contentOf glyphs) style :: runs)

namespace Encodes

variable {col : Nat} {prev : Option CapStyle} {glyphs : List Cell} {runs : List Run}

/-- The last step of an encoding. -/
theorem inv (h : Encodes col prev glyphs runs) :
    (glyphs = [] ∧ runs = []) ∨
      (∃ rest, glyphs = .empty :: rest ∧ Encodes (col + 1) none rest runs) ∨
      ∃ style first rest later, glyphs = first ++ rest ∧
        runs = .cells col (contentOf first) style :: later ∧ first ≠ [] ∧
        (∀ glyph ∈ first, fromCell glyph = style) ∧ (∀ glyph ∈ first, glyph ≠ .empty) ∧
        prev ≠ some style ∧ Encodes (col + (expand first).length) (some style) rest later := by
  cases h with
  | done => exact .inl ⟨rfl, rfl⟩
  | blank hrest => exact .inr (.inl ⟨_, rfl, hrest⟩)
  | run hne hstyle hdrawn hprev hrest =>
    exact .inr (.inr ⟨_, _, _, _, rfl, rfl, hne, hstyle, hdrawn, hprev, hrest⟩)

/-- A run does not stop before a glyph it could take in. -/
theorem style_ne {style : CapStyle} {glyph : Cell}
    (h : Encodes col (some style) (glyph :: glyphs) runs) (hdrawn : glyph ≠ .empty) :
    fromCell glyph ≠ style := by
  rcases h.inv with ⟨hnil, -⟩ | ⟨rest, hcons, -⟩ |
    ⟨style', first, rest, later, hsplit, -, hne, hstyle, -, hprev, -⟩
  · cases hnil
  · cases hcons
    exact absurd rfl hdrawn
  · obtain ⟨g, gs, rfl⟩ := exists_cons_of_ne_nil hne
    cases hsplit
    rw [hstyle glyph (mem_cons_self ..)]
    exact fun hsame => hprev (congrArg some hsame.symm)

/-- Two first runs of the same glyphs are the same. -/
theorem first_unique {style style' : CapStyle} {first first' rest rest' : List Cell}
    {later later' : List Run} (hsplit : first ++ rest = first' ++ rest')
    (hne : first ≠ []) (hne' : first' ≠ [])
    (hstyle : ∀ glyph ∈ first, fromCell glyph = style)
    (hstyle' : ∀ glyph ∈ first', fromCell glyph = style')
    (hdrawn : ∀ glyph ∈ first, glyph ≠ .empty) (hdrawn' : ∀ glyph ∈ first', glyph ≠ .empty)
    (hrest : Encodes (col + (expand first).length) (some style) rest later)
    (hrest' : Encodes (col + (expand first').length) (some style') rest' later') :
    style = style' ∧ first = first' ∧ rest = rest' := by
  have hsame : style = style' := by
    obtain ⟨g, gs, rfl⟩ := exists_cons_of_ne_nil hne
    obtain ⟨g', gs', rfl⟩ := exists_cons_of_ne_nil hne'
    have hhead : g = g' := (List.cons.inj hsplit).1
    rw [← hstyle g (mem_cons_self ..), ← hstyle' g' (mem_cons_self ..), hhead]
  subst hsame
  rcases append_eq_append_iff.mp hsplit with ⟨more, rfl, rfl⟩ | ⟨more, rfl, rfl⟩
  · cases more with
    | nil => exact ⟨rfl, (append_nil _).symm, rfl⟩
    | cons g more =>
      have hmem : g ∈ first ++ g :: more := by simp
      exact absurd (hstyle' g hmem) (hrest.style_ne (hdrawn' g hmem))
  · cases more with
    | nil => exact ⟨rfl, append_nil _, rfl⟩
    | cons g more =>
      have hmem : g ∈ first' ++ g :: more := by simp
      exact absurd (hstyle g hmem) (hrest'.style_ne (hdrawn g hmem))

/-- There is one way to encode glyphs. -/
theorem unique {runs' : List Run} (h : Encodes col prev glyphs runs)
    (h' : Encodes col prev glyphs runs') : runs = runs' := by
  induction h generalizing runs' with
  | done =>
    rcases h'.inv with ⟨-, rfl⟩ | ⟨rest, hcons, -⟩ | ⟨style, first, rest, later, hsplit, -, hne, -⟩
    · rfl
    · cases hcons
    · exact absurd (append_eq_nil_iff.mp hsplit.symm).1 hne
  | blank hrest ih =>
    rcases h'.inv with ⟨hnil, -⟩ | ⟨rest, hcons, hrest'⟩ |
      ⟨style, first, rest, later, hsplit, -, hne, -, hdrawn, -, -⟩
    · cases hnil
    · cases hcons
      exact ih hrest'
    · obtain ⟨g, gs, rfl⟩ := exists_cons_of_ne_nil hne
      cases hsplit
      exact absurd rfl (hdrawn _ (mem_cons_self ..))
  | @run col prev style first rest later hne hstyle hdrawn hprev hrest ih =>
    rcases h'.inv with ⟨hnil, -⟩ | ⟨rest', hcons, -⟩ |
      ⟨style', first', rest', later', hsplit, rfl, hne', hstyle', hdrawn', -, hrest'⟩
    · exact absurd (append_eq_nil_iff.mp hnil).1 hne
    · obtain ⟨g, gs, rfl⟩ := exists_cons_of_ne_nil hne
      cases hcons
      exact absurd rfl (hdrawn _ (mem_cons_self ..))
    · obtain ⟨rfl, rfl, rfl⟩ :=
        first_unique hsplit hne hne' hstyle hstyle' hdrawn hdrawn' hrest hrest'
      rw [ih hrest']

end Encodes

section Decode

variable {cols : Nat} {style : CapStyle}
variable {line : List Cell}
variable {c : Nat}

/-- A line in which a stretch from `c` has been written. -/
theorem take_set_drop (hc : c < line.length) (cell : Cell) (cells : List Cell) (n : Nat) :
    (line.set c cell).take (c + 1) ++ cells ++ (line.set c cell).drop (c + 1 + n) =
      line.take c ++ (cell :: cells) ++ line.drop (c + (n + 1)) := by
  rw [show c + 1 + n = c + (n + 1) by omega, drop_set_of_lt (by omega),
    take_succ_eq_append_getElem (by rwa [length_set]), take_set_of_le (le_refl c),
    getElem_set_self, append_assoc (line.take c)]
  rfl

theorem decodeSimple_eq {chars : List Char}
    (hline : line.length = cols) (hfits : c + chars.length ≤ cols) :
    decodeSimple style cols chars c line =
      line.take c ++ chars.map (fun ch => makeCell ch none 1 style.cellStyle style) ++
        line.drop (c + chars.length) := by
  induction chars generalizing c line with
  | nil =>
    rw [decodeSimple, map_nil, append_nil]
    exact (take_append_drop c line).symm
  | cons ch chars ih =>
    rw [length_cons] at hfits
    rw [decodeSimple, if_neg (by omega), ih (by rw [length_set, hline]) (by omega),
      take_set_drop (by omega)]
    rfl

/-- The entries left are none, or start with one that is not empty. -/
def StartsGlyph (entries : List (List Char)) : Prop :=
  ∀ entry, entries.head? = some entry → entry.isEmpty = false

theorem decodeComplex_narrow {entry : List Char} {rest : List (List Char)}
    (hc : c < cols) (hentry : entry.isEmpty = false)
    (hrest : StartsGlyph rest) :
    decodeComplex style cols (entry :: rest) c line =
      decodeComplex style cols rest (c + 1) (line.set c (entryCell style entry 1)) := by
  cases rest with
  | nil =>
    rw [decodeComplex, decodeComplex, if_neg (by omega), hentry]
    rfl
  | cons next rest =>
    rw [decodeComplex, if_neg (by omega), hentry, hrest next rfl]
    rfl

theorem decodeComplex_wide {entry : List Char} {rest : List (List Char)}
    (hc : c + 1 < cols) (hentry : entry.isEmpty = false) :
    decodeComplex style cols (entry :: [] :: rest) c line =
      decodeComplex style cols rest (c + 2)
        ((line.set c (entryCell style entry 2)).set (c + 1) .wideContinuation) := by
  rw [decodeComplex, if_neg (by omega), hentry]
  dsimp only [isEmpty_nil]
  rw [if_pos hc]
  rfl

theorem isEmpty_displayText {cell : Cell} (h : cell.Kept) : cell.displayText.isEmpty = false := by
  rw [isEmpty_eq_false_iff]
  exact displayText_ne_nil h

variable {glyphs : List Cell}

theorem startsGlyph_append {more : List (List Char)}
    (h : ∀ glyph ∈ glyphs, glyph.Kept) (hmore : StartsGlyph more) :
    StartsGlyph (glyphs.flatMap Cell.entries ++ more) := by
  cases glyphs with
  | nil => exact hmore
  | cons glyph glyphs =>
    intro entry hentry
    have hdisplay := isEmpty_displayText (h glyph (mem_cons_self ..))
    rw [flatMap_cons] at hentry
    unfold Cell.entries at hentry
    split at hentry
    · cases hentry
      exact hdisplay
    · cases hentry
      exact hdisplay

theorem startsGlyph_nil : StartsGlyph [] := nofun

theorem startsGlyph_entries (h : ∀ glyph ∈ glyphs, glyph.Kept) :
    StartsGlyph (glyphs.flatMap Cell.entries) := by
  have happend := startsGlyph_append h startsGlyph_nil
  rwa [append_nil] at happend

/-- The entries of glyphs that fit are drawn before what follows them. -/
theorem decodeComplex_append (hkept : ∀ glyph ∈ glyphs, glyph.Kept)
    (hglyphs : ∀ glyph ∈ glyphs, glyph.IsGlyph)
    (hstyle : ∀ glyph ∈ glyphs, fromCell glyph = style) {more : List (List Char)}
    (hmore : StartsGlyph more) {line : List Cell} (hline : line.length = cols)
    (hfits : c + (expand glyphs).length ≤ cols) :
    decodeComplex style cols (glyphs.flatMap Cell.entries ++ more) c line =
      decodeComplex style cols more (c + (expand glyphs).length)
        (line.take c ++ expand glyphs ++ line.drop (c + (expand glyphs).length)) := by
  induction glyphs generalizing c line with
  | nil =>
    rw [flatMap_nil, nil_append, expand, flatMap_nil, append_nil,
      length_nil, Nat.add_zero, take_append_drop]
  | cons glyph glyphs ih =>
    have hself := mem_cons_self (a := glyph) (l := glyphs)
    have hcell := entryCell_displayText (hkept glyph hself)
    have hentry := isEmpty_displayText (hkept glyph hself)
    have hnext := startsGlyph_append (fun g hg => hkept g (mem_cons_of_mem _ hg)) hmore
    have ih' := fun c => @ih c (fun g hg => hkept g (mem_cons_of_mem _ hg))
      (fun g hg => hglyphs g (mem_cons_of_mem _ hg))
      (fun g hg => hstyle g (mem_cons_of_mem _ hg))
    rw [hstyle glyph hself] at hcell
    rw [expand_cons, length_append] at hfits
    rw [flatMap_cons, expand_cons, length_append, append_assoc]
    rcases hglyphs glyph hself with hone | htwo
    · rw [columns_narrow hone] at hfits ⊢
      rw [show glyph.entries = [glyph.displayText] by simp [Cell.entries, Cell.isWide, hone]]
      rw [hone] at hcell
      rw [length_singleton] at hfits ⊢
      rw [singleton_append, singleton_append, decodeComplex_narrow (by omega) hentry hnext,
        hcell, ih' _ (by rw [length_set, hline]) (by omega), take_set_drop (by omega),
        Nat.add_comm 1, Nat.add_assoc, Nat.add_comm 1]
    · rw [columns_wide htwo] at hfits ⊢
      rw [show glyph.entries = [glyph.displayText, []] by simp [Cell.entries, Cell.isWide, htwo]]
      rw [htwo] at hcell
      have hwidth : [glyph, Cell.wideContinuation].length = 2 := rfl
      rw [hwidth] at hfits ⊢
      have hset : c + 1 < (line.set c glyph).length := by
        rw [length_set]
        omega
      rw [cons_append, singleton_append, decodeComplex_wide (by omega) hentry, hcell,
        ih' _ (by rw [length_set, length_set, hline]) (by omega)]
      rw [show c + 2 = c + 1 + 1 from rfl, take_set_drop hset, take_set_drop (by omega)]
      rw [show c + ((expand glyphs).length + 1 + 1) = c + (2 + (expand glyphs).length) by omega,
        show c + 1 + 1 + (expand glyphs).length = c + (2 + (expand glyphs).length) by omega]
      rfl

theorem decodeComplex_eq (hkept : ∀ glyph ∈ glyphs, glyph.Kept)
    (hglyphs : ∀ glyph ∈ glyphs, glyph.IsGlyph)
    (hstyle : ∀ glyph ∈ glyphs, fromCell glyph = style)
    (hline : line.length = cols) (hfits : c + (expand glyphs).length ≤ cols) :
    decodeComplex style cols (glyphs.flatMap Cell.entries) c line =
      line.take c ++ expand glyphs ++ line.drop (c + (expand glyphs).length) := by
  have hdecode := decodeComplex_append hkept hglyphs hstyle startsGlyph_nil hline hfits
  rwa [append_nil, decodeComplex] at hdecode

theorem isSimple_iff {cell : Cell} :
    cell.isSimple = true ↔ cell.width = 1 ∧ cell.grapheme = none := by
  unfold Cell.isSimple
  rw [Bool.and_eq_true, beq_iff_eq, Option.isNone_iff_eq_none]

theorem flatMap_displayText (h : ∀ glyph ∈ glyphs, glyph.isSimple = true) :
    glyphs.flatMap Cell.displayText = glyphs.map Cell.ch := by
  rw [← flatMap_pure_eq_map]
  refine flatMap_congr fun glyph hglyph => ?_
  unfold Cell.displayText
  rw [(isSimple_iff.mp (h glyph hglyph)).2]
  rfl

theorem expand_simple (h : ∀ glyph ∈ glyphs, glyph.isSimple = true) :
    expand glyphs = glyphs := by
  unfold expand
  rw [flatMap_congr fun glyph hglyph => columns_narrow (isSimple_iff.mp (h glyph hglyph)).1]
  exact flatMap_singleton' glyphs

/-- A run is drawn over the columns it takes. -/
theorem decodeRun_eq (hkept : ∀ glyph ∈ glyphs, glyph.Kept)
    (hglyphs : ∀ glyph ∈ glyphs, glyph.IsGlyph)
    (hstyle : ∀ glyph ∈ glyphs, fromCell glyph = style)
    (hline : line.length = cols) (hfits : c + (expand glyphs).length ≤ cols) :
    decodeRunInto (.cells c (contentOf glyphs) style) line cols =
      line.take c ++ expand glyphs ++ line.drop (c + (expand glyphs).length) := by
  unfold contentOf
  split
  · next hall =>
    have hsimple := all_eq_true.mp hall
    rw [expand_simple hsimple] at hfits ⊢
    unfold decodeRunInto
    dsimp only
    rw [flatMap_displayText hsimple, decodeSimple_eq hline (by rwa [length_map]),
      length_map, map_map]
    congr 2
    refine (map_congr_left fun glyph hglyph => ?_).trans (map_id glyphs)
    obtain ⟨hwidth, hgrapheme⟩ := isSimple_iff.mp (hsimple glyph hglyph)
    have hmake := makeCell_fromCell (hkept glyph hglyph)
    rw [hstyle glyph hglyph, hwidth, hgrapheme] at hmake
    exact hmake
  · exact decodeComplex_eq hkept hglyphs hstyle hline hfits

/-- Runs that encode glyphs draw them on a blank stretch. -/
theorem Encodes.decode {col : Nat} {prev : Option CapStyle} {runs : List Run}
    (h : Encodes col prev glyphs runs) (hkept : ∀ glyph ∈ glyphs, glyph.Kept)
    (hglyphs : ∀ glyph ∈ glyphs, glyph.IsGlyph) {before after : List Cell}
    (hbefore : before.length = col) {n : Nat} (hn : n = (expand glyphs).length)
    (hcols : col + n + after.length = cols) :
    runs.foldl (fun line run => decodeRunInto run line cols)
        (before ++ List.replicate n .empty ++ after) = before ++ expand glyphs ++ after := by
  induction h generalizing before n with
  | done =>
    rw [expand, flatMap_nil] at hn ⊢
    rw [hn]
    rfl
  | @blank col prev glyphs runs hrest ih =>
    rw [expand_cons, columns_narrow rfl, length_append, length_singleton] at hn
    rw [expand_cons, columns_narrow rfl, hn, Nat.add_comm, replicate_succ]
    have hlen : (before ++ [Cell.empty]).length = col + 1 := by
      rw [length_append, hbefore]
      rfl
    have hstep := ih (fun g hg => hkept g (mem_cons_of_mem _ hg))
      (fun g hg => hglyphs g (mem_cons_of_mem _ hg)) hlen rfl (by omega)
    simpa only [append_assoc, cons_append, nil_append] using hstep
  | @run col prev style glyphs rest runs hne hstyle hdrawn hprev hrest ih =>
    rw [expand_append, length_append] at hn
    have hline : (before ++ List.replicate n Cell.empty ++ after).length = cols := by
      rw [length_append, length_append, length_replicate, hbefore, hcols]
    rw [foldl_cons, decodeRun_eq (fun g hg => hkept g (mem_append_left _ hg))
      (fun g hg => hglyphs g (mem_append_left _ hg)) hstyle hline (by omega)]
    have hlen : (before ++ expand glyphs).length = col + (expand glyphs).length := by
      rw [length_append, hbefore]
    have hstep := ih (fun g hg => hkept g (mem_append_right _ hg))
      (fun g hg => hglyphs g (mem_append_right _ hg)) hlen rfl (by omega)
    have hover : (before ++ List.replicate n Cell.empty ++ after).take col ++ expand glyphs ++
          (before ++ List.replicate n Cell.empty ++ after).drop (col + (expand glyphs).length) =
        before ++ expand glyphs ++ List.replicate (expand rest).length Cell.empty ++ after := by
      rw [← hbefore, append_assoc before, take_left, drop_length_add_append,
        drop_append_of_le_length (by rw [length_replicate]; omega),
        drop_replicate, show n - (expand glyphs).length = (expand rest).length by omega]
      simp only [append_assoc]
    rw [hover, hstep, expand_append]
    simp only [append_assoc]

end Decode

end Shux.Vt
