/-
# Runs of style changes

A run of changes is a longest stretch of columns of a row on which two frames have one pair of
styles that differ. The walk over the columns that have a style meets the runs of each row in
order, and enters the first ones.

A column past the last one of a row is given a style by a single kind of run: an array with more
entries than sixteen bits count, in a row as wide as sixteen bits allow. Its style lands on column
65535, and the walk goes on to there.
-/

import Shux.Gate.StyleDeltas

namespace Shux.Gate

open Vt List

variable {eStyles aStyles : FinMap Nat CapStyle} {f : Nat → Option (CapStyle × CapStyle)}
  {row n : Nat} {before : List StyleDelta} {w : StyleWalk}

/-- The styles of a column, if they differ. -/
def pairOf (eStyles aStyles : FinMap Nat CapStyle) (c : Nat) : Option (CapStyle × CapStyle) :=
  if styleOf eStyles c = styleOf aStyles c then none
  else some (styleOf eStyles c, styleOf aStyles c)

/-- The entry of a stretch. -/
def entryOf (row : Nat) (s : Stretch (CapStyle × CapStyle)) : StyleDelta :=
  ⟨row, s.start, min s.stop (2 ^ 16 - 1), describeStyle s.value.1, describeStyle s.value.2⟩

/-- The walk has met the stretches of the columns below `n`, behind earlier entries. -/
structure Met (f : Nat → Option (CapStyle × CapStyle)) (row n : Nat) (before : List StyleDelta)
    (w : StyleWalk) : Prop where
  out : w.out = (before ++ (Stretch.all f n).map (entryOf row)).take maxStyleDeltas
  total : w.total = min (before.length + (Stretch.all f n).length) (2 ^ 32 - 1)
  emitting : Stretch.all f n ≠ [] →
    w.emittingCurrent = decide (before.length + (Stretch.all f n).length ≤ maxStyleDeltas)
  prev : ∀ c v, c + 1 = n → (w.prev = some (c, v) ↔ f c = some v)
  prev_lt : ∀ c v, w.prev = some (c, v) → c < n

/-- A column without a pair is passed over, with the last one kept or not. -/
theorem Met.pass (h : Met f row n before w) (hnone : f n = none)
    {prev : Option (Nat × CapStyle × CapStyle)} (hprev : prev = w.prev ∨ prev = none) :
    Met f row (n + 1) before { w with prev } := by
  have hold : ∀ c v, prev = some (c, v) → c < n := by
    rintro c v rfl
    exact h.prev_lt c v (hprev.resolve_right nofun).symm
  refine ⟨?_, ?_, ?_, ?_, fun c v hc => Nat.lt_succ_of_lt (hold c v hc)⟩
  · rw [Stretch.all_none hnone]
    exact h.out
  · rw [Stretch.all_none hnone]
    exact h.total
  · rw [Stretch.all_none hnone]
    exact h.emitting
  · intro c v hc
    obtain rfl : c = n := Nat.succ.inj hc
    rw [hnone]
    exact ⟨fun hsame => absurd (hold c v hsame) (lt_irrefl c), nofun⟩

theorem continuesRun_iff {prev : Option (Nat × CapStyle × CapStyle)} {col : Nat} {e a : CapStyle} :
    continuesRun prev col e a = true ↔ ∃ c, c + 1 = col ∧ prev = some (c, e, a) := by
  cases prev with
  | none => simp [continuesRun]
  | some p =>
    obtain ⟨c, pe, pa⟩ := p
    simp only [continuesRun, Bool.and_eq_true, beq_iff_eq, Option.some.injEq, Prod.mk.injEq]
    constructor
    · rintro ⟨⟨hcol, rfl⟩, rfl⟩
      exact ⟨c, hcol, rfl, rfl, rfl⟩
    · rintro ⟨c', hcol, rfl, rfl, rfl⟩
      exact ⟨⟨hcol, rfl⟩, rfl⟩

/-- The walk goes on with a stretch just when the stretch goes on. -/
theorem Met.continues_iff (h : Met f row n before w) {e a : CapStyle} :
    continuesRun w.prev n e a = true ↔ 0 < n ∧ f (n - 1) = some (e, a) := by
  rw [continuesRun_iff]
  constructor
  · rintro ⟨c, rfl, hprev⟩
    exact ⟨Nat.succ_pos c, (h.prev c _ rfl).mp hprev⟩
  · rintro ⟨hpos, hsame⟩
    exact ⟨n - 1, Nat.sub_add_cancel hpos, (h.prev _ _ (Nat.sub_add_cancel hpos)).mpr hsame⟩

theorem extendLast_append (colEnd : Nat) (out : List StyleDelta) (d : StyleDelta) :
    extendLast colEnd (out ++ [d]) = out ++ [{ d with colEnd }] := by
  simp [extendLast]

/-- One column of the walk. -/
theorem Met.step (h : Met (pairOf eStyles aStyles) row n before w) :
    Met (pairOf eStyles aStyles) row (n + 1) before (stepColumn row eStyles aStyles w n) := by
  unfold stepColumn
  dsimp only
  by_cases heq : styleOf eStyles n = styleOf aStyles n
  · rw [if_pos heq]
    exact h.pass (if_pos heq) (.inr rfl)
  rw [if_neg heq]
  have hn : pairOf eStyles aStyles n = some (styleOf eStyles n, styleOf aStyles n) := if_neg heq
  have hprev : ∀ c v, c + 1 = n + 1 →
      (some (n, styleOf eStyles n, styleOf aStyles n) = some (c, v) ↔
        pairOf eStyles aStyles c = some v) := by
    intro c v hc
    obtain rfl : c = n := Nat.succ.inj hc
    rw [hn]
    simp
  have hprev_lt : ∀ c v, some (n, styleOf eStyles n, styleOf aStyles n) = some (c, v) →
      c < n + 1 := by
    rintro c v ⟨⟩
    exact Nat.lt_succ_self n
  have hout := h.out
  have htotal := h.total
  by_cases hsame : 0 < n ∧
      pairOf eStyles aStyles (n - 1) = some (styleOf eStyles n, styleOf aStyles n)
  · -- the last stretch grows
    obtain ⟨front, s, hall, hstop, hvalue⟩ := Stretch.exists_grown hsame
    have hgrown := Stretch.all_grown hn hsame
    rw [hall, Stretch.grow_append] at hgrown
    have hemitting := h.emitting (by rw [hall]; simp)
    rw [hall] at hout htotal hemitting
    simp only [map_append, map_cons, map_nil, length_append,
      length_singleton, ← append_assoc] at hout htotal hemitting
    rw [if_pos (h.continues_iff.mpr hsame)]
    by_cases hroom : before.length + (front.length + 1) ≤ maxStyleDeltas
    · rw [decide_eq_true hroom] at hemitting
      rw [if_pos hemitting]
      refine ⟨?_, ?_, fun _ => ?_, hprev, hprev_lt⟩
      · rw [take_of_length_le (by simp; omega)] at hout
        rw [hgrown, hout, extendLast_append, take_of_length_le (by simp; omega)]
        simp [entryOf]
      · rw [hgrown, htotal]
        simp
      · rw [hgrown, hemitting]
        simpa using hroom
    · rw [decide_eq_false hroom] at hemitting
      rw [if_neg (by rw [hemitting]; decide)]
      refine ⟨?_, ?_, fun _ => ?_, hprev, hprev_lt⟩
      · rw [take_append_of_le_length (by simp; omega)] at hout
        rw [hgrown, map_append, ← append_assoc, take_append_of_le_length (by simp; omega)]
        exact hout
      · rw [hgrown, htotal]
        simp
      · rw [hgrown, hemitting]
        simpa using hroom
  · -- a stretch starts
    have hfresh := Stretch.all_fresh hn hsame
    rw [if_neg (mt h.continues_iff.mp hsame)]
    have hlength : w.out.length < maxStyleDeltas ↔
        before.length + ((Stretch.all (pairOf eStyles aStyles) n).length + 1) ≤ maxStyleDeltas := by
      rw [hout, length_take, length_append, length_map]
      omega
    refine ⟨?_, ?_, fun _ => ?_, hprev, hprev_lt⟩
    · rw [hfresh, map_append, ← append_assoc]
      by_cases hroom : w.out.length < maxStyleDeltas
      · have hfits := hlength.mp hroom
        rw [decide_eq_true hroom, if_pos rfl, hout, take_of_length_le (by simp; omega),
          take_of_length_le (by simp; omega)]
        rfl
      · have hfull : maxStyleDeltas ≤
            (before ++ (Stretch.all (pairOf eStyles aStyles) n).map (entryOf row)).length := by
          rw [length_append, length_map]
          exact Nat.le_of_lt_succ (Nat.lt_of_not_le (mt hlength.mpr hroom))
        rw [decide_eq_false hroom, if_neg Bool.false_ne_true, hout, take_append_of_le_length hfull]
    · rw [hfresh, length_append, length_singleton]
      show min (w.total + 1) _ = _
      rw [htotal]
      clear hlength
      omega
    · rw [hfresh, length_append, length_singleton]
      exact decide_eq_decide.mpr hlength

/-- Both sides have styles for columns below `2 ^ 16` only. -/
theorem unionColumns_eq (he : ∀ c st, eStyles.get c = some st → c < 2 ^ 16)
    (ha : ∀ c st, aStyles.get c = some st → c < 2 ^ 16) :
    unionColumns eStyles aStyles =
      (range (2 ^ 16)).filter fun c => eStyles.contains c || aStyles.contains c := by
  refine List.Perm.eq_of_pairwise' (r := (· ≤ ·)) (pairwise_insertionSort _ _)
    ((pairwise_le_range).filter _) ?_
  refine (perm_insertionSort _ _).trans ?_
  refine (perm_ext_iff_of_nodup (nodup_dedup _) (nodup_range.filter _)).mpr ?_
  intro c
  simp only [mem_dedup, mem_append, FinMap.mem_keys_iff, mem_filter, mem_range,
    Bool.or_eq_true, FinMap.contains_iff]
  constructor
  · rintro (⟨st, hst⟩ | ⟨st, hst⟩)
    · exact ⟨he c st hst, .inl ⟨st, hst⟩⟩
    · exact ⟨ha c st hst, .inr ⟨st, hst⟩⟩
  · exact And.right

theorem pairOf_none (h : ¬(eStyles.contains n || aStyles.contains n) = true) :
    pairOf eStyles aStyles n = none := by
  rw [Bool.or_eq_true, not_or, Bool.not_eq_true, Bool.not_eq_true, FinMap.contains_eq_false_iff,
    FinMap.contains_eq_false_iff] at h
  refine if_pos ?_
  unfold styleOf
  rw [h.1, h.2]

/-- The walk over the columns of a row. -/
theorem Met.columns (he : ∀ c st, eStyles.get c = some st → c < 2 ^ 16)
    (ha : ∀ c st, aStyles.get c = some st → c < 2 ^ 16)
    (hout : w.out = before.take maxStyleDeltas)
    (htotal : w.total = min before.length (2 ^ 32 - 1)) :
    Met (pairOf eStyles aStyles) row (2 ^ 16) before
      ((unionColumns eStyles aStyles).foldl (stepColumn row eStyles aStyles)
        { w with prev := none }) := by
  rw [unionColumns_eq he ha, foldl_filter]
  generalize 2 ^ 16 = N
  induction N with
  | zero =>
    refine ⟨?_, ?_, fun h => absurd rfl h, fun c v h => ?_, fun _ _ h => nomatch h⟩
    · rw [Stretch.all, map_nil, append_nil]
      exact hout
    · rw [Stretch.all, length_nil, Nat.add_zero]
      exact htotal
    · exact absurd h (Nat.succ_ne_zero c)
  | succ n ih =>
    rw [range_succ, foldl_append, foldl_cons, foldl_nil]
    by_cases hmem : (eStyles.contains n || aStyles.contains n) = true
    · rw [if_pos hmem]
      exact ih.step
    · rw [if_neg hmem]
      exact ih.pass (pairOf_none hmem) (.inl rfl)

theorem get_foldl_insert (k : Nat → Nat) (is : List Nat) (style : CapStyle)
    (out : FinMap Nat CapStyle) (c : Nat) :
    (is.foldl (fun out i => out.insert (k i) style) out).get c =
      if c ∈ is.map k then some style else out.get c := by
  induction is generalizing out with
  | nil => rfl
  | cons i is ih =>
    rw [foldl_cons, ih, FinMap.get_insert, map_cons]
    by_cases hmem : c ∈ is.map k
    · rw [if_pos hmem, if_pos (mem_cons_of_mem _ hmem)]
    · rw [if_neg hmem]
      simp only [mem_cons, hmem, or_false]

/-- Entries that an array has, or characters of a text. -/
def runWidth : RunContent → Nat
  | .simple text => text.length
  | .complex entries => entries.length

/-- The columns that a run gives its style to. -/
def runColumns (col width : Nat) : List Nat :=
  (range width).map fun i => min (col + asU16 i) (2 ^ 16 - 1)

theorem get_insertRun (out : FinMap Nat CapStyle) (col : Nat) (content : RunContent)
    (style : CapStyle) (c : Nat) :
    (insertRun out (.cells col content style)).get c =
      if c ∈ runColumns col (runWidth content) then some style else out.get c := by
  cases content with
  | simple text | complex entries => exact get_foldl_insert ..

theorem rowStyles_lt (row : RowRepr) (c : Nat) (st : CapStyle)
    (h : (rowStyles row).get c = some st) : c < 2 ^ 16 := by
  have hall : ∀ (runs : List Run) (out : FinMap Nat CapStyle),
      (∀ c st, out.get c = some st → c < 2 ^ 16) →
        ∀ c st, (runs.foldl insertRun out).get c = some st → c < 2 ^ 16 := by
    intro runs
    induction runs with
    | nil => exact fun _ hout => hout
    | cons run runs ih =>
      refine fun out hout => ih _ fun c st hc => ?_
      cases run with
      | mask => exact hout c st hc
      | cells col content style =>
        rw [get_insertRun] at hc
        split at hc
        · next hmem =>
          obtain ⟨i, -, rfl⟩ := mem_map.mp hmem
          omega
        · exact hout c st hc
  exact hall row.runs ∅ (fun _ _ h => by cases h) c st h

/-- The entries of a row. -/
def rowEntries (actual : FrameEnvelope) (erow : RowRepr) : List StyleDelta :=
  match actualRow actual erow.row with
  | none => []
  | some arow =>
    (Stretch.all (pairOf (rowStyles erow) (rowStyles arow)) (2 ^ 16)).map (entryOf erow.row)

/-- The walk enters the first stretches of all rows, and counts every one. -/
theorem styleDeltas_eq (expected actual : FrameEnvelope) :
    styleDeltas expected actual =
      ((expected.rows.flatMap (rowEntries actual)).take maxStyleDeltas,
        min (expected.rows.flatMap (rowEntries actual)).length (2 ^ 32 - 1)) := by
  have hall : ∀ (rows : List RowRepr) (before : List StyleDelta) (w : StyleWalk),
      w.out = before.take maxStyleDeltas → w.total = min before.length (2 ^ 32 - 1) →
        (rows.foldl (stepRow actual) w).out =
            (before ++ rows.flatMap (rowEntries actual)).take maxStyleDeltas ∧
          (rows.foldl (stepRow actual) w).total =
            min (before ++ rows.flatMap (rowEntries actual)).length (2 ^ 32 - 1) := by
    intro rows
    induction rows with
    | nil =>
      intro before w hout htotal
      rw [flatMap_nil, append_nil]
      exact ⟨hout, htotal⟩
    | cons erow rows ih =>
      intro before w hout htotal
      rw [foldl_cons, flatMap_cons, ← append_assoc]
      cases hrow : actualRow actual erow.row with
      | none =>
        simp only [stepRow, rowEntries, hrow, append_nil]
        exact ih before w hout htotal
      | some arow =>
        have hmet := @Met.columns _ _ erow.row _ _ (rowStyles_lt erow) (rowStyles_lt arow) hout
          htotal
        simp only [stepRow, rowEntries, hrow]
        refine ih _ _ hmet.out ?_
        rw [length_append, length_map]
        exact hmet.total
  obtain ⟨hout, htotal⟩ := hall expected.rows [] ⟨[], 0, false, none⟩ rfl rfl
  exact Prod.ext hout htotal

/-- The columns of a run are those it covers, and for one with more entries than sixteen bits
count also the last number. -/
theorem mem_runColumns {col width c : Nat} (hlt : col + min width (2 ^ 16 - 1) < 2 ^ 16) :
    (col ≤ c → c < col + min width (2 ^ 16 - 1) → c ∈ runColumns col width) ∧
      (c ∈ runColumns col width → col ≤ c ∧ c < col + min width (2 ^ 16 - 1) ∨
        c = 2 ^ 16 - 1 ∧ 2 ^ 16 ≤ width) := by
  constructor
  · intro hge hbelow
    refine mem_map.mpr ⟨c - col, mem_range.mpr (by omega), ?_⟩
    rw [asU16_of_lt (by omega)]
    omega
  · intro hmem
    obtain ⟨i, hi, rfl⟩ := mem_map.mp hmem
    have hi := mem_range.mp hi
    rcases Nat.lt_or_ge i (2 ^ 16) with hsmall | hlarge
    · rw [asU16_of_lt hsmall]
      omega
    · have hbound := asU16_lt i
      omega

theorem runWidth_contentOf (glyphs : List Cell) :
    runWidth (contentOf glyphs) = (expand glyphs).length := by
  unfold contentOf
  split
  · next hall =>
    have hsimple := all_eq_true.mp hall
    rw [runWidth, flatMap_displayText hsimple, length_map, expand_simple hsimple]
  · exact length_entries

/-- The styles of some runs are those of the cells they drew, which is blank from `m` on. -/
structure Alike (cols m : Nat) (cells : List Cell) (styles : FinMap Nat CapStyle) : Prop where
  length : cells.length = cols
  shown : ∀ c < cols, styleOf styles c = shownStyle cells c
  blank : ∀ c, m ≤ c → c < cols → cells[c]? = some .empty
  past : ∀ c, m ≤ c → c ≠ 2 ^ 16 - 1 ∨ cols < 2 ^ 16 - 1 → styles.get c = none

variable {cols m : Nat} {cells : List Cell} {styles : FinMap Nat CapStyle}

theorem Alike.start (cols : Nat) : Alike cols 0 (replicate cols .empty) ∅ where
  length := length_replicate
  shown _ hc := (shownStyle_blank (getElem?_replicate_of_lt hc)).symm
  blank _ _ hc := getElem?_replicate_of_lt hc
  past _ _ _ := rfl

/-- What a run draws: as many of its columns as it is given. -/
theorem decodeRunInto_eq {glyphs : List Cell} {style : CapStyle} (hglyphs : Glyphs style glyphs)
    (hsimple : glyphs.all Cell.isSimple = true → (expand glyphs).length < 2 ^ 16) {col : Nat}
    (hlength : cells.length = cols) (hlt : col + min (expand glyphs).length (2 ^ 16 - 1) < 2 ^ 16)
    (hcols : cols < 2 ^ 16) (hfits : col + min (expand glyphs).length (2 ^ 16 - 1) ≤ cols) :
    decodeRunInto (.cells col (contentOf glyphs) style) cells cols =
      cells.take col ++ (expand glyphs).take (min (expand glyphs).length (2 ^ 16 - 1)) ++
        cells.drop (col + min (expand glyphs).length (2 ^ 16 - 1)) := by
  rcases Nat.lt_or_ge (expand glyphs).length (2 ^ 16) with hshort | hlong
  · have hmin : min (expand glyphs).length (2 ^ 16 - 1) = (expand glyphs).length := by omega
    rw [hmin] at hfits ⊢
    rw [decodeRun_eq hglyphs.kept hglyphs.glyph hglyphs.style hlength hfits, take_length]
  · -- an array that goes on past the edge of the widest row
    have hmin : min (expand glyphs).length (2 ^ 16 - 1) = cols := by omega
    obtain rfl : col = 0 := by omega
    rw [hmin, Nat.zero_add, drop_of_length_le hlength.le, append_nil]
    unfold contentOf
    rw [if_neg fun hall => absurd (hsimple hall) (by omega)]
    exact decodeComplex_cut hglyphs hlength (Nat.zero_le _) (by omega)

theorem Alike.run (h : Alike cols m cells styles) {glyphs : List Cell} {style : CapStyle}
    (hglyphs : Glyphs style glyphs)
    (hsimple : glyphs.all Cell.isSimple = true → (expand glyphs).length < 2 ^ 16) {col span : Nat}
    (hspan : span = min (expand glyphs).length (2 ^ 16 - 1)) (hm : m ≤ col)
    (hlt : col + span < 2 ^ 16) (hcols : cols < 2 ^ 16) (hfits : col + span ≤ cols) :
    Alike cols (col + span) (decodeRunInto (.cells col (contentOf glyphs) style) cells cols)
      (insertRun styles (.cells col (contentOf glyphs) style)) := by
  have hlength := h.length
  have hdraw := decodeRunInto_eq hglyphs hsimple hlength (hspan ▸ hlt) hcols (hspan ▸ hfits)
  rw [← hspan] at hdraw
  generalize decodeRunInto _ cells cols = drawn at hdraw ⊢
  have htake : ((expand glyphs).take span).length = span := by
    rw [length_take]
    omega
  have hfront : (cells.take col).length = col := by
    rw [length_take]
    omega
  have hbefore : ∀ c < col, drawn[c]? = cells[c]? := by
    intro c hc
    rw [hdraw, append_assoc, getElem?_append_left (by omega), getElem?_take_of_lt hc]
  have hdrawn : ∀ c, col ≤ c → c < col + span → drawn[c]? = (expand glyphs)[c - col]? := by
    intro c hge hc
    rw [hdraw, append_assoc, getElem?_append_right (by omega), hfront,
      getElem?_append_left (by omega), getElem?_take_of_lt (by omega)]
  have hafter : ∀ c, col + span ≤ c → drawn[c]? = cells[c]? := by
    intro c hge
    rw [hdraw, getElem?_append_right (by rw [length_append]; omega), length_append,
      hfront, htake, getElem?_drop]
    congr 1
    omega
  have hget := get_insertRun styles col (contentOf glyphs) style
  rw [runWidth_contentOf] at hget
  have hmem := fun c => @mem_runColumns col (expand glyphs).length c (hspan ▸ hlt)
  rw [← hspan] at hmem
  have hpast : ∀ c, col + span ≤ c → c ≠ 2 ^ 16 - 1 ∨ cols < 2 ^ 16 - 1 →
      (insertRun styles (.cells col (contentOf glyphs) style)).get c = none := by
    intro c hge hc
    rw [hget, if_neg]
    · exact h.past c (by omega) hc
    · intro hin
      rcases (hmem c).2 hin with hin | hin
      · omega
      · omega
  refine ⟨?_, fun c hc => ?_, fun c hge hc => (hafter c hge).trans (h.blank c (by omega) hc), hpast⟩
  · rw [hdraw, length_append, length_append, hfront, htake, length_drop]
    omega
  · rcases Nat.lt_or_ge c col with hlow | hge
    · rw [shownStyle_congr (hbefore c hlow) (hbefore (c - 1) (by omega)), ← h.shown c hc]
      unfold styleOf
      rw [hget, if_neg]
      intro hin
      rcases (hmem c).2 hin with hin | hin
      · omega
      · omega
    · rcases Nat.lt_or_ge c (col + span) with hin | hout
      · rw [shownStyle_drawn hglyphs hge (by omega) fun i hi hic => hdrawn i hi (by omega)]
        unfold styleOf
        rw [hget, if_pos ((hmem c).1 hge hin)]
        rfl
      · rw [shownStyle_blank ((hafter c hout).trans (h.blank c (by omega) hc))]
        unfold styleOf
        rw [hpast c hout (by omega)]
        rfl

section

variable [Crates]

theorem Alike.runs (h : Alike cols m cells styles) (hcols : cols < 2 ^ 16) {runs : List Run}
    (hcells : ∀ run ∈ runs, ∀ col n, run ≠ .mask col n)
    {last : Option (Nat × RunKey)} (hm : m ≤ cols)
    (hvalid : validateRuns row cols runs m last = .ok ()) :
    ∃ m' ≤ cols, Alike cols m' (runs.foldl (fun cells run => decodeRunInto run cells cols) cells)
      (runs.foldl insertRun styles) := by
  induction runs generalizing m cells styles last with
  | nil => exact ⟨m, hm, h⟩
  | cons run runs ih =>
    obtain ⟨col, span, key, hrun, hcol, -, hlt, hfits, hrest⟩ := validateRuns_cons.mp hvalid
    cases run with
    | mask c n => exact absurd rfl (hcells _ mem_cons_self c n)
    | cells c content style =>
      obtain ⟨span', hspan, hout⟩ := validateRun_cells.mp hrun
      cases hout
      obtain ⟨glyphs, -, hglyphs, rfl, hmin, hsimple⟩ := glyphs_of_validateCellsRun style hspan
      exact ih (h.run hglyphs hsimple hmin hcol hlt hcols hfits)
        (fun r hr => hcells r (mem_cons_of_mem _ hr)) hfits hrest

/-- The styles of a row that passes are those of its cells. Past the last column there is one at
most on column 65535, and that in a row as wide as this. -/
theorem rowStyles_spec {r : RowRepr} (hcols : cols < 2 ^ 16)
    (hcells : ∀ run ∈ r.runs, ∀ col n, run ≠ .mask col n)
    (hvalid : validateRow r cols = .ok ()) :
    (∀ c < cols, styleOf (rowStyles r) c = shownStyle (r.drawn cols) c) ∧
      ∀ c, cols ≤ c → c ≠ 2 ^ 16 - 1 ∨ cols < 2 ^ 16 - 1 → (rowStyles r).get c = none := by
  obtain ⟨m, hm, halike⟩ := (Alike.start cols).runs hcols hcells (Nat.zero_le _) hvalid
  exact ⟨halike.shown, fun c hc hne => halike.past c (hm.trans hc) hne⟩

/-! ## What is listed -/

omit [Crates] in
theorem actualRow_eq {actual : FrameEnvelope}
    (horder : ∀ (k : Nat) (r : RowRepr), actual.rows[k]? = some r → r.row = k) {k : Nat}
    {r : RowRepr} (hr : actual.rows[k]? = some r) : actualRow actual k = some r := by
  unfold actualRow
  cases hfind : actual.rows.reverse.find? fun r' => r'.row == k with
  | none =>
    have hmem := mem_reverse.mpr (mem_of_getElem? hr)
    exact absurd (beq_iff_eq.mpr (horder k r hr)) (find?_eq_none.mp hfind r hmem)
  | some found =>
    have hrow : (found.row == k) = true := @find?_some _ (fun r' : RowRepr => r'.row == k) _ _ hfind
    obtain ⟨i, hi⟩ := mem_iff_getElem?.mp
      (mem_reverse.mp (mem_of_find?_eq_some hfind))
    rw [← hi, ← hr, ← beq_iff_eq.mp hrow, horder i found hi]

/-- No run of a frame is a masked one. -/
def MaskFree (env : FrameEnvelope) : Prop :=
  ∀ r ∈ env.rows, ∀ run ∈ r.runs, ∀ col n, run ≠ .mask col n

/-- The styles of a frame's cells, row by row. -/
theorem row_spec {env : FrameEnvelope} (hvalid : env.validate = .ok ()) (hmask : MaskFree env)
    {k : Nat} (hk : k < env.size.rows) :
    ∃ r, env.rows[k]? = some r ∧ r.row = k ∧
      (∀ c < env.size.cols, styleOf (rowStyles r) c = env.styleAt k c) ∧
      ∀ c, env.size.cols ≤ c → c ≠ 2 ^ 16 - 1 ∨ env.size.cols < 2 ^ 16 - 1 →
        (rowStyles r).get c = none := by
  obtain ⟨-, hcount, -, -, hrows⟩ := validate_iff.mp hvalid
  have hget := getElem?_eq_getElem (hcount.symm ▸ hk : k < env.rows.length)
  obtain ⟨hrow, hok⟩ := hrows k _ hget
  obtain ⟨hshown, hpast⟩ := rowStyles_spec env.size.cols_lt
    (hmask _ (mem_of_getElem? hget)) hok
  refine ⟨_, hget, hrow, fun c hc => ?_, hpast⟩
  unfold FrameEnvelope.styleAt
  rw [toCells_eq hcount fun k r hr => (hrows k r hr).1, getD_eq_getElem?_getD, getElem?_map, hget]
  exact hshown c hc

end

/-- The styles of a cell in two frames, if they differ. -/
def framePair (e a : FrameEnvelope) (r c : Nat) : Option (CapStyle × CapStyle) :=
  if e.styleAt r c = a.styleAt r c then none else some (e.styleAt r c, a.styleAt r c)

/-- The runs of changes between two frames, row by row. -/
def styleRuns (e a : FrameEnvelope) : List (Nat × Stretch (CapStyle × CapStyle)) :=
  (range e.size.rows).flatMap fun r => (Stretch.all (framePair e a r) e.size.cols).map (Prod.mk r)

/-- The entry that tells a run. -/
def runEntry (run : Nat × Stretch (CapStyle × CapStyle)) : StyleDelta :=
  ⟨run.1, run.2.start, run.2.stop, describeStyle run.2.value.1, describeStyle run.2.value.2⟩

/-- The total is the number of runs, and the entries are those of the first ones. -/
def ListsExactly (e a : FrameEnvelope) : Prop :=
  (styleDeltas e a).2 = (styleRuns e a).length ∧
    (styleDeltas e a).1 = ((styleRuns e a).take maxStyleDeltas).map runEntry

/-- The styles of column 65535 are no change, or the change of the column before. -/
def StrayKept (erow arow : RowRepr) : Prop :=
  pairOf (rowStyles erow) (rowStyles arow) (2 ^ 16 - 1) = none ∨
    pairOf (rowStyles erow) (rowStyles arow) (2 ^ 16 - 1) =
      pairOf (rowStyles erow) (rowStyles arow) (2 ^ 16 - 1 - 1)

/-- A change on a column past the last one is met as one more stretch, unless it goes on with the
stretch before. -/
theorem entries_spec {g : Nat → Option (CapStyle × CapStyle)} {last : Nat}
    (hlast : last = 2 ^ 16 - 1) (hcols : cols ≤ last) (hsame : ∀ c < cols, f c = g c)
    (hpast : ∀ c, cols ≤ c → c < last → f c = none) :
    (f last = none ∨ f last = f (last - 1) →
      (Stretch.all f (last + 1)).map (entryOf row) =
        ((Stretch.all g cols).map (Prod.mk row)).map runEntry) ∧
    (¬(f last = none ∨ f last = f (last - 1)) →
      (Stretch.all f (last + 1)).length = (Stretch.all g cols).length + 1) := by
  have hshort : Stretch.all f last = Stretch.all g cols :=
    (Stretch.all_skip hcols hpast).trans (Stretch.all_congr hsame)
  have hentry : ∀ s ∈ Stretch.all g cols, entryOf row s = runEntry (row, s) := by
    intro s hs
    have hstop := ((Stretch.all_ordered g cols).2 s hs).2
    unfold entryOf runEntry
    rw [Nat.min_eq_left (by omega)]
  cases hvalue : f last with
  | none =>
    refine ⟨fun _ => ?_, fun hnot => absurd (.inl rfl) hnot⟩
    rw [Stretch.all_none hvalue, hshort, map_map]
    exact map_congr_left hentry
  | some v =>
    have hpos : 0 < last := by omega
    constructor
    · intro hkept
      have hgoes := hkept.resolve_left nofun
      obtain ⟨before, s, hall, hstop, -⟩ := Stretch.exists_grown ⟨hpos, hgoes.symm⟩
      rw [Stretch.all_grown hvalue ⟨hpos, hgoes.symm⟩, hall, Stretch.grow_append, ← hshort, hall,
        map_map, map_append, map_append]
      rw [← hshort, hall] at hentry
      refine congrArg₂ _ (map_congr_left fun t ht => hentry t (by simp [ht])) ?_
      rw [map_singleton, map_singleton]
      show [entryOf row _] = [runEntry (row, s)]
      unfold entryOf runEntry
      rw [Nat.min_eq_right (by dsimp only; omega), ← hlast, ← hstop]
    · intro hnot
      have hfresh : ¬(0 < last ∧ f (last - 1) = some v) := fun h => hnot (.inr h.2.symm)
      rw [Stretch.all_fresh hvalue hfresh, hshort, length_append, length_singleton]

theorem flatMap_range {α β : Type} (l : List α) (F : α → List β) :
    (range l.length).flatMap (fun i => (l[i]?.map F).getD []) = l.flatMap F := by
  induction l with
  | nil => rfl
  | cons a l ih =>
    rw [length_cons, range_succ_eq_map, flatMap_cons, flatMap_map, flatMap_cons, ← ih]
    rfl

/-- Two lists of pieces are as long as each other only if their pieces are, the pieces of one being
no shorter than those of the other. -/
theorem length_flatMap_range {α β : Type} {x : Nat → List α} {y : Nat → List β}
    (hle : ∀ r < n, (y r).length ≤ (x r).length) :
    ((range n).flatMap y).length ≤ ((range n).flatMap x).length ∧
      (((range n).flatMap x).length = ((range n).flatMap y).length →
        ∀ r < n, (x r).length = (y r).length) := by
  induction n with
  | zero => exact ⟨le_rfl, fun _ r hr => absurd hr (Nat.not_lt_zero r)⟩
  | succ n ih =>
    obtain ⟨htotal, heach⟩ := ih fun r hr => hle r (by omega)
    have hlast := hle n (Nat.lt_succ_self n)
    simp only [range_succ, flatMap_append, flatMap_singleton, length_append]
    refine ⟨by omega, fun hsame r hr => ?_⟩
    rcases Nat.lt_succ_iff_lt_or_eq.mp hr with hr | rfl
    · exact heach (by omega) r hr
    · omega

variable [Crates] {e a : FrameEnvelope}

/-- The listing is exact unless a stray style starts a run of its own. -/
theorem listsExactly_iff (he : e.validate = .ok ()) (ha : a.validate = .ok ())
    (hemask : MaskFree e) (hamask : MaskFree a) (hsize : a.size = e.size) :
    ListsExactly e a ↔ ∀ (r : Nat) erow arow, e.rows[r]? = some erow → a.rows[r]? = some arow →
      StrayKept erow arow := by
  have hcount := (validate_iff.mp he).2.1
  have horder : ∀ (k : Nat) (r : RowRepr), a.rows[k]? = some r → r.row = k :=
    fun k r hr => ((validate_iff.mp ha).2.2.2.2 k r hr).1
  obtain ⟨x, hx⟩ : ∃ x : Nat → List StyleDelta,
    x = fun r => (e.rows[r]?.map (rowEntries a)).getD [] := ⟨_, rfl⟩
  obtain ⟨y, hy⟩ : ∃ y : Nat → List StyleDelta, y = fun r =>
    ((Stretch.all (framePair e a r) e.size.cols).map (Prod.mk r)).map runEntry := ⟨_, rfl⟩
  have hall : e.rows.flatMap (rowEntries a) = (range e.size.rows).flatMap x := by
    rw [hx, ← hcount, flatMap_range]
  have hruns : (styleRuns e a).map runEntry = (range e.size.rows).flatMap y := by
    rw [hy, styleRuns, map_flatMap]
  have hrow : ∀ r < e.size.rows, ∃ erow arow, e.rows[r]? = some erow ∧
      a.rows[r]? = some arow ∧ (x r).length ≤ 2 ^ 16 ∧ (StrayKept erow arow → x r = y r) ∧
        (¬StrayKept erow arow → (x r).length = (y r).length + 1) := by
    intro r hr
    obtain ⟨erow, herow, hnumber, heshown, hepast⟩ := row_spec he hemask hr
    obtain ⟨arow, harow, -, hashown, hapast⟩ := row_spec ha hamask (hsize.symm ▸ hr)
    rw [hsize] at hashown hapast
    have hxr : x r = (Stretch.all (pairOf (rowStyles erow) (rowStyles arow)) (2 ^ 16)).map
        (entryOf r) := by
      rw [hx]
      simp only [herow, Option.map_some, Option.getD_some, rowEntries, hnumber,
        actualRow_eq horder harow]
    have hcols := e.size.cols_lt
    obtain ⟨hkept, hstray⟩ := @entries_spec (pairOf (rowStyles erow) (rowStyles arow)) r
      e.size.cols (framePair e a r) (2 ^ 16 - 1) rfl (by omega)
      (fun c hc => by unfold pairOf framePair; rw [heshown c hc, hashown c hc])
      (fun c hge hlt => pairOf_none (by
        rw [FinMap.contains, FinMap.contains, hepast c hge (by omega), hapast c hge (by omega)]
        decide))
    refine ⟨erow, arow, herow, harow, ?_, fun h => ?_, fun h => ?_⟩
    · rw [hxr, length_map]
      exact Stretch.length_all_le _ _
    · rw [hxr, hy]
      exact hkept h
    · rw [hxr, hy, length_map, length_map, length_map]
      exact hstray h
  have hlength : ((range e.size.rows).flatMap x).length ≤ 2 ^ 32 - 1 := by
    rw [length_flatMap]
    refine (sum_le_card_nsmul _ (2 ^ 16) ?_).trans ?_
    · intro n hn
      obtain ⟨r, hr, rfl⟩ := mem_map.mp hn
      obtain ⟨-, -, -, -, hle, -⟩ := hrow r (mem_range.mp hr)
      exact hle
    · have hrows := e.size.rows_lt
      rw [length_map, length_range, smul_eq_mul]
      omega
  have hle : ∀ r < e.size.rows, (y r).length ≤ (x r).length := by
    intro r hr
    obtain ⟨erow, arow, -, -, -, hkept, hstray⟩ := hrow r hr
    by_cases h : StrayKept erow arow
    · rw [hkept h]
    · rw [hstray h]
      exact Nat.le_succ _
  unfold ListsExactly
  rw [styleDeltas_eq, hall, Nat.min_eq_left hlength, map_take, hruns,
    ← @length_map _ _ (styleRuns e a) runEntry, hruns]
  constructor
  · rintro ⟨htotal, -⟩ r erow arow herow harow
    have hr : r < e.size.rows := hcount ▸ (List.getElem?_eq_some_iff.mp herow).1
    obtain ⟨erow', arow', herow', harow', -, -, hstray⟩ := hrow r hr
    obtain rfl := Option.some.inj (herow.symm.trans herow')
    obtain rfl := Option.some.inj (harow.symm.trans harow')
    by_contra hnot
    have hmore := hstray hnot
    have hsame := (length_flatMap_range hle).2 htotal r hr
    omega
  · intro hall'
    have hsame : (range e.size.rows).flatMap x = (range e.size.rows).flatMap y := by
      refine flatMap_congr fun r hr => ?_
      obtain ⟨erow, arow, herow, harow, -, hkept, -⟩ := hrow r (mem_range.mp hr)
      exact hkept (hall' r erow arow herow harow)
    rw [hsame]
    exact ⟨rfl, rfl⟩

/-- A letter with an accent. -/
def accented : List Char := ['e', '\u0301']

/-- One row, as wide as rows get, that is one array of accented letters. -/
def accentedFrame (count : Nat) (style : CapStyle) : FrameEnvelope where
  schema := schemaVersion
  size := ⟨1, 2 ^ 16 - 1, Size.one_lt_max, by decide⟩
  altScreen := false
  defaults := .default
  cursor := ⟨0, 0, true, .block⟩
  paletteOverridden := false
  rows := [⟨0, [.cells 0 (.complex (replicate count accented)) style]⟩]

theorem validateEntries_accented (row col : Nat) (n i span : Nat) (simple : Bool) :
    validateEntries row col (replicate (n + 1) accented) i span simple =
      .ok (min (span + (n + 1)) (2 ^ 16 - 1), false) := by
  have hnarrow : NarrowEntry accented := ⟨rfl, fun h => absurd h (by decide)⟩
  induction n generalizing i span simple with
  | zero =>
    rw [replicate_one, validateEntries_narrow hnarrow startsGlyph_nil, validateEntries,
      decide_eq_false (by decide), Bool.and_false]
  | succ n ih =>
    have hstarts : StartsGlyph (replicate (n + 1) accented) := by
      rintro entry hentry
      rw [replicate_succ, head?_cons, Option.some.injEq] at hentry
      rw [← hentry]
      rfl
    rw [replicate_succ, validateEntries_narrow hnarrow hstarts, ih]
    congr 2
    omega

theorem validate_accentedFrame {count : Nat} (hcount : 2 ^ 16 - 1 ≤ count) (style : CapStyle) :
    (accentedFrame count style).validate = .ok () := by
  obtain ⟨n, rfl⟩ : ∃ n, count = n + 1 := ⟨count - 1, by omega⟩
  have hspan : validateCellsRun 0 0 (.complex (replicate (n + 1) accented)) =
      .ok (2 ^ 16 - 1) := by
    unfold validateCellsRun
    dsimp only
    rw [if_neg (by rw [replicate_succ]; exact Bool.false_ne_true)]
    refine Fallible.bind_eq_ok.mpr ⟨_, validateEntries_accented 0 0 n 0 0 true, ?_⟩
    dsimp only
    rw [if_neg Bool.false_ne_true, Nat.zero_add, Nat.min_eq_right hcount]
  refine validate_iff.mpr ⟨rfl, rfl, Nat.one_pos, Nat.zero_le _, fun k r hk => ?_⟩
  cases k with
  | succ k => cases hk
  | zero =>
    cases hk
    exact ⟨rfl, validateRuns_cons.mpr ⟨0, 2 ^ 16 - 1, .style style,
      validateRun_cells.mpr ⟨_, hspan, rfl⟩, le_rfl, nofun, by decide, le_rfl, rfl⟩⟩

omit [Crates] in
theorem maskFree_accentedFrame (count : Nat) (style : CapStyle) :
    MaskFree (accentedFrame count style) := by
  intro r hr run hrun col n
  rw [mem_singleton.mp hr] at hrun
  rw [mem_singleton.mp hrun]
  exact nofun

omit [Crates] in
/-- The style of an accented row, where it has one. -/
theorem styleOf_accentedFrame (count : Nat) (style : CapStyle) (c : Nat) :
    styleOf (rowStyles ⟨0, [.cells 0 (.complex (replicate count accented)) style]⟩) c =
      if c ∈ runColumns 0 count then style else .default := by
  have hget := get_insertRun ∅ 0 (.complex (replicate count accented)) style c
  rw [runWidth, length_replicate] at hget
  unfold styleOf rowStyles
  rw [foldl_cons, foldl_nil, hget]
  split
  · rfl
  · rfl

def boldStyle : CapStyle := { CapStyle.default with bold := true }

def italicStyle : CapStyle := { CapStyle.default with italic := true }

omit [Crates] in
/-- With as many entries as columns no style strays. -/
theorem edge_notMem : 2 ^ 16 - 1 ∉ runColumns 0 (2 ^ 16 - 1) :=
  fun h => absurd ((@mem_runColumns 0 (2 ^ 16 - 1) (2 ^ 16 - 1) (by decide)).2 h) (by decide)

/-- The runs are the longest stretches of changes, row by row and in order, and they are listed
exactly as long as no stray style starts a run of its own. -/
theorem styleDeltas_exact (he : e.validate = .ok ()) (ha : a.validate = .ok ())
    (hemask : MaskFree e) (hamask : MaskFree a) (hsize : a.size = e.size) :
    ((styleRuns e a).Pairwise fun p q => p.1 < q.1 ∨ p.1 = q.1 ∧ p.2.stop ≤ q.2.start) ∧
      (∀ r s, (r, s) ∈ styleRuns e a ↔
        r < e.size.rows ∧ Stretch.Longest (framePair e a r) e.size.cols s) ∧
      (ListsExactly e a ↔ ∀ (r : Nat) erow arow, e.rows[r]? = some erow → a.rows[r]? = some arow →
        StrayKept erow arow) := by
  refine ⟨?_, fun r s => ?_, listsExactly_iff he ha hemask hamask hsize⟩
  · refine pairwise_flatMap.mpr ⟨fun r _ => ?_, pairwise_lt_range.imp ?_⟩
    · exact pairwise_map.mpr
        ((Stretch.all_ordered _ _).1.imp fun hle => .inr ⟨rfl, hle⟩)
    · intro r r' hlt p hp q hq
      obtain ⟨s, -, rfl⟩ := mem_map.mp hp
      obtain ⟨s', -, rfl⟩ := mem_map.mp hq
      exact .inl hlt
  · unfold styleRuns
    rw [mem_flatMap]
    constructor
    · rintro ⟨r', hr', hmem⟩
      obtain ⟨s', hs', heq⟩ := mem_map.mp hmem
      cases heq
      exact ⟨mem_range.mp hr', Stretch.mem_all_iff.mp hs'⟩
    · rintro ⟨hr, hlong⟩
      exact ⟨r, mem_range.mpr hr, mem_map_of_mem (Stretch.mem_all_iff.mpr hlong)⟩

omit [Crates] in
theorem styleDeltas_exact_accented :
    ListsExactly (accentedFrame (2 ^ 16 - 1) boldStyle)
      (accentedFrame (2 ^ 16 - 1) italicStyle) := by
  have he := @validate_accentedFrame plainCrates (2 ^ 16 - 1) le_rfl boldStyle
  have ha := @validate_accentedFrame plainCrates (2 ^ 16 - 1) le_rfl italicStyle
  refine (@styleDeltas_exact plainCrates _ _ he ha (maskFree_accentedFrame _ _)
    (maskFree_accentedFrame _ _) rfl).2.2.mpr fun r erow arow herow harow => ?_
  cases r with
  | succ r => cases herow
  | zero =>
    cases herow
    cases harow
    refine .inl (if_pos ?_)
    rw [styleOf_accentedFrame, styleOf_accentedFrame, if_neg edge_notMem, if_neg edge_notMem]

omit [Crates] in
/-- Two frames of one row that is bold here and italic there: there is one run of changes, and the
listing has another one. -/
theorem styleDeltas_stray : ∃ (_ : Crates) (e a : FrameEnvelope),
    e.validate = .ok () ∧ a.validate = .ok () ∧ MaskFree e ∧ MaskFree a ∧ a.size = e.size ∧
      ¬ListsExactly e a := by
  have he := @validate_accentedFrame plainCrates (2 ^ 16) (by decide) boldStyle
  have ha := @validate_accentedFrame plainCrates (2 ^ 16 - 1) le_rfl italicStyle
  have hemask := maskFree_accentedFrame (2 ^ 16) boldStyle
  have hamask := maskFree_accentedFrame (2 ^ 16 - 1) italicStyle
  refine ⟨plainCrates, _, _, he, ha, hemask, hamask, rfl, ?_⟩
  rw [@listsExactly_iff plainCrates _ _ he ha hemask hamask rfl]
  intro hall
  have hstray : 2 ^ 16 - 1 ∈ runColumns 0 (2 ^ 16) :=
    mem_map.mpr ⟨2 ^ 16 - 1, mem_range.mpr (by decide), by decide⟩
  have hin : ∀ width, 2 ^ 16 - 1 ≤ width → 2 ^ 16 - 1 - 1 ∈ runColumns 0 width :=
    fun width hwidth => (mem_runColumns (by omega)).1 (Nat.zero_le _) (by omega)
  have hkept := hall 0 _ _ rfl rfl
  unfold StrayKept pairOf at hkept
  rw [styleOf_accentedFrame, styleOf_accentedFrame, styleOf_accentedFrame, styleOf_accentedFrame,
    if_pos hstray, if_neg edge_notMem, if_pos (hin _ (by decide)),
    if_pos (hin _ le_rfl)] at hkept
  exact absurd hkept (by decide)

end Shux.Gate
