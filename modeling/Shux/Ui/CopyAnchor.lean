/-
# The anchor of a selection

Where a selection was begun is stored as a place in the view. It names the same place of the
history whenever the view is where it was then; every motion of the view moves it silently.
-/

import Shux.Ui.CopyMode

namespace Shux.Ui

open Vt List CopyModeState

/-- The line and the column of a place in the view. -/
def absolute (vt : Presented) (paneRows : Nat) (state : CopyModeState) (place : Nat × Nat) :
    Nat × Nat :=
  (viewStart (effectiveTotalLines vt paneRows) paneRows state.scrollOffset + place.2, place.1)

/-- What of a line lies from one column to another. -/
def lineText (vt : Presented) (maxCol line lo hi : Nat) : Str :=
  trimSpaces (((vt.row line).map fun row => rowPart row maxCol lo hi).getD [])

/-- The lines from one place to another that does not come before it. -/
def textFrom (vt : Presented) (maxCol : Nat) (start stop : Nat × Nat) : Str :=
  List.intercalate ['\n'] ((List.range' start.1 (stop.1 + 1 - start.1)).map fun line =>
    lineText vt maxCol line (if line = start.1 then start.2 else 0)
      (if line = stop.1 then stop.2 else maxCol - 1))

/-- The text between two places, given by line and column, in reading order. -/
def textBetween (vt : Presented) (maxCol : Nat) (a b : Nat × Nat) : Str :=
  if a.1 < b.1 ∨ (a.1 = b.1 ∧ a.2 ≤ b.2) then textFrom vt maxCol a b else textFrom vt maxCol b a

/-- Text to which something on a new line is appended. -/
def Fresh (text : Str) : Prop := text.rdropWhile (· = ' ') = text

theorem fresh_newline (text : Str) : Fresh (text ++ ['\n']) := by
  unfold Fresh
  rw [rdropWhile_concat, if_neg (by decide)]

theorem trimSpaces_append {pre : Str} (h : Fresh pre) (text : Str) :
    trimSpaces (pre ++ text) = pre ++ trimSpaces text := by
  unfold Fresh List.rdropWhile at h
  unfold trimSpaces List.rdropWhile
  have hpre : pre.reverse.dropWhile (fun c => decide (c = ' ')) = pre.reverse := by
    rw [← reverse_reverse (pre.reverse.dropWhile _), h]
  rw [reverse_append, dropWhile_append]
  split_ifs with hblank
  · rw [List.isEmpty_iff.mp hblank, reverse_nil, append_nil, hpre, reverse_reverse]
  · rw [reverse_append, reverse_reverse]

/-- Trimming line by line while the text grows, and each line for itself. -/
theorem foldl_lines (part : Nat → Str) (start n : Nat) {pre : Str} (h : Fresh pre) :
    trimSpaces ((List.range' start (n + 1)).foldl (fun out row =>
      if row ≠ start + n then trimSpaces (out ++ part row) ++ ['\n'] else out ++ part row) pre) =
    pre ++ List.intercalate ['\n'] ((List.range' start (n + 1)).map fun row =>
      trimSpaces (part row)) := by
  induction n generalizing start pre with
  | zero =>
    show trimSpaces (if start ≠ start + 0 then _ else _) = _
    rw [if_neg (fun hne => hne rfl), trimSpaces_append h]
    show _ = pre ++ (trimSpaces (part start) ++ [])
    rw [append_nil]
  | succ n ih =>
    have hlast : start + (n + 1) = start + 1 + n := by omega
    rw [range'_succ, foldl_cons, map_cons, if_pos (by omega),
      trimSpaces_append h, hlast, ih (start + 1) (fresh_newline _)]
    rw [range'_succ, map_cons, append_assoc, append_assoc]
    rfl

theorem shownOffset_le (totalRows visibleRows cursorRow : Nat) :
    shownOffset totalRows visibleRows cursorRow ≤ totalRows - visibleRows := by
  unfold shownOffset
  split_ifs
  · exact Nat.zero_le _
  · exact Nat.zero_le _
  · exact Nat.min_le_right _ _

theorem effectiveTotalLines_le (vt : Presented) (paneRows : Nat) :
    effectiveTotalLines vt paneRows ≤ vt.totalLines := by
  have hle : vt.gridRows ≤ vt.totalLines := vt.rows_le
  have hoffset := shownOffset_le vt.gridRows paneRows vt.cursorRow
  unfold effectiveTotalLines
  split_ifs with hfits
  · exact le_rfl
  · omega

/-- Every row of the view that the grid has shows a line. -/
theorem rowForView_isSome (vt : Presented) {paneRows row : Nat} (hpane : row < paneRows)
    (hgrid : row < vt.gridRows) (scrollOffset : Nat) :
    ∃ line, rowForView vt paneRows scrollOffset row = some line := by
  have hle : vt.gridRows ≤ vt.totalLines := vt.rows_le
  have heff := effectiveTotalLines_le vt paneRows
  have hshown : row < effectiveTotalLines vt paneRows := by
    unfold effectiveTotalLines
    split_ifs <;> omega
  have hlt : viewStart (effectiveTotalLines vt paneRows) paneRows scrollOffset + row <
      vt.lines.length := by
    unfold viewStart
    show _ < vt.totalLines
    omega
  exact ⟨_, List.getElem?_eq_getElem hlt⟩

/-- The rows from one place of the view to another, as they are copied. -/
def copyRows (vt : Presented) (paneRows scrollOffset maxCol maxRow : Nat) (first last : Nat)
    (bounds : Nat → Nat × Nat) : Str :=
  trimSpaces (((List.range' first (last + 1 - first)).takeWhile (· < maxRow)).foldl
    (fun out row =>
      match rowForView vt paneRows scrollOffset row with
      | none => out
      | some line =>
        let out := out ++ rowPart line maxCol (bounds row).1 (bounds row).2
        if row ≠ last then trimSpaces out ++ ['\n'] else out) [])

theorem copyRows_eq (vt : Presented) {paneRows scrollOffset maxCol maxRow : Nat}
    (hmax : maxRow ≤ min paneRows vt.gridRows) {start stop : Nat × Nat} (hle : start.2 ≤ stop.2)
    (hstop : stop.2 < maxRow) {bounds : Nat → Nat × Nat}
    (hbounds : ∀ row, start.2 ≤ row → row ≤ stop.2 → bounds row =
      (if row = start.2 then start.1 else 0, if row = stop.2 then stop.1 else maxCol - 1)) :
    copyRows vt paneRows scrollOffset maxCol maxRow start.2 stop.2 bounds =
      textFrom vt maxCol
        (viewStart (effectiveTotalLines vt paneRows) paneRows scrollOffset + start.2, start.1)
        (viewStart (effectiveTotalLines vt paneRows) paneRows scrollOffset + stop.2, stop.1) := by
  obtain ⟨base, hbase⟩ : ∃ base,
    base = viewStart (effectiveTotalLines vt paneRows) paneRows scrollOffset := ⟨_, rfl⟩
  obtain ⟨n, hn⟩ : ∃ n, stop.2 = start.2 + n := ⟨stop.2 - start.2, by omega⟩
  have hcount : stop.2 + 1 - start.2 = n + 1 := by omega
  have hrange : ∀ row ∈ List.range' start.2 (n + 1), start.2 ≤ row ∧ row ≤ stop.2 := by
    intro row hrow
    obtain ⟨hfirst, hlast⟩ := mem_range'_1.mp hrow
    exact ⟨hfirst, by omega⟩
  have hall : (List.range' start.2 (n + 1)).takeWhile (fun row => decide (row < maxRow)) =
      List.range' start.2 (n + 1) := by
    refine takeWhile_eq_self_iff.mpr fun row hrow => ?_
    exact decide_eq_true ((hrange row hrow).2.trans_lt hstop)
  -- every row shows a line, so no row is skipped
  have hfold := foldl_lines (fun row => ((vt.row (base + row)).map fun line =>
    rowPart line maxCol (bounds row).1 (bounds row).2).getD []) start.2 n (rfl : Fresh [])
  unfold copyRows
  rw [nil_append] at hfold
  rw [hcount, hall]
  refine (congrArg trimSpaces (foldl_ext _ _ [] fun out row hrow => ?_)).trans
    (hfold.trans ?_)
  · obtain ⟨hfirst, hlast⟩ := hrange row hrow
    have hpane : row < paneRows := by omega
    have hgrid : row < vt.gridRows := by omega
    obtain ⟨line, hline⟩ := rowForView_isSome vt hpane hgrid scrollOffset
    have hrow' : vt.row (base + row) = some line := by
      rw [hbase]
      exact hline
    rw [hline, hrow', ← hn]
    rfl
  · unfold textFrom
    dsimp only
    rw [← hbase]
    have hlines : base + stop.2 + 1 - (base + start.2) = n + 1 := by omega
    rw [hlines, ← map_add_range', map_map]
    refine congrArg _ (map_congr_left fun row hrow => ?_)
    obtain ⟨hfirst, hlast⟩ := hrange row hrow
    rw [hbounds row hfirst hlast]
    show lineText vt maxCol (base + row) (if row = start.2 then start.1 else 0)
      (if row = stop.2 then stop.1 else maxCol - 1) = lineText vt maxCol (base + row)
        (if base + row = base + start.2 then start.1 else 0)
        (if base + row = base + stop.2 then stop.1 else maxCol - 1)
    simp only [Nat.add_left_cancel_iff]

/-- The columns of a selection within one line, in order. -/
def sortedColumns (a b : Nat × Nat) : Nat × Nat :=
  if b.2 = a.2 then if b.1 ≤ a.1 then (b.1, a.1) else (a.1, b.1) else (0, 0)

/-- From where to where a row of the view is copied. -/
def copyBounds (maxCol : Nat) (columns : Nat × Nat) (start stop : Nat × Nat) (row : Nat) :
    Nat × Nat :=
  if start.2 = stop.2 then columns
  else (if row = start.2 then start.1 else 0, if row = stop.2 then stop.1 else maxCol - 1)

theorem extractSelection_rows (vt : Presented) (state : CopyModeState) (paneCols paneRows : Nat)
    {anchor start stop : Nat × Nat} (hanchor : state.anchor.getD state.cursor = anchor)
    (hends : orderEndpoints anchor state.cursor = (start, stop)) :
    extractSelection vt state paneCols paneRows =
      copyRows vt paneRows state.scrollOffset (min paneCols (vt.gridCols % 65536))
        (min paneRows (vt.gridRows % 65536)) start.2 stop.2
        (copyBounds (min paneCols (vt.gridCols % 65536)) (sortedColumns anchor state.cursor) start
          stop) := by
  subst hanchor
  have hstart : (orderEndpoints (state.anchor.getD state.cursor) state.cursor).1 = start := by
    rw [hends]
  have hstop : (orderEndpoints (state.anchor.getD state.cursor) state.cursor).2 = stop := by
    rw [hends]
  subst hstart hstop
  rfl

/-- A pane without rows has nothing to copy. -/
theorem extractSelection_no_rows (vt : Presented) (state : CopyModeState) (paneCols : Nat) :
    extractSelection vt state paneCols 0 = [] := by
  rw [extractSelection_rows vt state paneCols 0 rfl rfl, Nat.zero_min]
  unfold copyRows
  have hnone : ∀ rows : List Nat, rows.takeWhile (fun row => decide (row < 0)) = [] := by
    intro rows
    cases rows with
    | nil => rfl
    | cons row rows => exact takeWhile_cons_of_neg (by simp)
  rw [hnone]
  rfl

/-- Sorted columns are those of the ends in reading order. -/
theorem copyBounds_eq {maxCol : Nat} {columns start stop : Nat × Nat}
    (hcolumns : start.2 = stop.2 → columns = (start.1, stop.1)) (row : Nat)
    (hfirst : start.2 ≤ row) (hlast : row ≤ stop.2) :
    copyBounds maxCol columns start stop row =
      (if row = start.2 then start.1 else 0, if row = stop.2 then stop.1 else maxCol - 1) := by
  unfold copyBounds
  by_cases hone : start.2 = stop.2
  · rw [if_pos hone, hcolumns hone, if_pos (by omega), if_pos (by omega)]
  · rw [if_neg hone]

/-- What is copied lies between the two ends of the selection as the view shows them. -/
theorem extractSelection_eq (vt : Presented) (state : CopyModeState) {paneCols paneRows : Nat}
    (hcursor : state.cursor.2 < min paneRows (vt.gridRows % 65536))
    (hanchor : (state.anchor.getD state.cursor).2 < min paneRows (vt.gridRows % 65536)) :
    extractSelection vt state paneCols paneRows =
      textBetween vt (min paneCols (vt.gridCols % 65536))
        (absolute vt paneRows state (state.anchor.getD state.cursor))
        (absolute vt paneRows state state.cursor) := by
  obtain ⟨anchor, heq⟩ : ∃ anchor, state.anchor.getD state.cursor = anchor := ⟨_, rfl⟩
  have hmax : min paneRows (vt.gridRows % 65536) ≤ min paneRows vt.gridRows := by
    have hle := Nat.mod_le vt.gridRows 65536
    omega
  rw [heq] at hanchor ⊢
  unfold textBetween absolute
  dsimp only
  by_cases horder : anchor.2 < state.cursor.2 ∨ (anchor.2 = state.cursor.2 ∧
      anchor.1 ≤ state.cursor.1)
  · have hends : orderEndpoints anchor state.cursor = (anchor, state.cursor) := if_pos horder
    rw [extractSelection_rows vt state paneCols paneRows heq hends, if_pos (by omega)]
    refine copyRows_eq vt hmax (by omega) hcursor (copyBounds_eq fun hone => ?_)
    unfold sortedColumns
    rw [if_pos hone.symm]
    split_ifs with hcols
    · refine Prod.ext ?_ ?_
      · show state.cursor.1 = anchor.1
        omega
      · show anchor.1 = state.cursor.1
        omega
    · rfl
  · have hends : orderEndpoints anchor state.cursor = (state.cursor, anchor) := if_neg horder
    rw [extractSelection_rows vt state paneCols paneRows heq hends, if_neg (by omega)]
    refine copyRows_eq vt hmax (by omega) hanchor (copyBounds_eq fun hone => ?_)
    unfold sortedColumns
    rw [if_pos hone, if_pos (by omega)]

/-- Copy mode of a client and whether the pointer drags a selection in it. -/
structure CopySession where
  mode : Option CopyModeState
  dragging : Bool

/-- What may happen to copy mode. Places of the pointer are columns and rows of the screen. -/
inductive CopyAction where
  | enter
  /-- The wheel opens copy mode, scrolled back. -/
  | wheelOpen
  | key (bytes : Bytes)
  /-- The wheel turns over this pane or over another one. -/
  | wheel (up elsewhere : Bool)
  /-- The left button. -/
  | press (col row : Nat)
  | drag (col row : Nat)
  | release (col row : Nat)

def pointInRect (rect : Rect) (col row : Nat) : Bool :=
  decide (rect.x ≤ col ∧ col < u16SaturatingAdd rect.x rect.width ∧
    rect.y ≤ row ∧ row < u16SaturatingAdd rect.y rect.height)

def paneLocalPointClamped (rect : Rect) (col row : Nat) : Nat × Nat :=
  (min (col - rect.x) (rect.width - 1), min (row - rect.y) (rect.height - 1))

/-- Nothing is sent when nothing is copied. -/
def yielded (text : Str) : Option Str := if text.isEmpty then none else some text

namespace CopySession

variable (vt : Presented) (rect : Rect)

def pressAt (state : CopyModeState) (pos : Nat × Nat) : CopyModeState :=
  { state with cursor := pos, anchor := some pos }

/-- One step, and the text it puts on the clipboard. -/
def step (s : CopySession) : CopyAction → CopySession × Option Str
  | .enter => ({ s with mode := some .new }, none)
  | .wheelOpen =>
    if s.mode.isSome ∨ maxScrollOffset vt.totalLines rect.height = 0 then (s, none)
    else
      let state := { new with wheelInitiated := true }
      ({ s with mode := some (state.scrollUp 3 vt.totalLines rect.height).1 }, none)
  | .key bytes =>
    match s.mode with
    | none => (s, none)
    | some state =>
      let (state, key) := handleKeyWithVt bytes state rect.width rect.height
        (effectiveTotalLines vt rect.height) (some vt)
      match key with
      | .updated | .ignored => ({ s with mode := some state }, none)
      | .exit => ({ s with mode := none }, none)
      | .yank =>
        ({ s with mode := none }, yielded (extractSelection vt state rect.width rect.height))
  | .wheel up elsewhere =>
    match s.mode with
    | none => ({ s with dragging := false }, none)
    | some state =>
      if state.wheelInitiated ∧ elsewhere then (⟨none, false⟩, none)
      else if up then
        (⟨some (state.scrollUp 3 vt.totalLines rect.height).1, false⟩, none)
      else
        let state := (state.scrollDown 3).1
        (⟨if state.wheelInitiated ∧ state.scrollOffset = 0 then none else some state, false⟩, none)
  | .press col row =>
    match s.mode with
    | none => ({ s with dragging := false }, none)
    | some state =>
      if pointInRect rect col row then
        (⟨some (pressAt state (paneLocalPointClamped rect col row)), true⟩, none)
      else ({ s with dragging := false }, none)
  | .drag col row =>
    match s.mode with
    | none => ({ s with dragging := false }, none)
    | some state =>
      if s.dragging then
        ({ s with mode := some { state with cursor := paneLocalPointClamped rect col row } }, none)
      else (s, none)
  | .release col row =>
    match s.mode with
    | none => ({ s with dragging := false }, none)
    | some state =>
      if s.dragging then
        let state := { state with cursor := paneLocalPointClamped rect col row }
        if state.anchor.any fun anchor => decide (anchor ≠ state.cursor) then
          (⟨none, false⟩, yielded (extractSelection vt state rect.width rect.height))
        else (⟨some { state with anchor := none }, false⟩, none)
      else ({ s with dragging := false }, none)

end CopySession

/-- Copy mode, the line and the column at which its selection was begun, and the first line of the
view at that time. -/
structure Tracked where
  session : CopySession
  origin : Option (Nat × Nat)
  view : Option Nat

/-- Whether a step begins a selection if there is one after it. -/
def begins (rect : Rect) (s : CopySession) (action : CopyAction) : Bool :=
  (match action with
    | .press col row => pointInRect rect col row
    | _ => false) || s.mode.any fun state => state.anchor.isNone

namespace Tracked

variable (vt : Presented) (rect : Rect)

def start : Tracked := ⟨⟨none, false⟩, none, none⟩

def step (t : Tracked) (action : CopyAction) : Tracked :=
  let session := (t.session.step vt rect action).1
  let begun := begins rect t.session action
  ⟨session,
    session.mode.bind fun state => state.anchor.bind fun anchor =>
      if begun then some (absolute vt rect.height state anchor) else t.origin,
    session.mode.bind fun state =>
      if begun then
        some (viewStart (effectiveTotalLines vt rect.height) rect.height state.scrollOffset)
      else t.view⟩

def run (actions : List CopyAction) : Tracked := actions.foldl (step vt rect) start

end Tracked

/-- Where the cursor is when a step copies. -/
def cursorAt (rect : Rect) (state : CopyModeState) : CopyAction → Nat × Nat
  | .release col row => paneLocalPointClamped rect col row
  | _ => state.cursor

/-- A step that may copy: the key for it, and letting go of the button. -/
def CopyAction.Copies (rect : Rect) (state : CopyModeState) : CopyAction → Prop
  | .key bytes => state.search = none ∧ motionOf rect.height bytes = .yank
  | .release _ _ => True
  | _ => False

/-- Where a step copies, the grid has the rows of both ends, and the view is where it was when the
selection was begun: it was left alone, or brought back. -/
def CopyAction.InView (vt : Presented) (rect : Rect) (view : Option Nat) (state : CopyModeState)
    (action : CopyAction) : Prop :=
  action.Copies rect state → (cursorAt rect state action).2 < vt.gridRows % 65536 ∧
    ∀ anchor, state.anchor = some anchor → anchor.2 < vt.gridRows % 65536 ∧
      view = some (viewStart (effectiveTotalLines vt rect.height) rect.height state.scrollOffset)

/-! ## What a step leaves of the selection -/

/-- All of it, nothing, or a new one at the cursor. -/
structure Keeps (paneRows : Nat) (state state' : CopyModeState) : Prop where
  row : state'.cursor.2 ≤ paneRows - 1
  anchor : state'.anchor = none ∨ (state.anchor = none ∧ state'.anchor = some state.cursor) ∨
    state'.anchor = state.anchor

section

variable {vt : Presented} {paneCols paneRows : Nat} {state : CopyModeState}

theorem viewStart_clamp (vt : Presented) (paneRows : Nat) (state : CopyModeState) :
    viewStart (effectiveTotalLines vt paneRows) paneRows
      (state.clampScrollOffset (effectiveTotalLines vt paneRows) paneRows).scrollOffset =
    viewStart (effectiveTotalLines vt paneRows) paneRows state.scrollOffset := by
  unfold viewStart clampScrollOffset
  dsimp only
  omega

theorem viewStart_focus (vt : Presented) (paneRows absRow : Nat) :
    viewStart (effectiveTotalLines vt paneRows) paneRows
      (effectiveTotalLines vt paneRows - paneRows -
        focusStart (effectiveTotalLines vt paneRows) paneRows absRow) =
      focusStart (effectiveTotalLines vt paneRows) paneRows absRow := by
  rw [viewStart, maxScrollOffset, min_eq_left (Nat.sub_le _ _)]
  exact Nat.sub_sub_self (min_le_right _ _)

/-- A step that leaves the selection alone. -/
theorem Keeps.same {state' : CopyModeState} (hrow : state'.cursor.2 ≤ paneRows - 1)
    (hanchor : state'.anchor = state.anchor) : Keeps paneRows state state' :=
  ⟨hrow, .inr (.inr hanchor)⟩

theorem keeps_findAndFocus (vt : Presented) (paneCols : Nat)
    (hrow : state.cursor.2 ≤ paneRows - 1) (query : Str) (direction : SearchDirection) :
    Keeps paneRows state (findAndFocus state paneCols paneRows (some vt) query direction).1 := by
  unfold findAndFocus
  split_ifs
  · exact .same hrow rfl
  dsimp only
  split_ifs
  · exact .same hrow rfl
  cases searchFrom vt paneCols paneRows state query direction with
  | none => exact .same hrow rfl
  | some found => exact .same (Nat.min_le_right _ _) rfl

theorem keeps_perform (vt : Presented) (paneCols : Nat) (hrow : state.cursor.2 ≤ paneRows - 1)
    (motion : Motion) : Keeps paneRows state
      (state.perform paneCols paneRows (effectiveTotalLines vt paneRows) (some vt) motion).1 := by
  cases motion with
  | up => exact .same ((Nat.sub_le _ _).trans hrow) rfl
  | down => exact .same (Nat.min_le_right _ _) rfl
  | again reverse =>
    show Keeps paneRows state (repeatSearch state paneCols paneRows (some vt) reverse).1
    unfold repeatSearch
    cases state.lastSearch with
    | none => exact .same hrow rfl
    | some last => exact keeps_findAndFocus vt paneCols hrow _ _
  | g =>
    show Keeps paneRows state (if state.pendingG then _ else _ : CopyModeState × CopyKey).1
    split_ifs
    · exact .same (Nat.zero_le _) rfl
    · exact .same hrow rfl
  | bottom => exact .same le_rfl rfl
  | toggle =>
    refine ⟨hrow, ?_⟩
    show (if state.anchor.isSome then none else some state.cursor) = none ∨ (_ ∧
      (if state.anchor.isSome then none else some state.cursor) = some state.cursor) ∨ _
    split_ifs with hsome
    · exact .inl rfl
    · exact .inr (.inl ⟨Option.not_isSome_iff_eq_none.mp hsome, rfl⟩)
  | right | left | scrollUp lines | scrollDown lines | prompt direction | yank | exit | other =>
    exact .same hrow rfl

theorem keeps_handleSearchKey (vt : Presented) (paneCols : Nat)
    (hrow : state.cursor.2 ≤ paneRows - 1) (bytes : Bytes) {search : SearchState}
    (hsearch : state.search = some search) :
    Keeps paneRows state (handleSearchKey bytes state paneCols paneRows (some vt)).1 ∧
      (handleSearchKey bytes state paneCols paneRows (some vt)).2 ≠ .yank := by
  have hupdated : CopyKey.updated ≠ .yank := by decide
  have hignored : CopyKey.ignored ≠ .yank := by decide
  unfold handleSearchKey
  rw [hsearch]
  cases bytes with
  | nil => exact ⟨.same hrow rfl, hignored⟩
  | cons first rest =>
    dsimp only
    split_ifs
    · exact ⟨.same hrow rfl, hignored⟩
    · have hfocus := @keeps_findAndFocus paneRows { state with search := none } vt paneCols hrow
        search.query search.direction
      refine ⟨⟨hfocus.row, hfocus.anchor⟩, ?_⟩
      show (if _ then CopyKey.updated else CopyKey.ignored) ≠ CopyKey.yank
      split_ifs <;> decide
    · exact ⟨.same hrow rfl, hupdated⟩
    · exact ⟨.same hrow rfl, hupdated⟩
    · cases fromUtf8 (first :: rest) with
      | some text => exact ⟨.same hrow rfl, hupdated⟩
      | none => exact ⟨.same hrow rfl, hignored⟩
    · exact ⟨.same hrow rfl, hignored⟩

/-- Only the key for it copies. -/
theorem perform_yank {motion : Motion} (h : (state.perform paneCols paneRows
    (effectiveTotalLines vt paneRows) (some vt) motion).2 = .yank) : motion = .yank := by
  have hneither : ∀ b : Bool, (if b then CopyKey.updated else CopyKey.ignored) ≠ .yank := by decide
  cases motion with
  | yank => rfl
  | up | down | right | left | scrollUp lines | scrollDown lines | again reverse =>
    exact absurd h (hneither _)
  | prompt direction => cases h
  | g =>
    unfold perform at h
    dsimp only at h
    split_ifs at h
  | bottom | toggle | exit | other => cases h

/-- What a key does to the selection, and that copying changes neither end of it. -/
theorem keeps_handleKey (vt : Presented) {rect : Rect} (hrow : state.cursor.2 ≤ rect.height - 1)
    (bytes : Bytes) :
    Keeps rect.height state
      (handleKeyWithVt bytes state rect.width rect.height (effectiveTotalLines vt rect.height)
        (some vt)).1 ∧
    ((handleKeyWithVt bytes state rect.width rect.height (effectiveTotalLines vt rect.height)
        (some vt)).2 = .yank →
      (handleKeyWithVt bytes state rect.width rect.height (effectiveTotalLines vt rect.height)
        (some vt)).1 = { state.clampScrollOffset (effectiveTotalLines vt rect.height) rect.height
          with pendingG := false } ∧ CopyAction.Copies rect state (.key bytes)) := by
  unfold handleKeyWithVt
  split_ifs with hempty hsize hsome
  · exact ⟨.same hrow rfl, fun h => by cases h⟩
  · exact ⟨.same hrow rfl, fun h => by cases h⟩
  · obtain ⟨search, hsearch⟩ := Option.isSome_iff_exists.mp hsome
    obtain ⟨hkeeps, hnot⟩ := keeps_handleSearchKey vt rect.width hrow bytes hsearch
    exact ⟨hkeeps, fun h => absurd h hnot⟩
  · have hnone : state.search = none := Option.not_isSome_iff_eq_none.mp hsome
    have hperform := @keeps_perform rect.height
      (state.clampScrollOffset (effectiveTotalLines vt rect.height) rect.height) vt rect.width hrow
      (motionOf rect.height bytes)
    refine ⟨⟨hperform.row, hperform.anchor⟩, fun h => ?_⟩
    have hyank := perform_yank h
    rw [hyank]
    exact ⟨rfl, hnone, hyank⟩

end

theorem clamped_row (rect : Rect) (col row : Nat) :
    (paneLocalPointClamped rect col row).2 ≤ rect.height - 1 := Nat.min_le_right _ _

namespace CopySession

variable {vt : Presented} {rect : Rect} {s : CopySession} {state next : CopyModeState}
  {action : CopyAction}

/-- Copy mode opens without a selection. -/
theorem step_opens (hmode : s.mode = none) (hnext : (s.step vt rect action).1.mode = some next) :
    next.anchor = none ∧ next.cursor.2 = 0 := by
  cases action with
  | enter =>
    cases hnext
    exact ⟨rfl, rfl⟩
  | wheelOpen =>
    unfold step at hnext
    dsimp only at hnext
    split_ifs at hnext
    · rw [hmode] at hnext
      cases hnext
    · cases hnext
      exact ⟨rfl, rfl⟩
  | key bytes | wheel up elsewhere | press col row | drag col row | release col row =>
    simp [step, hmode] at hnext

/-- The button begins a selection where it is pressed. -/
theorem step_press {col row : Nat} (hmode : s.mode = some state)
    (hinside : pointInRect rect col row = true)
    (hnext : (s.step vt rect (.press col row)).1.mode = some next) :
    next = pressAt state (paneLocalPointClamped rect col row) := by
  unfold step at hnext
  rw [hmode] at hnext
  dsimp only at hnext
  rw [if_pos hinside] at hnext
  exact (Option.some.inj hnext).symm

/-- What any other step leaves of the selection. -/
theorem step_keeps (hmode : s.mode = some state) (hrow : state.cursor.2 ≤ rect.height - 1)
    (hpress : ∀ col row, action = .press col row → pointInRect rect col row = false)
    (hnext : (s.step vt rect action).1.mode = some next) : Keeps rect.height state next := by
  unfold step at hnext
  cases action with
  | enter =>
    cases hnext
    exact ⟨Nat.zero_le _, .inl rfl⟩
  | wheelOpen =>
    dsimp only at hnext
    rw [if_pos (.inl (by rw [hmode]; rfl)), hmode] at hnext
    cases hnext
    exact .same hrow rfl
  | key bytes =>
    have hkeeps := (keeps_handleKey vt hrow bytes).1
    rw [hmode] at hnext
    dsimp only at hnext
    cases hkey : handleKeyWithVt bytes state rect.width rect.height
        (effectiveTotalLines vt rect.height) (some vt) with
    | mk after key =>
      rw [hkey] at hnext hkeeps
      cases key with
      | updated | ignored =>
        cases hnext
        exact hkeeps
      | yank | exit => cases hnext
  | wheel up elsewhere =>
    rw [hmode] at hnext
    dsimp only at hnext
    split_ifs at hnext
    · cases hnext
      exact .same hrow rfl
    · cases hnext
      exact .same hrow rfl
  | press col row =>
    rw [hmode] at hnext
    dsimp only at hnext
    rw [if_neg (Bool.eq_false_iff.mp (hpress col row rfl))] at hnext
    cases hnext
    exact .same hrow rfl
  | drag col row =>
    rw [hmode] at hnext
    dsimp only at hnext
    split_ifs at hnext
    · cases hnext
      exact .same (clamped_row rect col row) rfl
    · cases hmode.symm.trans hnext
      exact .same hrow rfl
  | release col row =>
    rw [hmode] at hnext
    dsimp only at hnext
    split_ifs at hnext
    · cases hnext
      exact ⟨clamped_row rect col row, .inl rfl⟩
    · cases hnext
      exact .same hrow rfl

/-- What a step copies: the selection with the cursor where the step has it. -/
theorem step_copies {text : Str}
    (hrow : ∀ state, s.mode = some state → state.cursor.2 ≤ rect.height - 1)
    (htext : (s.step vt rect action).2 = some text) :
    ∃ state next, s.mode = some state ∧ action.Copies rect state ∧
      next.cursor = cursorAt rect state action ∧ next.anchor = state.anchor ∧
      viewStart (effectiveTotalLines vt rect.height) rect.height next.scrollOffset =
        viewStart (effectiveTotalLines vt rect.height) rect.height state.scrollOffset ∧
      yielded (extractSelection vt next rect.width rect.height) = some text := by
  unfold step at htext
  cases action with
  | enter => cases htext
  | wheelOpen =>
    dsimp only at htext
    split_ifs at htext
  | key bytes =>
    cases hmode : s.mode with
    | none =>
      rw [hmode] at htext
      cases htext
    | some state =>
      have hyank := (keeps_handleKey vt (hrow state hmode) bytes).2
      rw [hmode] at htext
      dsimp only at htext
      cases hkey : handleKeyWithVt bytes state rect.width rect.height
          (effectiveTotalLines vt rect.height) (some vt) with
      | mk next key =>
        rw [hkey] at htext hyank
        cases key with
        | updated | ignored | exit => cases htext
        | yank =>
          obtain ⟨hnext, hcopies⟩ := hyank rfl
          change next = _ at hnext
          refine ⟨state, next, rfl, hcopies, ?_, ?_, ?_, htext⟩
          · rw [hnext]
            rfl
          · rw [hnext]
            rfl
          · rw [hnext]
            exact viewStart_clamp vt rect.height state
  | wheel up elsewhere | press col row | drag col row =>
    cases hmode : s.mode with
    | none =>
      rw [hmode] at htext
      cases htext
    | some state =>
      rw [hmode] at htext
      dsimp only at htext
      split_ifs at htext
  | release col row =>
    cases hmode : s.mode with
    | none =>
      rw [hmode] at htext
      cases htext
    | some state =>
      rw [hmode] at htext
      dsimp only at htext
      split_ifs at htext
      exact ⟨state, { state with cursor := paneLocalPointClamped rect col row }, rfl, trivial, rfl,
        rfl, rfl, htext⟩

end CopySession

/-- The origin is where the anchor was in the view as it was then, and both ends are in the
pane. -/
structure Placed (rect : Rect) (origin : Option (Nat × Nat)) (view : Option Nat)
    (state : CopyModeState) : Prop where
  row : state.cursor.2 ≤ rect.height - 1
  anchorRow : ∀ anchor, state.anchor = some anchor → anchor.2 ≤ rect.height - 1
  origin : origin = state.anchor.bind fun anchor => view.map fun line => (line + anchor.2, anchor.1)
  view : state.anchor.isSome → view.isSome

namespace Tracked

variable {vt : Presented} {rect : Rect} {t : Tracked} {action : CopyAction}

def Anchored (rect : Rect) (t : Tracked) : Prop :=
  ∀ state, t.session.mode = some state → Placed rect t.origin t.view state

theorem step_eq {next : CopyModeState} {begun : Bool}
    (hbegun : begins rect t.session action = begun)
    (hnext : (t.session.step vt rect action).1.mode = some next) :
    (t.step vt rect action).origin = (next.anchor.bind fun anchor =>
        if begun then some (absolute vt rect.height next anchor) else t.origin) ∧
      (t.step vt rect action).view = if begun then
        some (viewStart (effectiveTotalLines vt rect.height) rect.height next.scrollOffset)
        else t.view := by
  unfold step
  dsimp only
  rw [hnext, hbegun]
  exact ⟨rfl, rfl⟩

/-- A step that begins a selection notes where the view is. -/
theorem placed_begun {next : CopyModeState} (hbegun : begins rect t.session action = true)
    (hnext : (t.session.step vt rect action).1.mode = some next)
    (hrow : next.cursor.2 ≤ rect.height - 1)
    (hanchor : ∀ anchor, next.anchor = some anchor → anchor.2 ≤ rect.height - 1) :
    Placed rect (t.step vt rect action).origin (t.step vt rect action).view next := by
  obtain ⟨horigin, hview⟩ := step_eq hbegun hnext
  refine ⟨hrow, hanchor, ?_, fun _ => ?_⟩
  · rw [horigin, hview]
    rfl
  · rw [hview]
    rfl

/-- Without a selection there is no origin. -/
theorem placed_unselected {next : CopyModeState}
    (hnext : (t.session.step vt rect action).1.mode = some next)
    (hrow : next.cursor.2 ≤ rect.height - 1) (hnone : next.anchor = none) :
    Placed rect (t.step vt rect action).origin (t.step vt rect action).view next := by
  refine ⟨hrow, fun anchor hanchor => ?_, ?_, fun hsome => ?_⟩
  · rw [hnone] at hanchor
    cases hanchor
  · rw [(step_eq rfl hnext).1, hnone]
    rfl
  · rw [hnone] at hsome
    cases hsome

/-- A step keeps the origin of a selection that goes on. -/
theorem Anchored.step (h : t.Anchored rect) : (t.step vt rect action).Anchored rect := by
  intro next hnext
  change (t.session.step vt rect action).1.mode = some next at hnext
  cases hmode : t.session.mode with
  | none =>
    obtain ⟨hnone, hrow⟩ := CopySession.step_opens hmode hnext
    exact placed_unselected hnext (hrow.trans_le (Nat.zero_le _)) hnone
  | some state =>
    have hplaced := h state hmode
    by_cases hpress : ∃ col row, action = .press col row ∧ pointInRect rect col row = true
    · obtain ⟨col, row, rfl, hinside⟩ := hpress
      obtain rfl := CopySession.step_press hmode hinside hnext
      have hbegun : begins rect t.session (.press col row) = true := by
        show (pointInRect rect col row || _) = true
        rw [hinside, Bool.true_or]
      refine placed_begun hbegun hnext (clamped_row rect col row) fun anchor hanchor => ?_
      cases hanchor
      exact clamped_row rect col row
    · have hpress' : ∀ col row, action = .press col row → pointInRect rect col row = false :=
        fun col row heq => Bool.eq_false_iff.mpr fun hinside => hpress ⟨col, row, heq, hinside⟩
      have hkeeps := CopySession.step_keeps hmode hplaced.row hpress' hnext
      have hbegins : begins rect t.session action = state.anchor.isNone := by
        unfold begins
        rw [hmode, Option.any_some]
        cases action with
        | press col row =>
          dsimp only
          rw [hpress' col row rfl, Bool.false_or]
        | _ => rfl
      rcases hkeeps.anchor with hnone | ⟨hnone, hnew⟩ | hsame
      · exact placed_unselected hnext hkeeps.row hnone
      · rw [hnone] at hbegins
        refine placed_begun hbegins hnext hkeeps.row fun anchor hanchor => ?_
        cases hnew.symm.trans hanchor
        exact hplaced.row
      · cases hanchor : state.anchor with
        | none => exact placed_unselected hnext hkeeps.row (hsame.trans hanchor)
        | some anchor =>
          rw [hanchor] at hbegins
          obtain ⟨horigin, hview⟩ := step_eq hbegins hnext
          have hnext' := hsame.trans hanchor
          refine ⟨hkeeps.row, fun other hother => ?_, ?_, fun _ => ?_⟩
          · exact hplaced.anchorRow other (hsame.symm.trans hother)
          · rw [horigin, hview, hnext']
            exact hplaced.origin.trans (by rw [hanchor]; rfl)
          · rw [hview]
            exact hplaced.view (by rw [hanchor]; rfl)

/-- What a step copies lies between the origin and the cursor. -/
theorem Anchored.copied (h : t.Anchored rect) {text : Str}
    (hview : ∀ state, t.session.mode = some state → action.InView vt rect t.view state)
    (htext : (t.session.step vt rect action).2 = some text) :
    ∃ state, t.session.mode = some state ∧
      text = textBetween vt (min rect.width (vt.gridCols % 65536))
        (t.origin.getD (absolute vt rect.height state (cursorAt rect state action)))
        (absolute vt rect.height state (cursorAt rect state action)) := by
  obtain ⟨state, next, hmode, hcopies, hcursor, hanchor, hstart, hyielded⟩ :=
    CopySession.step_copies (fun state hmode => (h state hmode).row) htext
  obtain ⟨hcursorRow, hends⟩ := hview state hmode hcopies
  have hplaced := h state hmode
  refine ⟨state, hmode, ?_⟩
  have hsame : ∀ place, absolute vt rect.height next place = absolute vt rect.height state place :=
    fun place => by rw [absolute, absolute, hstart]
  have horigin : t.origin.getD (absolute vt rect.height state next.cursor) =
      absolute vt rect.height state (state.anchor.getD next.cursor) := by
    rw [hplaced.origin]
    cases hstate : state.anchor with
    | none => rfl
    | some anchor =>
      rw [(hends anchor hstate).2]
      rfl
  unfold yielded at hyielded
  split_ifs at hyielded with hempty
  have hpos : 0 < rect.height := by
    refine Nat.pos_of_ne_zero fun hzero => hempty ?_
    rw [hzero, extractSelection_no_rows]
    rfl
  have hcursorPane : (cursorAt rect state action).2 ≤ rect.height - 1 := by
    cases action with
    | release col row => exact clamped_row rect col row
    | _ => exact hplaced.row
  have hanchorRow : (next.anchor.getD next.cursor).2 < min rect.height (vt.gridRows % 65536) := by
    rw [hanchor]
    cases hstate : state.anchor with
    | none =>
      rw [Option.getD_none, hcursor]
      omega
    | some anchor =>
      have hpane := hplaced.anchorRow anchor hstate
      have hgrid := (hends anchor hstate).1
      rw [Option.getD_some]
      omega
  have hcopied := @extractSelection_eq vt next rect.width rect.height (by rw [hcursor]; omega)
    hanchorRow
  rw [← hcursor, horigin, ← Option.some.inj hyielded, hcopied, hsame, hsame, hanchor]

theorem anchored_run (actions : List CopyAction) : (run vt rect actions).Anchored rect := by
  induction actions using List.reverseRecOn with
  | nil => exact fun state h => by cases h
  | append_singleton actions action ih =>
    unfold run
    rw [foldl_append]
    exact ih.step

/-- In every run, what is copied is the text between the line and the column at which the selection
was begun and those of the cursor, if the view is where it was when the selection was begun. -/
theorem copy_anchor (vt : Presented) (rect : Rect) (actions : List CopyAction)
    (action : CopyAction) (text : Str)
    (hview : ∀ state, (run vt rect actions).session.mode = some state →
      action.InView vt rect (run vt rect actions).view state)
    (htext : ((run vt rect actions).session.step vt rect action).2 = some text) :
    ∃ state, (run vt rect actions).session.mode = some state ∧
      text = textBetween vt (min rect.width (vt.gridCols % 65536))
        ((run vt rect actions).origin.getD
          (absolute vt rect.height state (cursorAt rect state action)))
        (absolute vt rect.height state (cursorAt rect state action)) :=
  (anchored_run actions).copied hview htext

/-- Four lines of one character, two of them in the grid. -/
def fourLines : Presented where
  lines := ['a', 'b', 'c', 'd'].map fun ch => ⟨[{ Cell.empty with ch }], false⟩
  gridRows := 2
  gridCols := 1
  cursorRow := 1
  rows_le := by decide

def smallPane : Rect := ⟨0, 0, 1, 2⟩

/-- A selection is begun, the view moves back a page and forth again, the cursor moves down a line,
and both lines are copied. -/
theorem copy_anchor_sample : ['c', '\n', 'd'] = textBetween fourLines 1 (2, 0) (3, 0) := by
  obtain ⟨state, hmode, htext⟩ := copy_anchor fourLines smallPane
    [.enter, .key [0x76], .key [0x02], .key [0x06], .key [0x6A]] (.key [0x79]) ['c', '\n', 'd']
    (fun state hmode _ => by
      cases hmode
      refine ⟨by decide, fun anchor hanchor => ?_⟩
      cases hanchor
      decide) rfl
  cases hmode
  exact htext

/-- Scrolled back by a line, the selection begins a line before the one it was begun on. -/
theorem copy_anchor_scrolled : ¬ ∀ (vt : Presented) (rect : Rect) (actions : List CopyAction)
    (action : CopyAction) (text : Str),
    ((run vt rect actions).session.step vt rect action).2 = some text →
    ∃ state, (run vt rect actions).session.mode = some state ∧
      text = textBetween vt (min rect.width (vt.gridCols % 65536))
        ((run vt rect actions).origin.getD
          (absolute vt rect.height state (cursorAt rect state action)))
        (absolute vt rect.height state (cursorAt rect state action)) := by
  intro h
  obtain ⟨state, hmode, htext⟩ := h fourLines smallPane [.enter, .key [0x76], .key [0x02]]
    (.key [0x79]) ['b'] rfl
  cases hmode
  exact absurd htext (by decide)

end Tracked

end Shux.Ui
