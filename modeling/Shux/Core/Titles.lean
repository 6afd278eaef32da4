/-
# Titles that can be displayed

A pane shows the title a person gave it, else the one its program set, else a name derived from
its command and its directory. Each source goes through the sanitizer and the display clamp.
The sanitizer trims before the clamp cuts, so a title that is cut behind a space ends in one,
and a manual title that the sanitizer empties is still a title. Apart from these two every
title is nonempty, short, and nothing to do for the sanitizer, whatever calls set it.
-/

import Shux.Core.Model

namespace Shux

/-- A title fit to be shown: nonempty, short, without control characters, and nothing to do for
the sanitizer. -/
structure Displayable (t : Str) : Prop where
  nonempty : t ≠ []
  short : t.length ≤ maxTitleChars
  printable : ∀ c ∈ t, isControl c = false
  fixed : sanitizeTitle t = t

/-- A text the display clamp does not cut behind white space. -/
def CutsClean (raw : Str) : Prop :=
  maxTitleChars < (sanitizeTitle raw).length →
    ∀ c ∈ ((sanitizeTitle raw).take maxTitleChars).getLast?, isWhitespace c = false

theorem IsClean.printable {t : Str} (h : IsClean t) : ∀ c ∈ t, isControl c = false := by
  intro c hc
  have hinert := h.inert c hc
  simp only [isTitleHostile, Bool.or_eq_false_iff] at hinert
  exact hinert.1.1.1.1

/-- A cut of clean text is clean unless it ends in white space. -/
theorem IsClean.take {t : Str} (h : IsClean t) {n : Nat}
    (hlast : ∀ c ∈ (t.take n).getLast?, isWhitespace c = false) : IsClean (t.take n) where
  inert c hc := h.inert c (List.mem_of_mem_take hc)
  head hne := by
    have htne : t ≠ [] := by
      rintro rfl
      exact hne List.take_nil
    rw [List.head_take]
    exact h.head htne
  last hne := hlast _ (List.getLast?_eq_some_getLast hne)

theorem IsClean.displayable {t : Str} (h : IsClean t) (hne : t ≠ [])
    (hshort : t.length ≤ maxTitleChars) : Displayable t :=
  ⟨hne, hshort, h.printable, sanitizeTitle_eq_self h⟩

/-- A clamped title is fit to be shown exactly when something is left of it and the clamp does
not cut it behind white space. -/
theorem displayable_sanitizeTitleClamped (raw : Str) :
    Displayable (sanitizeTitleClamped raw) ↔ sanitizeTitle raw ≠ [] ∧ CutsClean raw := by
  have hclean := isClean_sanitizeTitle raw
  by_cases hlen : (sanitizeTitle raw).length ≤ maxTitleChars
  · have heq : sanitizeTitleClamped raw = sanitizeTitle raw := if_pos hlen
    rw [heq]
    constructor
    · exact fun h => ⟨h.nonempty, fun hlong => absurd hlong (not_lt.mpr hlen)⟩
    · exact fun h => hclean.displayable h.1 hlen
  · have heq : sanitizeTitleClamped raw = (sanitizeTitle raw).take maxTitleChars := if_neg hlen
    have hlong := not_le.mp hlen
    rw [heq]
    constructor
    · intro h
      refine ⟨fun hnil => ?_, fun _ c hc => ?_⟩
      · rw [hnil] at hlong
        exact Nat.not_lt_zero _ hlong
      · -- what the sanitizer leaves as it is does not end in white space
        have hcut : IsClean ((sanitizeTitle raw).take maxTitleChars) :=
          h.fixed ▸ isClean_sanitizeTitle ((sanitizeTitle raw).take maxTitleChars)
        have hlast := hcut.last h.nonempty
        rw [List.getLast?_eq_some_getLast h.nonempty, Option.mem_some_iff] at hc
        exact hc ▸ hlast
    · rintro ⟨hne, hcut⟩
      have htne : (sanitizeTitle raw).take maxTitleChars ≠ [] := by
        rw [Ne, List.take_eq_nil_iff]
        exact fun hor => hor.elim (by decide) hne
      exact (hclean.take (hcut hlong)).displayable htne (List.length_take_le _ _)

namespace Pane

/-- The title shown, by the priority of its sources. -/
def effectiveTitle (pane : Pane) : Str :=
  match pane.manualTitle with
  | some manual => manual
  | none =>
    match pane.autoTitle, pane.oscTitle with
    | true, some osc => osc
    | _, _ => pane.title

/-- A call that sets a title. -/
inductive TitleCall where
  | manual (title : Option Str)
  | osc (title : Str)
  | auto (enabled : Bool)
deriving DecidableEq

def titleCall (pane : Pane) : TitleCall → Pane
  | .manual title => pane.setManualTitle title
  | .osc title => (pane.setOscTitle title).1
  | .auto enabled => pane.setAutoTitle enabled

/-- Carry out a sequence of calls. -/
def titleCalls (pane : Pane) (calls : List TitleCall) : Pane := calls.foldl titleCall pane

/-- The text of a call is not cut behind white space, and something is left of a manual title. -/
def TitleCall.Clean : TitleCall → Prop
  | .manual title => ∀ raw ∈ title, sanitizeTitle raw ≠ [] ∧ CutsClean raw
  | .osc raw => CutsClean raw
  | .auto _ => True

/-- The text a pane is titled after is not cut behind white space: the command, without one the
directory's name, without that the whole path. -/
structure NamedClean (command : List Str) (cwd : PathBuf) : Prop where
  program : ∀ raw ∈ commandDisplayName command, CutsClean raw
  name : titleFrom (commandDisplayName command) = none →
    ∀ raw ∈ cwd.fileName.bind PathBuf.toStr, CutsClean raw
  path : titleFrom (commandDisplayName command) = none →
    titleFrom (cwd.fileName.bind PathBuf.toStr) = none → CutsClean cwd.toStringLossy

/-- Every source of the title is fit to be shown, and so is the title. -/
structure Titled (pane : Pane) : Prop where
  named : NamedClean pane.command pane.cwd
  title : Displayable pane.title
  manual : ∀ t ∈ pane.manualTitle, Displayable t
  osc : ∀ t ∈ pane.oscTitle, Displayable t

theorem displayable_fallbackPaneTitle : Displayable fallbackPaneTitle := by
  have hall : fallbackPaneTitle.all (fun c => !isControl c) = true := by decide
  refine ⟨by decide, by decide, fun c hc => ?_, by decide⟩
  exact (Bool.not_eq_true' _).mp (List.all_eq_true.mp hall c hc)

theorem displayable_titleFrom {name : Option Str} (hname : ∀ raw ∈ name, CutsClean raw)
    {title : Str} (htitle : titleFrom name = some title) : Displayable title := by
  unfold titleFrom at htitle
  cases name with
  | none => cases htitle
  | some raw =>
    dsimp only at htitle
    split at htitle
    · cases htitle
    · next hne =>
      cases htitle
      refine (displayable_sanitizeTitleClamped raw).mpr ⟨fun hnil => hne ?_, hname raw rfl⟩
      rw [sanitizeTitleClamped, hnil]
      rfl

theorem displayable_autoDerivedTitle {command : List Str} {cwd : PathBuf}
    (h : NamedClean command cwd) : Displayable (autoDerivedTitle command cwd) := by
  unfold autoDerivedTitle
  split
  · next htitle => exact displayable_titleFrom h.program htitle
  · next hcommand =>
    split
    · next htitle => exact displayable_titleFrom (h.name hcommand) htitle
    · next hname =>
      dsimp only
      split
      · exact displayable_fallbackPaneTitle
      · next hne =>
        refine (displayable_sanitizeTitleClamped _).mpr ⟨fun hnil => hne ?_, h.path hcommand hname⟩
        rw [sanitizeTitleClamped, hnil]
        rfl

variable {pane : Pane}

/-- Recomputing the title needs a title of before only when automatic titles are off. -/
theorem Titled.recalculateTitle (hnamed : NamedClean pane.command pane.cwd)
    (htitle : pane.manualTitle = none → pane.autoTitle = false → Displayable pane.title)
    (hmanual : ∀ t ∈ pane.manualTitle, Displayable t)
    (hosc : ∀ t ∈ pane.oscTitle, Displayable t) : Titled pane.recalculateTitle := by
  unfold Pane.recalculateTitle
  split
  · next manual hm => exact ⟨hnamed, hmanual manual hm, hmanual, hosc⟩
  · next hm =>
    split
    · split
      · next osc ho => exact ⟨hnamed, hosc osc ho, hmanual, hosc⟩
      · exact ⟨hnamed, displayable_autoDerivedTitle hnamed, hmanual, hosc⟩
    · next hauto => exact ⟨hnamed, htitle hm (Bool.eq_false_iff.mpr hauto), hmanual, hosc⟩

theorem titled_start {command : List Str} {cwd : PathBuf} (h : NamedClean command cwd)
    (id : PaneId) (windowId : WindowId) : Titled (start id windowId cwd command) := by
  rw [start_eq]
  have hfresh : (new id windowId cwd).manualTitle = none ∧ (new id windowId cwd).oscTitle = none ∧
      (new id windowId cwd).autoTitle = true ∧ (new id windowId cwd).cwd = cwd :=
    ⟨rfl, rfl, rfl, rfl⟩
  unfold withCommand
  generalize new id windowId cwd = fresh at hfresh ⊢
  obtain ⟨hmanual, hosc, hauto, rfl⟩ := hfresh
  refine Titled.recalculateTitle h (fun _ hoff => ?_) (fun t ht => ?_) fun t ht => ?_
  · rw [show fresh.autoTitle = false from hoff] at hauto
    cases hauto
  · rw [show fresh.manualTitle = some t from ht] at hmanual
    cases hmanual
  · rw [show fresh.oscTitle = some t from ht] at hosc
    cases hosc

theorem Titled.titleCall (h : Titled pane) {call : TitleCall} (hclean : call.Clean) :
    Titled (pane.titleCall call) := by
  cases call with
  | manual title =>
    refine Titled.recalculateTitle h.named (fun _ _ => h.title) (fun t ht => ?_) h.osc
    obtain ⟨raw, hraw, rfl⟩ := Option.map_eq_some_iff.mp ht
    exact (displayable_sanitizeTitleClamped raw).mpr (hclean raw hraw)
  | osc raw =>
    have hosc : ∀ t ∈ (if (sanitizeTitleClamped raw).isEmpty then none
        else some (sanitizeTitleClamped raw)), Displayable t := by
      intro t ht
      split at ht
      · cases ht
      · next hne =>
        cases ht
        refine (displayable_sanitizeTitleClamped raw).mpr ⟨fun hnil => hne ?_, hclean⟩
        rw [sanitizeTitleClamped, hnil]
        rfl
    unfold Pane.titleCall setOscTitle
    dsimp only
    generalize (if (sanitizeTitleClamped raw).isEmpty then none
      else some (sanitizeTitleClamped raw)) = newOsc at hosc ⊢
    by_cases hsame : pane.oscTitle = newOsc
    · rw [if_pos hsame]
      exact h
    · rw [if_neg hsame]
      exact Titled.recalculateTitle h.named (fun _ _ => h.title) h.manual hosc
  | auto enabled =>
    unfold Pane.titleCall setAutoTitle
    dsimp only
    split
    · exact h
    · exact Titled.recalculateTitle h.named (fun _ _ => h.title) h.manual h.osc

theorem Titled.titleCalls (h : Titled pane) {calls : List TitleCall}
    (hclean : ∀ call ∈ calls, call.Clean) : Titled (pane.titleCalls calls) := by
  induction calls generalizing pane with
  | nil => exact h
  | cons call calls ih =>
    exact ih (h.titleCall (hclean call List.mem_cons_self))
      fun later hlater => hclean later (List.mem_cons_of_mem _ hlater)

theorem Titled.effectiveTitle (h : Titled pane) : Displayable pane.effectiveTitle := by
  unfold Pane.effectiveTitle
  split
  · next manual hm => exact h.manual manual hm
  · split
    · next osc _ ho => exact h.osc osc ho
    · exact h.title

/-- As long as no text is cut behind white space and no manual title sanitizes to nothing, a
pane shows a displayable title, whatever calls set it. -/
theorem titleCalls_displayable (id : PaneId) (windowId : WindowId) {cwd : PathBuf}
    {command : List Str} (hnamed : NamedClean command cwd) {calls : List TitleCall}
    (hclean : ∀ call ∈ calls, call.Clean) :
    Displayable ((start id windowId cwd command).titleCalls calls).effectiveTitle :=
  ((titled_start hnamed id windowId).titleCalls hclean).effectiveTitle

/-- A manual title of a pane without a command, which an OSC title does not replace. -/
theorem titleCalls_displayable_manual :
    Displayable ((start ⟨⟨1⟩⟩ ⟨⟨1⟩⟩ (.ofStr "/srv".toList) []).titleCalls
      [.manual (some " notes ".toList), .osc "vim".toList]).effectiveTitle := by
  refine titleCalls_displayable _ _ ⟨?_, ?_, ?_⟩ ?_
  · exact fun raw hraw => by cases hraw
  · exact fun _ raw hraw hlong => by
      cases hraw
      exact absurd hlong (by decide)
  · exact fun _ _ hlong => absurd hlong (by decide)
  · intro call hcall
    rcases List.mem_pair.mp hcall with rfl | rfl
    · intro raw hraw
      cases hraw
      exact ⟨by decide, fun hlong => absurd hlong (by decide)⟩
    · exact fun hlong => absurd hlong (by decide)

/-- A manual title of nothing but control characters leaves no title, and one that is cut behind
a space ends in it. -/
theorem titleCalls_displayable_false :
    ¬ Displayable ((start ⟨⟨1⟩⟩ ⟨⟨1⟩⟩ (.ofStr "/srv".toList) []).titleCalls
        [.manual (some "\x07".toList)]).effectiveTitle ∧
      ¬ Displayable ((start ⟨⟨1⟩⟩ ⟨⟨1⟩⟩ (.ofStr "/srv".toList) []).titleCalls
        [.manual (some (List.replicate 63 'a' ++ " b".toList))]).effectiveTitle :=
  ⟨fun h => h.nonempty (by decide), fun h => absurd h.fixed (by decide)⟩

end Pane

end Shux
