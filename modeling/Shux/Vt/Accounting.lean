/-
# What images cost

Every screen a terminal has counts the bytes of the pictures placed on it, and every store
those of the images it keeps. The counts are kept up command by command, as pictures are
placed, replaced and dropped and as they fall off the history. Over any run both are exact
and within their caps, so that no subtraction in them is ever cut short.
-/

import Shux.Vt.Stores

namespace Shux.Vt

open Checked Recency Handler Option

namespace Grid

variable {g : Grid}

/-- Dropping placements out of reach, where a subtraction below zero stops the program. -/
def pruneStrict (g : Grid) : Checked Grid := do
  let placedBytes ←
    sub g.placedBytes (placementBytes (g.placements.filter fun p => !placementLive g.evicted p))
  pure { g with placements := g.placements.filter (placementLive g.evicted), placedBytes }

/-- Adding a placement, where a subtraction below zero stops the program. -/
def putStrict (g : Grid) (p : Placement) : Checked (Grid × Bool) := do
  let g ← g.pruneStrict
  let same (q : Placement) : Bool :=
    p.imageId != 0 && p.placementId != 0 && q.imageId == p.imageId &&
      q.placementId == p.placementId
  match g.placements.findIdx? same with
  | some i => do
    let old ← index g.placements i
    let rest ← sub g.placedBytes old.image.payload.length
    if maxImageBytes < rest + p.image.payload.length then pure (g, false)
    else
      let placements ← assign g.placements i p
      pure ({ g with
        placedBytes := rest + p.image.payload.length
        placements
        mutations := g.mutations + 1 }, true)
  | none =>
    if maxPlacements ≤ g.placements.length ∨
        maxImageBytes < g.placedBytes + p.image.payload.length then pure (g, false)
    else
      pure ({ g with
        placedBytes := g.placedBytes + p.image.payload.length
        placements := g.placements ++ [p]
        mutations := g.mutations + 1 }, true)

/-- Dropping chosen placements, where a subtraction below zero stops the program. -/
def unplaceStrict (g : Grid) (gone : Placement → Bool) : Checked (Grid × List Nat) := do
  let dropped := g.placements.filter gone
  let ids := dropped.map fun p => p.imageId
  let placedBytes ← sub g.placedBytes (placementBytes dropped)
  pure ({ g with
      placements := g.placements.filter fun p => !gone p
      placedBytes
      mutations := if ids.isEmpty then g.mutations else g.mutations + 1 },
    ids)

/-- Whatever is dropped was counted. -/
theorem Accounted.covers (h : g.Accounted) (gone : Placement → Bool) :
    placementBytes (g.placements.filter gone) ≤ g.placedBytes := by
  have hsplit := placementBytes_filter g.placements gone
  have hcount := h.count
  omega

theorem Accounted.pruneStrict (h : g.Accounted) :
    g.pruneStrict = some g.pruneEvictedPlacements := by
  rw [Grid.pruneStrict, sub, if_pos (h.covers _)]
  rfl

theorem Accounted.putStrict (h : g.Accounted) (p : Placement) : g.putStrict p = g.put p := by
  have hpruned := h.pruneEvictedPlacements
  rw [Grid.putStrict, h.pruneStrict]
  unfold Grid.put
  simp only [bind_eq_bind, bind_some]
  generalize List.findIdx? _ g.pruneEvictedPlacements.placements = found
  cases found with
  | none => rfl
  | some i =>
    cases hold : index g.pruneEvictedPlacements.placements i with
    | none => simp only [hold, bind_none]
    | some old =>
      have hle : old.image.payload.length ≤ g.pruneEvictedPlacements.placedBytes := by
        rw [hpruned.count]
        exact List.le_sum_of_mem (List.mem_map_of_mem (List.mem_of_getElem? hold))
      simp only [hold, bind_some, sub, if_pos hle]

theorem Accounted.unplaceStrict (h : g.Accounted) (gone : Placement → Bool) :
    g.unplaceStrict gone = some (g.unplaceWhere gone) := by
  rw [Grid.unplaceStrict, sub, if_pos (h.covers gone)]
  rfl

theorem Accounted.unplaceWhere (h : g.Accounted) (gone : Placement → Bool) :
    (g.unplaceWhere gone).1.Accounted := by
  have hfilter := h.filter (fun p => !gone p)
  simp only [Bool.not_not] at hfilter
  exact hfilter _

/-- Pictures are placed and resized with the grid they stand on. -/
theorem Resized.accounted {g' : Grid} {newRows newCols : Nat} (h : Resized g newRows newCols g')
    (haccount : g.Accounted) : g'.Accounted := by
  refine ⟨?_, ?_, ?_⟩
  · rw [h.placedBytes, h.placements]
    exact haccount.count
  · rw [h.placedBytes]
    exact haccount.light
  · rw [h.placements]
    exact haccount.few

end Grid

namespace Terminal

variable {t : Terminal}

/-- Every grid a terminal has counts right: the live one, the parked one, the retired one and
the frozen viewport. -/
structure Accounted (t : Terminal) : Prop where
  live : t.grid.Accounted
  stash : ∀ g, t.altGrid = some g → g.Accounted
  spare : ∀ g, t.altSpare = some g → g.Accounted
  frozen : ∀ frozen, t.frozenGrid = some frozen → frozen.grid.Accounted

namespace Accounted

theorem of_same {u : Terminal} (h : t.Accounted) (hgrid : u.grid = t.grid)
    (hstash : u.altGrid = t.altGrid) (hspare : u.altSpare = t.altSpare)
    (hfrozen : u.frozenGrid = t.frozenGrid) : u.Accounted :=
  ⟨hgrid ▸ h.live, hstash ▸ h.stash, hspare ▸ h.spare, hfrozen ▸ h.frozen⟩

theorem freeze (h : t.Accounted) (touched : Touched) : (t.freeze touched).Accounted := by
  unfold Terminal.freeze
  split
  · refine ⟨h.live, h.stash, h.spare, fun frozen hfrozen => ?_⟩
    rcases freezeSlot_some hfrozen with hold | rfl
    · exact h.frozen frozen hold
    · exact ⟨h.live.count, h.live.light, h.live.few⟩
  · exact h

theorem freezeAltFlag (h : t.Accounted) : t.freezeAltFlag.Accounted := by
  rw [freezeAltFlag_eq]
  exact h.of_same rfl rfl rfl rfl

theorem commit (h : t.Accounted) {h' : Handler} (hadv : Advances ⟨t.toScreen, .nothing⟩ h') :
    (t.commit h').Accounted := by
  have hfrozen := h.freeze h'.touched
  exact ⟨hadv.evolves.accounted h.live, hfrozen.stash, hfrozen.spare, hfrozen.frozen⟩

theorem markAllDirty (h : t.Accounted) : t.markAllDirty.Accounted :=
  ⟨⟨h.live.count, h.live.light, h.live.few⟩, h.stash, h.spare, h.frozen⟩

theorem entered (hok : t.Ok) (h : t.Accounted) (parks : Bool) : (t.entered parks).Accounted := by
  rw [entered_eq]
  refine ⟨?_, ?_, ?_, h.frozen⟩
  · show t.altCanvas.markAllDirty.Accounted
    rw [altCanvas_markAllDirty hok.spare]
    exact Grid.accounted_bare rfl rfl
  · intro g hg
    cases hg
    exact h.live
  · intro g hg
    cases hg

theorem left (hok : t.Ok) (h : t.Accounted) (halt : t.modes.alternateScreen = true)
    (parks : Bool) : (t.left parks).Accounted := by
  obtain ⟨primary, hprimary⟩ := hok.exists_parked halt
  have hstash := h.stash primary hprimary
  rw [left_eq hprimary]
  refine ⟨⟨hstash.count, hstash.light, hstash.few⟩, ?_, ?_, h.frozen⟩
  · intro g hg
    cases hg
  · intro g hg
    dsimp only at hg
    split at hg
    · cases hg
      exact h.live
    · exact h.spare g hg

theorem releaseSyncPresentation (h : t.Accounted) : t.releaseSyncPresentation.Accounted where
  live := h.live
  stash := h.stash
  spare := h.spare
  frozen _ hfrozen := by cases hfrozen

theorem freezeWholePresentation (h : t.Accounted) : t.freezeWholePresentation.Accounted :=
  (h.freeze _).freezeAltFlag

theorem hold (h : t.Accounted) : (t.setSynchronizedOutput true).Accounted := by
  have harm : Accounted { t.markAllDirty with syncArmed := true } :=
    h.markAllDirty.of_same rfl rfl rfl rfl
  exact hold_cases (fun _ => h.of_same rfl rfl rfl rfl)
    (fun _ => harm.freezeWholePresentation.of_same rfl rfl rfl rfl)
    fun _ => harm.of_same rfl rfl rfl rfl

theorem forceReleaseSync (h : t.Accounted) : t.forceReleaseSync.Accounted :=
  h.releaseSyncPresentation.markAllDirty.of_same rfl rfl rfl rfl

theorem release (h : t.Accounted) : (t.setSynchronizedOutput false).Accounted :=
  h.releaseSyncPresentation.markAllDirty.of_same rfl rfl rfl rfl

theorem rewind (hok : t.Ok) (h : t.Accounted) : t.rewind.Accounted := by
  unfold Terminal.rewind
  dsimp only
  split
  · next halt => exact left hok.releaseSyncPresentation h.releaseSyncPresentation halt false
  · exact h.releaseSyncPresentation

end Accounted

theorem preserves_accounted : Preserves (fun _ => True) fun t => t.Ok ∧ t.Accounted := by
  apply preserves_ok.and
  · exact fun _ h hadv => h.commit hadv
  · exact fun _ h _ => h.of_same rfl rfl rfl rfl
  · intro t parks _ _ hok h
    exact (h.freeze _).freezeAltFlag.entered (hok.freeze _).freezeAltFlag parks
  · intro t parks _ halt hok h
    exact (h.freeze _).freezeAltFlag.left (hok.freeze _).freezeAltFlag
      (t.alternate_freezeForSwitch.trans halt) parks
  · exact fun _ _ h => h.hold
  · exact fun _ _ h => h.release
  · exact fun _ hok h => h.rewind hok

theorem accounted_withConfig (rows cols : Nat) (config : GridConfig) :
    (withConfig rows cols config).Accounted := by
  refine ⟨Grid.accounted_bare rfl rfl, ?_, ?_, ?_⟩
  · intro g hg
    cases hg
  · intro g hg
    cases hg
  · intro frozen hfrozen
    cases hfrozen

namespace Accounted

theorem resizeStart (h : t.Accounted) (changed : Bool) : (t.resizeStart changed).Accounted := by
  have hspare : ∀ (g : Grid), (if changed then none else t.altSpare) = some g → g.Accounted := by
    intro g hg
    split at hg
    · cases hg
    · exact h.spare g hg
  have hreleased := h.forceReleaseSync
  unfold Terminal.resizeStart
  dsimp only
  split
  · exact ⟨hreleased.live, hreleased.stash, hspare, hreleased.frozen⟩
  · exact ⟨h.live, h.stash, hspare, h.frozen⟩

theorem resize (hok : t.Ok) (h : t.Accounted) (rows cols : Nat) :
    Runs (t.resize rows cols) Accounted := by
  have hstart := hok.resizeStart (t.resizes (max rows 1) (max cols 1))
  have haccount := h.resizeStart (t.resizes (max rows 1) (max cols 1))
  obtain ⟨grid, cursor, altGrid, altCursor, heq, hrelined, -, -, hstash⟩ :=
    hstart.resizeScreens (le_max_right rows 1) (le_max_right cols 1)
  rw [resize_eq, heq _ rfl rfl rfl]
  apply Runs.some
  have hend : Accounted { t.resizeStart (t.resizes (max rows 1) (max cols 1)) with
      grid, cursor, altGrid, altCursor } := by
    refine ⟨hrelined.toResized.accounted haccount.live, ?_, haccount.spare, haccount.frozen⟩
    intro stash hsome
    obtain ⟨g, hg, hrelined'⟩ := hstash stash hsome
    exact hrelined'.toResized.accounted (haccount.stash g hg)
  unfold Terminal.resizeEnd
  dsimp only
  split <;> exact hend.of_same rfl rfl rfl rfl

theorem releaseExpiredSync (h : t.Accounted) (now : Nat) :
    (t.releaseExpiredSync now).1.Accounted := by
  have hreleased := h.forceReleaseSync
  unfold Terminal.releaseExpiredSync
  split
  · dsimp only
    split <;> exact hreleased.of_same rfl rfl rfl rfl
  · exact h

theorem enterAlternateScreen (hok : t.Ok) (h : t.Accounted) : t.enterAlternateScreen.Accounted := by
  have hbegun : Accounted { t.freezeWholePresentation with activeGraphemeCell := none } :=
    h.freezeWholePresentation.of_same rfl rfl rfl rfl
  unfold Terminal.enterAlternateScreen
  dsimp only
  split
  · exact hbegun
  · exact hbegun.entered hok.freezeWholePresentation.clearActive true

theorem leaveAlternateScreen (hok : t.Ok) (h : t.Accounted) : t.leaveAlternateScreen.Accounted := by
  have hbegun : Accounted { t.freezeWholePresentation with activeGraphemeCell := none } :=
    h.freezeWholePresentation.of_same rfl rfl rfl rfl
  unfold Terminal.leaveAlternateScreen
  dsimp only
  split
  · next halt => exact hbegun.left hok.freezeWholePresentation.clearActive halt true
  · exact hbegun

theorem takeDirtyRegions (h : t.Accounted) : t.takeDirtyRegions.1.Accounted := by
  unfold Terminal.takeDirtyRegions
  split
  · next frozen hfrozen =>
    have hold := h.frozen frozen hfrozen
    refine ⟨h.live, h.stash, h.spare, fun frozen' hfrozen' => ?_⟩
    cases hfrozen'
    exact ⟨hold.count, hold.light, hold.few⟩
  · exact ⟨⟨h.live.count, h.live.light, h.live.few⟩, h.stash, h.spare, h.frozen⟩

theorem processWithResponses [Crates] (hok : t.Ok) (h : t.Accounted) (len now : Nat)
    (calls : List Call) :
    Runs (t.processWithResponses len now calls) fun out => out.1.Accounted := by
  have hstart : t.releaseOverfull.Accounted := by
    unfold releaseOverfull
    split
    · exact h.forceReleaseSync
    · exact h
  have hcleared : Accounted { t.releaseOverfull with responses := [] } :=
    hstart.of_same rfl rfl rfl rfl
  apply Runs.bind (preserves_accounted.calls ⟨hok.releaseOverfull.clearResponses, hcleared⟩ calls
    fun _ _ _ _ => trivial)
  rintro after ⟨-, hafter⟩
  have hrecorded : (recordBatch t.releaseOverfull after).Accounted := by
    rw [recordBatch_eq]
    exact hafter.of_same rfl rfl rfl rfl
  apply Runs.pure
  show Accounted (Terminal.stampSync _ len now)
  unfold Terminal.stampSync
  split <;> exact hrecorded.of_same rfl rfl rfl rfl

theorem event [Crates] (hok : t.Ok) (h : t.Accounted) (event : Event) :
    Runs (t.event event) Accounted := by
  cases event with
  | step step =>
    cases step with
    | process len now calls =>
      apply Runs.bind (h.processWithResponses hok len now calls)
      exact fun out hout => .pure hout
    | resize rows cols =>
      obtain ⟨u, hu, haccount⟩ := h.resize hok rows cols
      refine ⟨u, ?_, haccount⟩
      simp only [Terminal.event, Terminal.step, hu]
      rfl
    | enterAlternateScreen => exact .pure (h.enterAlternateScreen hok)
    | leaveAlternateScreen => exact .pure (h.leaveAlternateScreen hok)
    | releaseExpiredSync now => exact .pure (h.releaseExpiredSync now)
  | takeDirtyRegions => exact .pure h.takeDirtyRegions
  | clearScrollback =>
    exact .pure ⟨⟨h.live.count, h.live.light, h.live.few⟩, h.stash, h.spare, h.frozen⟩

end Accounted

theorem run_accounted [Crates] (rows cols : Nat) (config : GridConfig) (events : List Event) :
    Runs (run (withConfig rows cols config) events) Accounted := by
  have hboth := Runs.each (fun t : Terminal => t.Ok ∧ t.Accounted)
    ⟨ok_withConfig rows cols config, accounted_withConfig rows cols config⟩
    fun event (_ : event ∈ events) t h => (h.1.event event).and (h.2.event h.1 event)
  exact hboth.mono fun t h => h.2

/-- The grids of a terminal. -/
def grids (t : Terminal) : List Grid :=
  t.grid :: (t.altGrid.toList ++ t.altSpare.toList ++
    (t.frozenGrid.map fun frozen => frozen.grid).toList)

theorem Accounted.mem_grids (h : t.Accounted) {g : Grid} (hg : g ∈ t.grids) : g.Accounted := by
  rw [grids, List.mem_cons, List.mem_append, List.mem_append, mem_toList,
    mem_toList, mem_toList] at hg
  rcases hg with rfl | (hstash | hspare) | hfrozen
  · exact h.live
  · exact h.stash g hstash
  · exact h.spare g hspare
  · obtain ⟨frozen, hsome, rfl⟩ := Option.map_eq_some_iff.mp hfrozen
    exact h.frozen frozen hsome

/-- In every state of a run each store holds few images, one for each id, counts their bytes
exactly and within its cap, and lists them by their last use; an image that is stored is there
afterwards, and only the front of that list made room for it. Each grid counts the bytes placed
on it exactly and within both caps, and what is subtracted when pictures go never exceeds the
count. -/
theorem run_image_accounting [Crates] (rows cols : Nat) (config : GridConfig)
    (events : List Event) :
    Runs (run (withConfig rows cols config) events) fun t =>
      (∀ alt, (t.graphics.store alt).images.length ≤ maxStoredImages ∧
        (t.graphics.store alt).ids.Nodup ∧
        (t.graphics.store alt).bytes = ImageStore.payloadBytes (t.graphics.store alt).images ∧
        (t.graphics.store alt).bytes ≤ maxImageBytes ∧
        (t.graphics.store alt).ids.Sublist
          (lastUses (usesOf alt (used event eventUses (withConfig rows cols config) events)))) ∧
      (∀ call, Runs (t.call call) fun u => ∀ id image, t.storesImage call = some (id, image) →
        t.store.Stores (u.graphics.store t.modes.alternateScreen) id image) ∧
      (∀ g ∈ t.grids, g.placedBytes = Grid.placementBytes g.placements ∧
        g.placedBytes ≤ maxImageBytes ∧ g.placements.length ≤ maxPlacements) ∧
      ∀ g ∈ t.grids, ∀ gone p, g.unplaceStrict gone = some (g.unplaceWhere gone) ∧
        g.putStrict p = g.put p ∧
        (g.unplaceWhere gone).1.putStrict p = (g.unplaceWhere gone).1.put p := by
  have hrun := (run_stores rows cols config events).and (run_accounted rows cols config events)
  refine hrun.mono ?_
  rintro t ⟨⟨hok, hstores⟩, haccount⟩
  refine ⟨fun alt => ?_, fun call => ?_, fun g hg => ?_, fun g hg gone p => ?_⟩
  · have hkept := hstores alt
    exact ⟨hkept.few, hkept.nodup, hkept.balanced, hkept.light, hkept.recent⟩
  · exact (hok.call_stores hstores call).mono fun u hu => hu.1
  · have hcount := haccount.mem_grids hg
    exact ⟨hcount.count, hcount.light, hcount.few⟩
  · have hcount := haccount.mem_grids hg
    exact ⟨hcount.unplaceStrict gone, hcount.putStrict p, (hcount.unplaceWhere gone).putStrict p⟩

end Terminal

end Shux.Vt
