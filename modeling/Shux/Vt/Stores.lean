/-
# The images a terminal stores

A store lists its images in the order of their last use. An image that is read, or stored
again, goes to the end; when one more does not fit, images go from the front. Over a run this
makes what goes the least recently used, and the one that came last stays.
-/

import Shux.Lib.Recency
import Shux.Vt.Geometry

namespace Shux.Vt

open Checked Recency List

namespace ImageStore

variable {store : ImageStore} {log : List Nat}
variable (images : List (Nat × StoredImage))

/-- The ids of a store. -/
def ids (store : ImageStore) : List Nat := store.images.map Prod.fst

/-- Whether images are within both bounds of a store. -/
def within (images : List (Nat × StoredImage)) : Bool :=
  decide (images.length ≤ maxStoredImages) && decide (payloadBytes images ≤ maxImageBytes)

/-- A store that counts right, is within its bounds, and lists its ids in the order of the
last uses in a log. -/
structure Kept (log : List Nat) (store : ImageStore) : Prop where
  balanced : store.Balanced
  bounded : within store.images = true
  recent : store.ids.Sublist (lastUses log)

/-- Storing an image takes the one of the same id out, then images from the front, and no
more of them than it must. -/
def Stores (before after : ImageStore) (id : Nat) (image : StoredImage) : Prop :=
  ∃ evicted kept, before.images.filter (fun entry => entry.1 != id) = evicted ++ kept ∧
    after.images = kept ++ [(id, image)] ∧
    ∀ k, k < evicted.length → within (evicted.drop k ++ after.images) = false

theorem kept_empty (log : List Nat) : Kept log empty := ⟨rfl, rfl, nil_sublist _⟩

theorem Kept.few (h : Kept log store) : store.images.length ≤ maxStoredImages := by
  have hwithin := h.bounded
  rw [within, Bool.and_eq_true, decide_eq_true_iff] at hwithin
  exact hwithin.1

theorem Kept.light (h : Kept log store) : store.bytes ≤ maxImageBytes := by
  have hwithin := h.bounded
  rw [within, Bool.and_eq_true, decide_eq_true_iff, decide_eq_true_iff] at hwithin
  exact h.balanced.le.trans hwithin.2

theorem Kept.nodup (h : Kept log store) : store.ids.Nodup := (nodup_lastUses log).sublist h.recent

theorem ids_filter (keep : Nat → Bool) :
    (images.filter fun entry => keep entry.1).map Prod.fst = (images.map Prod.fst).filter keep := by
  rw [filter_map]
  rfl

theorem within_sublist {images images' : List (Nat × StoredImage)} (h : images'.Sublist images)
    (hwithin : within images = true) : within images' = true := by
  rw [within, Bool.and_eq_true, decide_eq_true_iff, decide_eq_true_iff] at *
  have hbytes : payloadBytes images' ≤ payloadBytes images :=
    (h.map _).sum_le_sum fun _ _ => Nat.zero_le _
  exact ⟨h.length_le.trans hwithin.1, hbytes.trans hwithin.2⟩

theorem Kept.retain (h : Kept log store) (keep : Nat → Bool) :
    Runs (store.retain keep) fun out => Kept log out ∧
      out.images = store.images.filter fun entry => keep entry.1 := by
  have hbalanced := h.balanced.retain keep
  have himages : Yields (store.retain keep) fun out =>
      out.images = store.images.filter fun entry => keep entry.1 :=
    .after fun bytes => .pure rfl
  refine (himages.runs hbalanced).mono ?_
  rintro out ⟨hbalanced, himages⟩
  refine ⟨⟨hbalanced, ?_, ?_⟩, himages⟩
  · rw [himages]
    exact within_sublist filter_sublist h.bounded
  · rw [ids, himages, ids_filter]
    exact filter_sublist.trans h.recent

/-- Making room is trimming the front. -/
theorem evict_eq :
    evict images (payloadBytes images) =
      some ⟨Recency.trim within images, payloadBytes (Recency.trim within images)⟩ := by
  induction images with
  | nil => rfl
  | cons entry images ih =>
    have hcons : payloadBytes (entry :: images) =
        entry.2.payload.length + payloadBytes images := sum_cons
    rw [evict, Recency.trim]
    cases hwithin : within (entry :: images) with
    | true =>
      rw [within, Bool.and_eq_true, decide_eq_true_iff, decide_eq_true_iff] at hwithin
      rw [if_pos rfl, if_neg (by omega)]
      rfl
    | false =>
      rw [within, Bool.and_eq_false_iff, decide_eq_false_iff_not, decide_eq_false_iff_not]
        at hwithin
      rw [if_neg Bool.false_ne_true, if_pos (by omega), hcons, Checked.sub,
        if_pos (Nat.le_add_right _ _), Nat.add_sub_cancel_left]
      exact ih

/-- A stored image counts as used, and it is there afterwards. -/
theorem Kept.insert (h : Kept log store) (id : Nat) {image : StoredImage}
    (hlight : image.payload.length ≤ maxImageBytes) :
    Runs (store.insert id image) fun out => Kept (log ++ [id]) out ∧ Stores store out id image := by
  apply Runs.bind (h.retain _)
  rintro rest ⟨hrest, himages⟩
  have hbytes : rest.bytes + image.payload.length =
      payloadBytes (rest.images ++ [(id, image)]) := by
    rw [payloadBytes, map_append, sum_append, hrest.balanced]
    rfl
  have halone : within [(id, image)] = true := by
    rw [within, Bool.and_eq_true, decide_eq_true_iff, decide_eq_true_iff]
    have hone : 1 ≤ maxStoredImages := by decide
    exact ⟨hone, hlight⟩
  rw [hbytes, evict_eq]
  apply Runs.some
  obtain ⟨kept, hkept⟩ := trim_append_singleton halone rest.images
  obtain ⟨gone, hsplit, hneeded⟩ := trim_spec within (rest.images ++ [(id, image)])
  rw [hkept, ← append_assoc] at hsplit
  have hfront : rest.images = gone ++ kept := append_cancel_right hsplit
  refine ⟨⟨rfl, fits_trim rfl _, ?_⟩, gone, kept, himages.symm.trans hfront, hkept, hneeded⟩
  have hids : rest.images.map Prod.fst = store.ids.filter (· != id) := by
    rw [himages]
    exact ids_filter store.images (· != id)
  have hkept' : (kept.map Prod.fst).Sublist (store.ids.filter (· != id)) := by
    rw [← hids, hfront]
    exact (sublist_append_right gone kept).map _
  rw [ids, hkept, map_append]
  exact (hkept'.append_right [id]).trans (sublist_use h.recent id)

/-- An image that is found counts as used. -/
theorem Kept.get (h : Kept log store) (id : Nat) :
    Kept (log ++ ((store.get id).2.map fun _ => id).toList) (store.get id).1 := by
  unfold ImageStore.get
  split
  · rw [Option.map_none, Option.toList_none, append_nil]
    exact h
  · next entry hfind =>
    have hid : entry.1 = id := by
      have hfound := List.find?_some hfind
      exact eq_of_beq hfound
    have hlength : (store.images.eraseP (fun entry => entry.1 == id) ++ [entry]).length =
        store.images.length := by
      have hmem := mem_of_find?_eq_some hfind
      have hpos := length_pos_of_mem hmem
      have hless := length_eraseP_of_mem (p := fun entry => entry.1 == id) hmem
        (beq_iff_eq.mpr hid)
      rw [length_append, length_singleton, hless]
      omega
    have hids : (store.images.eraseP (fun entry => entry.1 == id)).map Prod.fst =
        store.ids.filter (· != id) := by
      rw [← h.nodup.erase_eq_filter, erase_eq_eraseP', ids, eraseP_map]
      rfl
    refine ⟨h.balanced.trans (payloadBytes_moved hfind).symm, ?_, ?_⟩
    · have hwithin := h.bounded
      rw [within] at hwithin ⊢
      rw [hlength, payloadBytes_moved hfind]
      exact hwithin
    · rw [ids, map_append, hids, map_singleton, hid]
      exact sublist_use h.recent id

end ImageStore

namespace Assembler

/-- A completed image is small enough for a store, and comes with the command that opened its
transmission. -/
theorem feed_some [Crates] {assembler : Assembler} {cmd opening : Command}
    {payload : List UInt8} {image : StoredImage}
    (h : (assembler.feed cmd payload).2 = some (image, opening)) :
    image.payload.length ≤ maxImageBytes ∧ (assembler.isOpen = false → opening = cmd) := by
  unfold feed at h
  cases hbytes : Crates.decodeBase64 payload with
  | none =>
    rw [hbytes] at h
    cases h
  | some bytes =>
    rw [hbytes] at h
    dsimp only at h
    split at h
    · cases h
    · next begun hbegun =>
      split at h
      · cases h
      · next hlight =>
        split at h
        · cases h
        · split at h
          · cases h
            refine ⟨?_, fun hclosed => ?_⟩
            · rw [length_append]
              omega
            · rw [openWith, if_pos (Option.isSome_eq_false_iff.mp hclosed)]
          · cases h

end Assembler

/-- The uses on one screen in a log of both. -/
def usesOf (alt : Bool) (log : List (Bool × Nat)) : List Nat :=
  (log.filter fun use => use.1 == alt).map Prod.snd

theorem usesOf_append (alt : Bool) (log log' : List (Bool × Nat)) :
    usesOf alt (log ++ log') = usesOf alt log ++ usesOf alt log' := by
  rw [usesOf, filter_append, map_append]
  rfl

theorem usesOf_same (alt : Bool) (ids : List Nat) :
    usesOf alt (ids.map fun id => (alt, id)) = ids := by
  induction ids with
  | nil => rfl
  | cons id ids ih =>
    unfold usesOf at *
    rw [map_cons, filter_cons, if_pos (BEq.rfl : (alt == alt) = true), map_cons, ih]

theorem usesOf_other {alt alt' : Bool} (hne : alt ≠ alt') (ids : List Nat) :
    usesOf alt' (ids.map fun id => (alt, id)) = [] := by
  unfold usesOf
  rw [map_eq_nil_iff, filter_eq_nil_iff]
  intro use huse heq
  obtain ⟨id, -, rfl⟩ := mem_map.mp huse
  exact hne (eq_of_beq heq)

namespace Terminal

variable {t u : Terminal} {log : List (Bool × Nat)}
variable (sink : GraphicsSink)

/-- The image a command of a transmission completes and stores. -/
def completes [Crates] (t : Terminal) (cmd : Command) (payload : List UInt8) :
    Option (Nat × StoredImage) :=
  match (t.graphics.assembler.feed cmd payload).2 with
  | none => none
  | some (image, opening) =>
    if t.graphics.assembler.isOpen && t.graphics.transferOnAlt != t.modes.alternateScreen then none
    else if opening.imageId = 0 then none
    else some (opening.imageId, image)

/-- The image a call stores. -/
def storesImage [Crates] (t : Terminal) : Call → Option (Nat × StoredImage)
  | .graphics (some cmd) payload =>
    if cmd.action = .transmit ∨ cmd.action = .transmitAndPlace then t.completes cmd payload
    else none
  | _ => none

/-- The stored image a call reads. -/
def readsImage (t : Terminal) : Call → Option Nat
  | .graphics (some cmd) _ =>
    if cmd.action = .put then (t.store.get cmd.imageId).2.map fun _ => cmd.imageId else none
  | _ => none

/-- The images a call uses, all on the screen now showing. -/
def imageUses [Crates] (t : Terminal) (call : Call) : List (Bool × Nat) :=
  (((t.storesImage call).map Prod.fst).toList ++ (t.readsImage call).toList).map
    fun id => (t.modes.alternateScreen, id)

/-- Both stores are kept, each by what was used on its screen. -/
def StoresKept (log : List (Bool × Nat)) (t : Terminal) : Prop :=
  ∀ alt, (t.graphics.store alt).Kept (usesOf alt log)

theorem StoresKept.of_same (h : StoresKept log t)
    (hsame : ∀ alt, u.graphics.store alt = t.graphics.store alt) : StoresKept log u := by
  intro alt
  rw [hsame]
  exact h alt

/-- A store may be emptied at any time. -/
theorem StoresKept.of_cleared (h : StoresKept log t)
    (hsame : ∀ alt, u.graphics.store alt = t.graphics.store alt ∨ u.graphics.store alt = .empty) :
    StoresKept log u := by
  intro alt
  rcases hsame alt with heq | heq
  · rw [heq]
    exact h alt
  · rw [heq]
    exact ImageStore.kept_empty _

theorem store_setStore (alt : Bool) (store : ImageStore) :
    (sink.setStore alt store).store alt = store := by
  cases alt <;> rfl

/-- Nothing else of the sink changes with a store. -/
theorem setStore_rest (alt : Bool) (store : ImageStore) :
    (sink.setStore alt store).assembler = sink.assembler ∧
      (sink.setStore alt store).transferOnAlt = sink.transferOnAlt := by
  cases alt <;> exact ⟨rfl, rfl⟩

theorem store_setStore_other {alt alt' : Bool} (hne : alt ≠ alt')
    (store : ImageStore) : (sink.setStore alt store).store alt' = sink.store alt' := by
  cases alt <;> cases alt' <;> first | rfl | exact absurd rfl hne

/-- The store of the screen now showing, after some uses. -/
theorem StoresKept.setStore (h : StoresKept log t) {store : ImageStore} {ids : List Nat}
    (hstore : store.Kept (usesOf t.modes.alternateScreen log ++ ids)) :
    StoresKept (log ++ ids.map fun id => (t.modes.alternateScreen, id)) (t.setStore store) := by
  intro alt
  show ((t.graphics.setStore t.modes.alternateScreen store).store alt).Kept _
  rw [usesOf_append]
  by_cases heq : t.modes.alternateScreen = alt
  · subst heq
    rw [store_setStore, usesOf_same]
    exact hstore
  · rw [store_setStore_other _ heq, usesOf_other heq, append_nil]
    exact h alt

/-- A store that only lost images. -/
theorem StoresKept.setStore_idle (h : StoresKept log t) {store : ImageStore}
    (hstore : store.Kept (usesOf t.modes.alternateScreen log)) :
    StoresKept log (t.setStore store) := by
  have hnil : store.Kept (usesOf t.modes.alternateScreen log ++ []) := by
    rw [append_nil]
    exact hstore
  have hset := h.setStore hnil
  rwa [map_nil, append_nil] at hset

/-! ## Calls on the images -/

/-- What is left alone by everything that does not write to the stores. -/
structure SameStores (t u : Terminal) : Prop where
  ok : u.Ok
  alternate : u.modes.alternateScreen = t.modes.alternateScreen
  store : ∀ alt, u.graphics.store alt = t.graphics.store alt

theorem graphics_commit (t : Terminal) (h : Handler) : (t.commit h).graphics = t.graphics := by
  rw [Terminal.commit, freeze_eq]

theorem Ok.onScreen_graphics (hok : t.Ok) {f : Handler → Checked Handler} (hf : Handler.Lawful f) :
    Runs (t.onScreen f) fun u =>
      u.Ok ∧ u.modes.alternateScreen = t.modes.alternateScreen ∧ u.graphics = t.graphics := by
  apply Runs.bind (hf _ hok.screen)
  intro h hadv
  exact .pure ⟨hok.commit hadv.toAdvances, hadv.alternate, t.graphics_commit h⟩

theorem Ok.refuse_sameStores (hok : t.Ok) : SameStores t t.refuse where
  ok := hok.sink ⟨hok.balanced.primary, hok.balanced.alt⟩
  alternate := rfl
  store _ := rfl

theorem Ok.placeImage_sameStores (hok : t.Ok) (image : StoredImage) (cmd : Command) :
    Runs (t.placeImage image cmd) (SameStores t) := by
  apply Runs.bind (Screen.Ok.placeImage hok.screen image cmd)
  rintro ⟨h, refused⟩ hadv
  have hcommit := hok.commit hadv.toAdvances
  have hsame : SameStores t (t.commit h) :=
    ⟨hcommit, hadv.alternate, fun alt => by rw [graphics_commit]⟩
  apply Runs.pure
  show SameStores t (if refused then (t.commit h).refuse else t.commit h)
  split
  · exact ⟨hcommit.refuse_sameStores.ok, hadv.alternate, hsame.store⟩
  · exact hsame

/-- What a call that stores one image does to the store of the screen now showing. -/
def StoresOne (t u : Terminal) (stored : Option (Nat × StoredImage)) : Prop :=
  ∀ id image, stored = some (id, image) →
    t.store.Stores (u.graphics.store t.modes.alternateScreen) id image

/-- The first command of a transmission only takes images away, of the id it names. -/
structure Opened (log : List (Bool × Nat)) (t : Terminal) (cmd : Command) (u : Terminal) :
    Prop where
  ok : u.Ok
  alternate : u.modes.alternateScreen = t.modes.alternateScreen
  assembler : u.graphics.assembler = t.graphics.assembler
  elsewhere : (u.graphics.transferOnAlt != t.modes.alternateScreen) =
    (t.graphics.assembler.isOpen && t.graphics.transferOnAlt != t.modes.alternateScreen)
  kept : StoresKept log u
  others : ∀ id, (t.graphics.assembler.isOpen = false → id = cmd.imageId) →
    u.store.images.filter (fun entry => entry.1 != id) =
      t.store.images.filter fun entry => entry.1 != id

theorem Ok.openTransfer_opened (hok : t.Ok) (h : StoresKept log t) (cmd : Command) :
    Runs (t.openTransfer cmd) (Opened log t cmd) := by
  unfold Terminal.openTransfer
  apply Runs.ite
  · intro hopen
    apply Runs.pure
    refine ⟨hok, rfl, rfl, ?_, h, fun _ _ => rfl⟩
    rw [hopen, Bool.true_and]
  · intro hclosed
    rw [Bool.not_eq_true] at hclosed
    have hsink : Ok { t with
        graphics := { t.graphics with transferOnAlt := t.modes.alternateScreen } } :=
      hok.sink ⟨hok.balanced.primary, hok.balanced.alt⟩
    have helsewhere : (t.modes.alternateScreen != t.modes.alternateScreen) =
        (t.graphics.assembler.isOpen && t.graphics.transferOnAlt != t.modes.alternateScreen) := by
      rw [hclosed, Bool.false_and, bne_self_eq_false]
    dsimp only
    apply Runs.ite
    · intro _
      exact .pure ⟨hsink, rfl, rfl, helsewhere, h.of_same fun _ => rfl, fun _ _ => rfl⟩
    · intro _
      apply Runs.bind ((h t.modes.alternateScreen).retain (· != cmd.imageId))
      rintro store ⟨hstore, himages⟩
      have hset : Ok (setStore { t with
          graphics := { t.graphics with transferOnAlt := t.modes.alternateScreen } } store) :=
        hsink.sink (hsink.balanced.setStore _ hstore.balanced)
      have hkept : StoresKept log (setStore { t with
          graphics := { t.graphics with transferOnAlt := t.modes.alternateScreen } } store) := by
        have hbegun : StoresKept log { t with
            graphics := { t.graphics with transferOnAlt := t.modes.alternateScreen } } :=
          h.of_same fun _ => rfl
        exact hbegun.setStore_idle hstore
      refine (hset.onScreen_graphics
        (.pure fun _ hs => hs.setGrid (hs.grid.unplaceWhere _))).mono ?_
      rintro u ⟨hok', halt, hgraphics⟩
      have hshown : u.modes.alternateScreen = t.modes.alternateScreen := halt
      refine ⟨hok', halt, ?_, ?_, hkept.of_same fun alt => by rw [hgraphics], fun id hid => ?_⟩
      · rw [hgraphics]
        exact (setStore_rest _ _ _).1
      · rw [hgraphics, ← helsewhere]
        exact congrArg (· != t.modes.alternateScreen) (setStore_rest _ _ _).2
      · have hu : u.store = store := by
          rw [Terminal.store, hgraphics, hshown]
          exact store_setStore _ _ _
        rw [hu, himages, hid hclosed, filter_filter]
        simp only [Bool.and_self]
        rfl

theorem Ok.finishTransfer_stores (hok : t.Ok) (h : StoresKept log t) {image : StoredImage}
    (hlight : image.payload.length ≤ maxImageBytes) (cmd : Command) :
    let stored := if t.graphics.transferOnAlt != t.modes.alternateScreen then none
      else if cmd.imageId = 0 then none else some (cmd.imageId, image)
    Runs (t.finishTransfer image cmd) fun u => StoresOne t u stored ∧
      StoresKept
        (log ++ (stored.map Prod.fst).toList.map fun id => (t.modes.alternateScreen, id)) u := by
  intro stored
  unfold Terminal.finishTransfer
  apply Runs.ite
  · intro helsewhere
    have hnone : stored = none := if_pos (bne_iff_ne.mpr helsewhere)
    rw [hnone]
    refine .pure ⟨?_, ?_⟩
    · intro id image hsome
      cases hsome
    · rw [Option.map_none, Option.toList_none, map_nil, append_nil]
      exact h.of_same fun _ => rfl
  · intro hhere
    have hstored : stored = if cmd.imageId = 0 then none else some (cmd.imageId, image) := by
      apply if_neg
      rw [bne_iff_ne]
      exact hhere
    have hinsert : Runs
        (if cmd.imageId = 0 then pure t
          else do
            let store ← t.store.insert cmd.imageId image
            pure (t.setStore store)) fun u =>
        u.Ok ∧ u.modes.alternateScreen = t.modes.alternateScreen ∧ StoresOne t u stored ∧
          StoresKept (log ++ (stored.map Prod.fst).toList.map
            fun id => (t.modes.alternateScreen, id)) u := by
      apply Runs.ite
      · intro hzero
        rw [hstored, if_pos hzero, Option.map_none, Option.toList_none, map_nil, append_nil]
        refine .pure ⟨hok, rfl, ?_, h⟩
        intro id image hsome
        cases hsome
      · intro hid
        rw [hstored, if_neg hid]
        apply Runs.bind ((h t.modes.alternateScreen).insert cmd.imageId hlight)
        rintro store ⟨hstore, hstores⟩
        refine .pure ⟨hok.sink (hok.balanced.setStore _ hstore.balanced), rfl, ?_,
          h.setStore hstore⟩
        intro id image hsome
        cases hsome
        show t.store.Stores ((t.graphics.setStore _ store).store _) _ _
        rw [store_setStore]
        exact hstores
    apply Runs.bind hinsert
    rintro u ⟨hok', halt, hone, hkept⟩
    apply Runs.ite
    · intro _
      refine (hok'.placeImage_sameStores image cmd).mono fun v hsame => ⟨?_, ?_⟩
      · intro id image hsome
        rw [hsame.store]
        exact hone id image hsome
      · exact hkept.of_same hsame.store
    · exact fun _ => .pure ⟨hone, hkept⟩

theorem Ok.transmit_stores [Crates] (hok : t.Ok) (h : StoresKept log t) (cmd : Command)
    (payload : List UInt8) :
    Runs (t.transmit cmd payload) fun u => StoresOne t u (t.completes cmd payload) ∧
      StoresKept (log ++ ((t.completes cmd payload).map Prod.fst).toList.map
        fun id => (t.modes.alternateScreen, id)) u := by
  apply Runs.bind (hok.openTransfer_opened h cmd)
  intro u hu
  rw [hu.assembler]
  dsimp only
  have hfed : Ok { u with
      graphics := { u.graphics with assembler := (t.graphics.assembler.feed cmd payload).1 } } :=
    hu.ok.sink ⟨hu.ok.balanced.primary, hu.ok.balanced.alt⟩
  cases hdone : (t.graphics.assembler.feed cmd payload).2 with
  | none =>
    have hnone : t.completes cmd payload = none := by rw [completes, hdone]
    rw [hnone]
    refine .pure ⟨?_, ?_⟩
    · intro id image hsome
      cases hsome
    · rw [Option.map_none, Option.toList_none, map_nil, append_nil]
      exact hu.kept.of_same fun _ => rfl
  | some done =>
    obtain ⟨image, opening⟩ := done
    obtain ⟨hlight, hopening⟩ := Assembler.feed_some hdone
    have hcompletes : t.completes cmd payload =
        if u.graphics.transferOnAlt != u.modes.alternateScreen then none
        else if opening.imageId = 0 then none else some (opening.imageId, image) := by
      rw [completes, hdone, hu.alternate, hu.elsewhere]
    have hfinish := hfed.finishTransfer_stores (hu.kept.of_same fun _ => rfl) hlight opening
    refine hfinish.mono ?_
    rintro v ⟨hone, hkept⟩
    have hshown : u.modes.alternateScreen = t.modes.alternateScreen := hu.alternate
    rw [hcompletes, ← hshown]
    refine ⟨?_, hkept⟩
    intro id image' hsome
    obtain ⟨evicted, kept, hfront, hrest⟩ := hone id image' hsome
    have hid : opening.imageId = id := by
      split at hsome
      · cases hsome
      · split at hsome
        · cases hsome
        · cases hsome
          rfl
    refine ⟨evicted, kept, ?_, ?_⟩
    · rw [← hfront]
      exact (hu.others id fun hclosed => by rw [← hid, hopening hclosed]).symm
    · rw [← hshown]
      exact hrest

theorem Ok.putImage_stores (hok : t.Ok) (h : StoresKept log t) (cmd : Command) :
    Runs (t.putImage cmd) fun u => StoresKept (log ++
      ((t.store.get cmd.imageId).2.map fun _ => cmd.imageId).toList.map
        fun id => (t.modes.alternateScreen, id)) u := by
  have hget : ImageStore.Kept (usesOf t.modes.alternateScreen log ++
      ((t.store.get cmd.imageId).2.map fun _ => cmd.imageId).toList)
      (t.store.get cmd.imageId).1 := (h t.modes.alternateScreen).get cmd.imageId
  unfold Terminal.putImage
  generalize t.store.get cmd.imageId = found at hget ⊢
  obtain ⟨store, image⟩ := found
  have hset := h.setStore hget
  cases image with
  | none => exact .pure (hset.of_same fun _ => rfl)
  | some image =>
    have hok' : (t.setStore store).Ok := hok.sink (hok.balanced.setStore _ hget.balanced)
    exact (hok'.placeImage_sameStores image cmd).mono fun u hsame => hset.of_same hsame.store

theorem Ok.deleteImages_stores (hok : t.Ok) (h : StoresKept log t) (cmd : Command) :
    Runs (t.deleteImages cmd) (StoresKept log) := by
  unfold Terminal.deleteImages
  split
  · exact .pure (h.of_same fun _ => rfl)
  · apply Runs.bind (hok.onScreen_graphics
      (.pure fun _ hs => hs.setGrid (hs.grid.unplaceWhere _)))
    rintro u ⟨hok', halt, hgraphics⟩
    have hu : StoresKept log u := h.of_same fun alt => by rw [hgraphics]
    apply Runs.ite
    · intro _
      apply Runs.bind ((hu u.modes.alternateScreen).retain _)
      rintro store ⟨hstore, -⟩
      exact .pure (hu.setStore_idle hstore)
    · exact fun _ => .pure hu

/-- A command on the images uses what it stores and what it reads. -/
theorem Ok.dispatchGraphics_stores [Crates] (hok : t.Ok) (h : StoresKept log t)
    (cmd : Option Command) (payload : List UInt8) :
    Runs (t.dispatchGraphics cmd payload) fun u =>
      StoresOne t u (t.storesImage (.graphics cmd payload)) ∧
        StoresKept (log ++ t.imageUses (.graphics cmd payload)) u := by
  have hidle {u : Terminal} {stored : Option (Nat × StoredImage)} {uses : List (Bool × Nat)}
      (hstored : stored = none) (huses : uses = []) (hu : StoresKept log u) :
      StoresOne t u stored ∧ StoresKept (log ++ uses) u := by
    rw [hstored, huses, append_nil]
    refine ⟨?_, hu⟩
    intro id image hsome
    cases hsome
  cases cmd with
  | none => exact .pure (hidle rfl rfl (h.of_same fun _ => rfl))
  | some cmd =>
    have htransmit (haction : cmd.action = .transmit ∨ cmd.action = .transmitAndPlace) :
        t.storesImage (.graphics (some cmd) payload) = t.completes cmd payload ∧
          t.imageUses (.graphics (some cmd) payload) =
            ((t.completes cmd payload).map Prod.fst).toList.map
              fun id => (t.modes.alternateScreen, id) := by
      have hstored : t.storesImage (.graphics (some cmd) payload) = t.completes cmd payload :=
        if_pos haction
      have hread : t.readsImage (.graphics (some cmd) payload) = none := by
        apply if_neg
        rcases haction with haction | haction <;> rw [haction] <;> decide
      refine ⟨hstored, ?_⟩
      rw [imageUses, hstored, hread, Option.toList_none, append_nil]
    have hquiet (hstores : ¬(cmd.action = .transmit ∨ cmd.action = .transmitAndPlace))
        (hreads : cmd.action ≠ .put) {u : Terminal} (hu : StoresKept log u) :
        StoresOne t u (t.storesImage (.graphics (some cmd) payload)) ∧
          StoresKept (log ++ t.imageUses (.graphics (some cmd) payload)) u := by
      have hnone : t.storesImage (.graphics (some cmd) payload) = none := if_neg hstores
      have hunread : t.readsImage (.graphics (some cmd) payload) = none := if_neg hreads
      refine hidle hnone ?_ hu
      rw [imageUses, hnone, hunread]
      rfl
    unfold Terminal.dispatchGraphics
    dsimp only
    cases haction : cmd.action with
    | transmit =>
      rw [(htransmit (.inl haction)).1, (htransmit (.inl haction)).2]
      exact hok.transmit_stores h cmd payload
    | transmitAndPlace =>
      rw [(htransmit (.inr haction)).1, (htransmit (.inr haction)).2]
      exact hok.transmit_stores h cmd payload
    | put =>
      have hnone : t.storesImage (.graphics (some cmd) payload) = none :=
        if_neg (by rw [haction]; decide)
      have huses : t.imageUses (.graphics (some cmd) payload) =
          ((t.store.get cmd.imageId).2.map fun _ => cmd.imageId).toList.map
            fun id => (t.modes.alternateScreen, id) := by
        rw [imageUses, hnone, readsImage, if_pos haction]
        rfl
      rw [hnone, huses]
      refine (hok.putImage_stores h cmd).mono fun u hu => ⟨?_, hu⟩
      intro id image hsome
      cases hsome
    | delete =>
      apply Runs.bind (hok.deleteImages_stores h cmd)
      intro u hu
      exact .pure (hquiet (by rw [haction]; decide) (by rw [haction]; decide)
        (hu.of_same fun _ => rfl))
    | query =>
      refine .pure (hquiet (by rw [haction]; decide) (by rw [haction]; decide) ?_)
      split
      · exact h
      · exact h.of_same fun _ => rfl
    | animation => exact .pure (hquiet (by rw [haction]; decide) (by rw [haction]; decide) h)

/-- A full reset empties both stores. -/
theorem Ok.store_fullReset (hok : t.Ok) :
    Yields t.fullReset fun u => ∀ alt, u.graphics.store alt = .empty := by
  rw [(fullReset_eq hok.parked).2]
  refine .after fun u => .pure fun alt => ?_
  cases alt <;> rfl

/-- A screen switch empties the store of the alternate screen. -/
theorem store_entered (t : Terminal) (parks : Bool) (alt : Bool) :
    (t.entered parks).graphics.store alt = t.graphics.store alt ∨
      (t.entered parks).graphics.store alt = .empty := by
  rw [entered_eq]
  cases alt with
  | false => exact .inl rfl
  | true => exact .inr rfl

theorem Ok.store_left (hok : t.Ok) (halt : t.modes.alternateScreen = true) (parks : Bool)
    (alt : Bool) :
    (t.left parks).graphics.store alt = t.graphics.store alt ∨
      (t.left parks).graphics.store alt = .empty := by
  obtain ⟨primary, hprimary⟩ := hok.exists_parked halt
  rw [left_eq hprimary]
  cases alt with
  | false => exact .inl rfl
  | true => exact .inr rfl

theorem graphics_freezeForSwitch (t : Terminal) : t.freezeForSwitch.graphics = t.graphics := by
  rw [freezeForSwitch, freezeForSwap, freezeAltFlag_eq, freeze_eq]

theorem graphics_freezeWholePresentation (t : Terminal) :
    t.freezeWholePresentation.graphics = t.graphics := by
  unfold freezeWholePresentation
  rw [freezeAltFlag_eq, freeze_eq]

theorem graphics_setSynchronizedOutput (t : Terminal) (enable : Bool) :
    (t.setSynchronizedOutput enable).graphics = t.graphics := by
  cases enable with
  | false => rfl
  | true =>
    exact hold_cases (fun _ => rfl) (fun _ => graphics_freezeWholePresentation _) fun _ => rfl

/-- Calls that are no command on the images leave the stores alone or empty them. -/
theorem screenBisim_stores (log : List (Bool × Nat)) :
    ScreenBisim (fun _ => True) fun t u => u = t ∧ t.Ok ∧ StoresKept log t where
  alternate := by
    rintro t _ ⟨rfl, -⟩
    rfl
  screen := by
    rintro _ t f hf ⟨rfl, hok, h⟩
    refine Both.of_runs ((hok.onScreen_graphics hf).mono ?_)
    rintro u ⟨hok', -, hgraphics⟩
    exact ⟨hok', h.of_same fun alt => by rw [hgraphics]⟩
  enter := by
    rintro _ t parks - hprimary ⟨rfl, hok, h⟩
    have hok' := preserves_ok.mirrors.echoes.screenBisim.enter parks trivial hprimary ⟨rfl, hok⟩
    rw [setAlternateScreen_swapEnter]
    rw [setAlternateScreen_swapEnter] at hok'
    have hfrozen : StoresKept log t.freezeForSwitch :=
      h.of_same fun alt => by rw [graphics_freezeForSwitch]
    exact ⟨rfl, hok'.2, hfrozen.of_cleared (store_entered _ parks)⟩
  leave := by
    rintro _ t parks - halt ⟨rfl, hok, h⟩
    obtain ⟨primary, hprimary⟩ := hok.exists_parked halt
    have hok' := preserves_ok.mirrors.echoes.screenBisim.leave parks trivial halt ⟨rfl, hok⟩
    have hswap := setAlternateScreen_swapLeave (t.altGrid_freezeForSwap.trans hprimary) parks
    rw [hswap]
    rw [hswap] at hok'
    have hfrozen : StoresKept log t.freezeForSwitch :=
      h.of_same fun alt => by rw [graphics_freezeForSwitch]
    have hcleared := (hok.freeze _).freezeAltFlag.store_left
      (t.alternate_freezeForSwitch.trans halt) parks
    exact ⟨rfl, hok'.2, hfrozen.of_cleared hcleared⟩
  hold := by
    rintro _ t - ⟨rfl, hok, h⟩
    exact ⟨rfl, hok.hold, h.of_same fun alt => by rw [graphics_setSynchronizedOutput]⟩
  release := by
    rintro _ t - ⟨rfl, hok, h⟩
    exact ⟨rfl, hok.release, h.of_same fun alt => by rw [graphics_setSynchronizedOutput]⟩
  reset := by
    rintro _ t - ⟨rfl, hok, h⟩
    have hreset := preserves_ok.mirrors.echoes.screenBisim.reset trivial ⟨rfl, hok⟩
    refine Both.of_runs ((hok.store_fullReset.runs hreset.left).mono ?_)
    rintro u ⟨⟨_, -, -, hok'⟩, hempty⟩
    exact ⟨hok', h.of_cleared fun alt => .inr (hempty alt)⟩

/-- A call keeps both stores by what it uses. -/
theorem Ok.call_stores [Crates] (hok : t.Ok) (h : StoresKept log t) (c : Call) :
    Runs (t.call c) fun u => StoresOne t u (t.storesImage c) ∧ u.Ok ∧
      StoresKept (log ++ t.imageUses c) u := by
  cases hgraphics : c.isGraphics with
  | true =>
    cases c with
    | graphics cmd payload =>
      have hok' := preserves_ok.call hok (.graphics cmd payload) fun _ _ => trivial
      refine ((hok.dispatchGraphics_stores h cmd payload).and hok').mono ?_
      rintro u ⟨⟨hone, hkept⟩, hok'⟩
      exact ⟨hone, hok', hkept⟩
    | _ => cases hgraphics
  | false =>
    have hnone : t.storesImage c = none ∧ t.imageUses c = [] := by
      cases c with
      | graphics cmd payload => cases hgraphics
      | _ => exact ⟨rfl, rfl⟩
    have hcall := (screenBisim_stores log).call ⟨rfl, hok, h⟩ c hgraphics fun _ _ => trivial
    refine hcall.left.mono ?_
    rintro u ⟨_, -, -, hok', hkept⟩
    rw [hnone.1, hnone.2, append_nil]
    refine ⟨?_, hok', hkept⟩
    intro id image hsome
    cases hsome

/-- The images an event uses; only a batch has calls. -/
def eventUses [Crates] (t : Terminal) : Event → List (Bool × Nat)
  | .step (.process _ _ calls) =>
      used call imageUses { t.releaseOverfull with responses := [] } calls
  | _ => []

theorem Ok.process_stores [Crates] (hok : t.Ok) (h : StoresKept log t) (len now : Nat)
    (calls : List Call) :
    Runs (t.processWithResponses len now calls) fun out =>
      StoresKept (log ++ used call imageUses { t.releaseOverfull with responses := [] } calls)
        out.1 := by
  have hstart : StoresKept log { t.releaseOverfull with responses := [] } := by
    refine h.of_same fun alt => ?_
    show t.releaseOverfull.graphics.store alt = _
    unfold Terminal.releaseOverfull
    split <;> rfl
  have hrun : Runs (each calls { t.releaseOverfull with responses := [] } call) fun u =>
      u.Ok ∧ StoresKept
        (log ++ used call imageUses { t.releaseOverfull with responses := [] } calls) u :=
    runs_used (I := fun log t => t.Ok ∧ StoresKept log t)
    (fun c hI => (hI.1.call_stores hI.2 c).mono fun _ hu => hu.2)
    ⟨hok.releaseOverfull.clearResponses, hstart⟩ calls
  apply Runs.bind hrun
  rintro after ⟨-, hafter⟩
  refine .pure (hafter.of_same fun alt => ?_)
  rw [recordBatch_eq]
  unfold Terminal.stampSync
  split <;> rfl

theorem graphics_resize (hok : t.Ok) (rows cols : Nat) :
    Runs (t.resize rows cols) fun u => u.graphics = t.graphics := by
  obtain ⟨grid, cursor, altGrid, altCursor, heq, -⟩ :=
    (hok.resizeStart (t.resizes (max rows 1) (max cols 1))).resizeScreens
      (le_max_right rows 1) (le_max_right cols 1)
  rw [resize_eq, heq _ rfl rfl rfl]
  apply Runs.some
  have hstart : (t.resizeStart (t.resizes (max rows 1) (max cols 1))).graphics = t.graphics := by
    unfold Terminal.resizeStart
    dsimp only
    split <;> rfl
  unfold Terminal.resizeEnd
  dsimp only
  split <;> exact hstart

theorem Ok.event_stores [Crates] (hok : t.Ok) (h : StoresKept log t) (event : Event) :
    Runs (t.event event) fun u => u.Ok ∧ StoresKept (log ++ t.eventUses event) u := by
  refine ((hok.event event).and ?_).mono fun u hu => hu
  have hidle {u : Terminal} (hu : StoresKept log u) : StoresKept (log ++ []) u := by
    rw [append_nil]
    exact hu
  have hbegun : StoresKept log { t.freezeWholePresentation with activeGraphemeCell := none } :=
    h.of_same fun alt => congrArg (fun sink => sink.store alt) t.graphics_freezeWholePresentation
  cases event with
  | step step =>
    cases step with
    | process len now calls =>
      apply Runs.bind (hok.process_stores h len now calls)
      exact fun out hout => .pure hout
    | resize rows cols =>
      obtain ⟨u, hu, hgraphics⟩ := graphics_resize hok rows cols
      refine ⟨u, ?_, hidle (h.of_same fun alt => by rw [hgraphics])⟩
      simp only [Terminal.event, Terminal.step, hu]
      rfl
    | enterAlternateScreen =>
      refine .pure (hidle ?_)
      unfold Terminal.enterAlternateScreen
      dsimp only
      split
      · exact hbegun
      · exact hbegun.of_cleared (store_entered _ true)
    | leaveAlternateScreen =>
      refine .pure (hidle ?_)
      have hclear := hok.freezeWholePresentation.clearActive
      unfold Terminal.leaveAlternateScreen
      dsimp only
      split
      · next halt => exact hbegun.of_cleared (hclear.store_left halt true)
      · exact hbegun
    | releaseExpiredSync now =>
      refine .pure (hidle (h.of_same fun alt => ?_))
      unfold Terminal.releaseExpiredSync
      split
      · dsimp only
        split <;> rfl
      · rfl
  | takeDirtyRegions =>
    refine .pure (hidle (h.of_same fun alt => ?_))
    unfold Terminal.takeDirtyRegions
    split <;> rfl
  | clearScrollback => exact .pure (hidle (h.of_same fun alt => rfl))

theorem storesKept_withConfig (rows cols : Nat) (config : GridConfig) :
    StoresKept [] (withConfig rows cols config) := by
  intro alt
  cases alt <;> exact ImageStore.kept_empty _

/-- Both stores of a terminal are kept, by all that the run used. -/
theorem run_stores [Crates] (rows cols : Nat) (config : GridConfig) (events : List Event) :
    Runs (run (withConfig rows cols config) events) fun t =>
      t.Ok ∧ StoresKept (used event eventUses (withConfig rows cols config) events) t := by
  have hrun : Runs (each events (withConfig rows cols config) event) fun t =>
      t.Ok ∧ StoresKept ([] ++ used event eventUses (withConfig rows cols config) events) t :=
    runs_used (I := fun log t => t.Ok ∧ StoresKept log t) (fun e hI => hI.1.event_stores hI.2 e)
    ⟨ok_withConfig rows cols config, storesKept_withConfig rows cols config⟩ events
  rw [nil_append] at hrun
  exact hrun

end Terminal

end Shux.Vt
