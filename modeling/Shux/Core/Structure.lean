/-
# References between the maps

The maps of a snapshot refer to each other: a session lists its windows, a window
names its session, and a pane names its window. `Linked` says that these references
agree. `Drawn` says that every id came from the host, which is what makes the next
id a new one. Every effect keeps both.
-/

import Shux.Core.Run

namespace Shux

open FinMap List

variable {R : Type}
variable {panes : FinMap PaneId Pane}

/-- Every id of the snapshot was drawn from the host before the count `n`. -/
structure Drawn [Host] (n : Nat) (s : SessionGraphSnapshot R) : Prop where
  session : ∀ sid x, s.sessions.get sid = some x → Fresh 0 n sid.uuid
  window : ∀ wid w, s.windows.get wid = some w → Fresh 0 n wid.uuid
  pane : ∀ pid p, s.panes.get pid = some p → Fresh 0 n pid.uuid

/-- The references between sessions, windows and panes agree. -/
structure Linked (s : SessionGraphSnapshot R) : Prop where
  session_id : ∀ sid x, s.sessions.get sid = some x → x.id = sid
  window_id : ∀ wid w, s.windows.get wid = some w → w.id = wid
  pane_id : ∀ pid p, s.panes.get pid = some p → p.id = pid
  windows_ne_nil : ∀ sid x, s.sessions.get sid = some x → x.windows ≠ []
  windows_nodup : ∀ sid x, s.sessions.get sid = some x → x.windows.Nodup
  windows_exist : ∀ sid x, s.sessions.get sid = some x → ∀ wid ∈ x.windows,
    ∃ w, s.windows.get wid = some w ∧ w.sessionId = sid
  active_window : ∀ sid x, s.sessions.get sid = some x → x.activeWindow ∈ x.windows
  window_listed : ∀ wid w, s.windows.get wid = some w →
    ∃ x, s.sessions.get w.sessionId = some x ∧ wid ∈ x.windows
  pane_window : ∀ pid p, s.panes.get pid = some p → ∃ w, s.windows.get p.windowId = some w

theorem get_bumpPanes {ids : List PaneId} (hnodup : ids.Nodup) (m : FinMap PaneId Pane)
    (pid : PaneId) :
    (bumpPanes ids m).get pid = if pid ∈ ids then (m.get pid).map Pane.bump else m.get pid := by
  induction ids generalizing m with
  | nil => rfl
  | cons id rest ih =>
    have hstep : bumpPanes (id :: rest) m = bumpPanes rest (m.modify id Pane.bump) := rfl
    obtain ⟨hid, hrest⟩ := List.nodup_cons.mp hnodup
    rw [hstep, ih hrest, get_modify]
    by_cases hpid : pid = id
    · subst hpid
      simp [hid]
    · simp [hpid]

variable {s : SessionGraphSnapshot R}

/-- The panes picked from any listing of them, by id. -/
theorem Linked.mem_ids_filter (h : Linked s) {listed : List Pane}
    (hlisted : listed.Perm s.panes.values) (test : Pane → Bool) (pid : PaneId) :
    pid ∈ (listed.filter test).map (·.id) ↔ ∃ p, s.panes.get pid = some p ∧ test p = true := by
  simp only [mem_map, mem_filter, hlisted.mem_iff, mem_values_iff]
  constructor
  · rintro ⟨p, ⟨⟨k, hk⟩, htest⟩, rfl⟩
    rw [h.pane_id k p hk]
    exact ⟨p, hk, htest⟩
  · rintro ⟨p, hp, htest⟩
    exact ⟨p, ⟨⟨pid, hp⟩, htest⟩, h.pane_id pid p hp⟩

theorem Linked.mem_windowPaneIds (h : Linked s) (wid : WindowId) (pid : PaneId) :
    pid ∈ windowPaneIds s.panes wid ↔ ∃ p, s.panes.get pid = some p ∧ p.windowId = wid := by
  rw [windowPaneIds, h.mem_ids_filter (.refl _)]
  simp

/-- Removing the panes picked from a listing leaves the others. -/
theorem Linked.get_removeAll_filter (h : Linked s)
    {listed : List Pane} (hlisted : listed.Perm s.panes.values) (test : Pane → Bool)
    (pid : PaneId) (p : Pane) :
    (s.panes.removeAll ((listed.filter test).map (·.id))).get pid = some p ↔
      s.panes.get pid = some p ∧ test p = false := by
  rw [get_removeAll]
  simp only [h.mem_ids_filter hlisted]
  cases hp : s.panes.get pid with
  | none => simp
  | some p' =>
    by_cases htest : test p' = true
    · simp only [Option.some.injEq, exists_eq_left', htest, if_true]
      constructor
      · intro hnone
        cases hnone
      · rintro ⟨rfl, hfalse⟩
        rw [htest] at hfalse
        cases hfalse
    · simp only [Option.some.injEq, exists_eq_left', htest]
      constructor
      · intro heq
        simp at heq
        exact ⟨heq, by rw [← heq]; simpa using htest⟩
      · rintro ⟨heq, -⟩
        simp [heq]

theorem Linked.nodup_windowPaneIds (h : Linked s) (wid : WindowId) :
    (windowPaneIds s.panes wid).Nodup := by
  have hkeys := s.panes.map_values_eq_keys (·.id) h.pane_id
  have hsub : (windowPaneIds s.panes wid).Sublist (s.panes.values.map (·.id)) :=
    List.Sublist.map _ filter_sublist
  exact (hkeys ▸ s.panes.keys_nodup).sublist hsub

/-- However the code bumps the panes of a window, each of them is bumped once. -/
theorem Linked.get_of_bumped (h : Linked s) {wid : WindowId}
    {moved : Prop} (hpanes : PanesBumped s wid moved panes) :
    (∀ pid, panes.get pid = (s.panes.get pid).map fun p => if p.windowId = wid then p.bump else p) ∨
    (panes = s.panes ∧ ¬ moved) := by
  rcases hpanes with rfl | rfl | hsame
  · left
    intro pid
    rw [get_bumpPanes (h.nodup_windowPaneIds wid)]
    simp only [h.mem_windowPaneIds]
    cases hp : s.panes.get pid with
    | none => simp
    | some p =>
      by_cases hwid : p.windowId = wid
      · simp [hwid]
      · simp [hwid]
  · left
    intro pid
    rw [get_mapKV]
  · exact Or.inr hsame

section Fresh

variable [Host]

theorem Fresh.ne {lo hi : Nat} {u v : Uuid} (hu : Fresh 0 lo u) (hv : Fresh lo hi v) : u ≠ v := by
  obtain ⟨a, -, ha, rfl⟩ := hu
  obtain ⟨b, hb, -, rfl⟩ := hv
  intro heq
  have := Host.newV4_injective heq
  omega

theorem Fresh.of_lower {lo hi : Nat} {u : Uuid} (h : Fresh lo hi u) : Fresh 0 hi u := by
  obtain ⟨n, -, hhi, heq⟩ := h
  exact ⟨n, Nat.zero_le n, hhi, heq⟩

namespace Drawn

variable {lo hi : Nat} {s s' : SessionGraphSnapshot R}

theorem mono (h : Drawn lo s) (hle : lo ≤ hi) : Drawn hi s where
  session sid x hx := (h.session sid x hx).mono hle
  window wid w hw := (h.window wid w hw).mono hle
  pane pid p hp := (h.pane pid p hp).mono hle

theorem get_session (h : Drawn lo s) {sid : SessionId} (hfresh : Fresh lo hi sid.uuid) :
    s.sessions.get sid = none :=
  Option.eq_none_iff_forall_ne_some.mpr fun x hx => (h.session sid x hx).ne hfresh rfl

theorem get_window (h : Drawn lo s) {wid : WindowId} (hfresh : Fresh lo hi wid.uuid) :
    s.windows.get wid = none :=
  Option.eq_none_iff_forall_ne_some.mpr fun x hx => (h.window wid x hx).ne hfresh rfl

theorem get_pane (h : Drawn lo s) {pid : PaneId} (hfresh : Fresh lo hi pid.uuid) :
    s.panes.get pid = none :=
  Option.eq_none_iff_forall_ne_some.mpr fun x hx => (h.pane pid x hx).ne hfresh rfl

/-- Ids that were there stay drawn, and fresh ids are. -/
theorem of_keys (h : Drawn lo s) (hle : lo ≤ hi)
    (hsessions : ∀ sid, (s'.sessions.get sid).isSome → (s.sessions.get sid).isSome ∨
      Fresh lo hi sid.uuid)
    (hwindows : ∀ wid, (s'.windows.get wid).isSome → (s.windows.get wid).isSome ∨
      Fresh lo hi wid.uuid)
    (hpanes : ∀ pid, (s'.panes.get pid).isSome → (s.panes.get pid).isSome ∨
      Fresh lo hi pid.uuid) : Drawn hi s' where
  session sid x' hx' := by
    rcases hsessions sid (by simp [hx']) with hold | hnew
    · obtain ⟨x, hx⟩ := Option.isSome_iff_exists.mp hold
      exact (h.session sid x hx).mono hle
    · exact hnew.of_lower
  window wid w' hw' := by
    rcases hwindows wid (by simp [hw']) with hold | hnew
    · obtain ⟨w, hw⟩ := Option.isSome_iff_exists.mp hold
      exact (h.window wid w hw).mono hle
    · exact hnew.of_lower
  pane pid p' hp' := by
    rcases hpanes pid (by simp [hp']) with hold | hnew
    · obtain ⟨p, hp⟩ := Option.isSome_iff_exists.mp hold
      exact (h.pane pid p hp).mono hle
    · exact hnew.of_lower

end Drawn
end Fresh

theorem isSome_get_insert {K V : Type} [DecidableEq K] {m : FinMap K V} {k k' : K} {v : V}
    (h : ((m.insert k v).get k').isSome) : (m.get k').isSome ∨ k' = k := by
  rw [get_insert] at h
  split_ifs at h with hk
  · exact Or.inr hk
  · exact Or.inl h

@[simp]
theorem isSome_get_modify {K V : Type} [DecidableEq K] (m : FinMap K V) (k k' : K) (f : V → V) :
    ((m.modify k f).get k').isSome = (m.get k').isSome := by
  rw [get_modify]
  split_ifs
  · simp
  · rfl

theorem isSome_get_remove {K V : Type} [DecidableEq K] {m : FinMap K V} {k k' : K}
    (h : ((m.remove k).get k').isSome) : (m.get k').isSome := by
  rw [get_remove] at h
  split_ifs at h
  · simp at h
  · exact h

theorem isSome_get_removeAll {K V : Type} [DecidableEq K] {m : FinMap K V} {ks : List K} {k' : K}
    (h : ((m.removeAll ks).get k').isSome) : (m.get k').isSome := by
  rw [get_removeAll] at h
  split_ifs at h
  · simp at h
  · exact h

variable [Host] [F32 R]

omit [Host] [F32 R] in
theorem isSome_of_bumped {wid : WindowId} {moved : Prop}
    (hpanes : PanesBumped s wid moved panes) (pid : PaneId) :
    (panes.get pid).isSome = (s.panes.get pid).isSome := by
  rcases hpanes with rfl | rfl | ⟨rfl, -⟩
  · generalize windowPaneIds s.panes wid = ids
    generalize s.panes = m
    induction ids generalizing m with
    | nil => rfl
    | cons id rest ih =>
      have hstep : bumpPanes (id :: rest) m = bumpPanes rest (m.modify id Pane.bump) := rfl
      rw [hstep, ih, isSome_get_modify]
  · rw [get_mapKV, Option.isSome_map]
  · rfl

variable {evs : List EventData}

/-- Every effect keeps the ids drawn. -/
theorem Effect.drawn {kinds : Set Kind} {lo hi : Nat} {s s' : SessionGraphSnapshot R}
    (h : Effect kinds lo hi s s' evs) (hle : lo ≤ hi) (hdrawn : Drawn lo s) :
    Drawn hi s' := by
  cases h with
  | addSession hkind h =>
    cases h with
    | intro at₀ seq hsid hwid hpid hname hfree hprobe hcapacity htitle =>
      refine hdrawn.of_keys hle (fun sid' h => ?_) (fun wid' h => ?_) (fun pid' h => ?_)
      · rcases isSome_get_insert h with hold | rfl
        · exact Or.inl hold
        · exact Or.inr hsid
      · rcases isSome_get_insert h with hold | rfl
        · exact Or.inl hold
        · exact Or.inr hwid
      · rcases isSome_get_insert h with hold | rfl
        · exact Or.inl hold
        · exact Or.inr hpid
  | addWindow hkind h =>
    cases h with
    | intro index hwid hpid hsession htitle hfree hcapacity =>
      refine hdrawn.of_keys hle (fun sid' h => ?_) (fun wid' h => ?_) (fun pid' h => ?_)
      · exact Or.inl (by simpa using h)
      · rcases isSome_get_insert h with hold | rfl
        · exact Or.inl hold
        · exact Or.inr hwid
      · rcases isSome_get_insert h with hold | rfl
        · exact Or.inl hold
        · exact Or.inr hpid
  | addPane hkind h =>
    cases h with
    | intro hpid hwindow hcapacity =>
      refine hdrawn.of_keys hle (fun _ h => Or.inl h) (fun _ h => Or.inl h) (fun pid' h => ?_)
      rcases isSome_get_insert h with hold | rfl
      · exact Or.inl hold
      · exact Or.inr hpid
  | splitPane hkind h =>
    cases h with
    | intro hpid hpane hwindow hcapacity htree =>
      refine hdrawn.of_keys hle (fun _ h => Or.inl h)
        (fun _ h => Or.inl (by simpa [SessionGraphSnapshot.relayout] using h)) (fun pid' h => ?_)
      rcases isSome_get_insert h with hold | rfl
      · exact Or.inl hold
      · exact Or.inr hpid
  | removeSession hkind h =>
    cases h with
    | intro hsession hlisted killed hkilled =>
      exact hdrawn.of_keys hle (fun _ h => Or.inl (isSome_get_remove h))
        (fun _ h => Or.inl (isSome_get_removeAll h))
        (fun _ h => Or.inl (isSome_get_removeAll h))
  | removeWindow hkind h =>
    cases h with
    | intro hwindow hsession hmore hlisted killed hkilled =>
      exact hdrawn.of_keys hle (fun _ h => Or.inl (by simpa using h))
        (fun _ h => Or.inl (isSome_get_remove h))
        (fun _ h => Or.inl (isSome_get_removeAll h))
  | removePane hkind h =>
    cases h with
    | intro listed active hpane hmore hwindow hactive =>
      exact hdrawn.of_keys hle (fun _ h => Or.inl h)
        (fun _ h => Or.inl (by simpa [SessionGraphSnapshot.relayout] using h))
        (fun _ h => Or.inl (isSome_get_remove h))
  | editSession hkind hsession h =>
    exact hdrawn.of_keys hle
      (fun _ h => Or.inl (by simpa [SessionGraphSnapshot.editSession] using h))
      (fun _ h => Or.inl h) (fun _ h => Or.inl h)
  | renameWindow hkind h =>
    cases h with
    | intro hwindow hsession htitle hfree =>
      exact hdrawn.of_keys hle (fun _ h => Or.inl h)
        (fun _ h => Or.inl (by simpa [SessionGraphSnapshot.editWindow] using h))
        (fun _ h => Or.inl h)
  | editPane hkind hpane hkeeps hevs =>
    exact hdrawn.of_keys hle (fun _ h => Or.inl h) (fun _ h => Or.inl h)
      (fun _ h => Or.inl (by simpa [SessionGraphSnapshot.editPane] using h))
  | relayout hkind h =>
    cases h with
    | intro hwindow hmove hpanes hfocus =>
      exact hdrawn.of_keys hle (fun _ h => Or.inl h)
        (fun _ h => Or.inl (by simpa [SessionGraphSnapshot.relayout] using h))
        (fun pid h => Or.inl (by
          rw [← isSome_of_bumped hpanes pid]
          exact h))

/-! ## The references agree -/

section Linked

omit [Host] [F32 R]

variable {s s' : SessionGraphSnapshot R}
variable {sid : SessionId} {wid : WindowId}

/-- Two states of a session with the same windows in any order, the second focused on
one of them if the first is. -/
structure SameWindows (x x' : Session) : Prop where
  id : x'.id = x.id
  windows : x'.windows.Perm x.windows
  active : x.activeWindow ∈ x.windows → x'.activeWindow ∈ x'.windows

theorem SameWindows.refl (x : Session) : SameWindows x x := ⟨rfl, .refl _, fun h => h⟩

/-- Two snapshots with the same entities, each with the same parent. -/
structure SameLinks (s s' : SessionGraphSnapshot R) : Prop where
  session : ∀ sid, Option.Rel SameWindows (s.sessions.get sid) (s'.sessions.get sid)
  window : ∀ wid, (s'.windows.get wid).map (fun w => (w.id, w.sessionId)) =
    (s.windows.get wid).map fun w => (w.id, w.sessionId)
  pane : ∀ pid, (s'.panes.get pid).map (fun p => (p.id, p.windowId)) =
    (s.panes.get pid).map fun p => (p.id, p.windowId)

theorem SameLinks.symm_session (h : SameLinks s s') {x' : Session}
    (hx' : s'.sessions.get sid = some x') :
    ∃ x, s.sessions.get sid = some x ∧ SameWindows x x' := by
  have hrel := h.session sid
  rw [hx'] at hrel
  generalize s.sessions.get sid = found at hrel
  cases hrel with
  | some hsame => exact ⟨_, rfl, hsame⟩

theorem SameLinks.of_session (h : SameLinks s s') {x : Session} (hx : s.sessions.get sid = some x) :
    ∃ x', s'.sessions.get sid = some x' ∧ SameWindows x x' := by
  have hrel := h.session sid
  rw [hx] at hrel
  generalize s'.sessions.get sid = found at hrel
  cases hrel with
  | some hsame => exact ⟨_, rfl, hsame⟩

/-- Two optional values with the same image under `f`. -/
theorem exists_of_map_eq {α β : Type} {f : α → β} {o o' : Option α} {a : α}
    (h : o'.map f = o.map f) (ha : o = some a) : ∃ a', o' = some a' ∧ f a' = f a := by
  rw [ha, Option.map_some, Option.map_eq_some_iff] at h
  exact h

theorem SameLinks.of_window (h : SameLinks s s') {w : Window R} (hw : s.windows.get wid = some w) :
    ∃ w', s'.windows.get wid = some w' ∧ w'.id = w.id ∧ w'.sessionId = w.sessionId := by
  obtain ⟨w', hw', heq⟩ := exists_of_map_eq (h.window wid) hw
  exact ⟨w', hw', congrArg Prod.fst heq, congrArg Prod.snd heq⟩

theorem SameLinks.symm_window (h : SameLinks s s') {w' : Window R}
    (hw' : s'.windows.get wid = some w') :
    ∃ w, s.windows.get wid = some w ∧ w.id = w'.id ∧ w.sessionId = w'.sessionId := by
  obtain ⟨w, hw, heq⟩ := exists_of_map_eq (h.window wid).symm hw'
  exact ⟨w, hw, congrArg Prod.fst heq, congrArg Prod.snd heq⟩

theorem SameLinks.symm_pane (h : SameLinks s s') {pid : PaneId} {p' : Pane}
    (hp' : s'.panes.get pid = some p') :
    ∃ p, s.panes.get pid = some p ∧ p.id = p'.id ∧ p.windowId = p'.windowId := by
  obtain ⟨p, hp, heq⟩ := exists_of_map_eq (h.pane pid).symm hp'
  exact ⟨p, hp, congrArg Prod.fst heq, congrArg Prod.snd heq⟩

theorem Linked.of_same (h : Linked s) (hsame : SameLinks s s') : Linked s' where
  session_id sid x' hx' := by
    obtain ⟨x, hx, hw⟩ := hsame.symm_session hx'
    rw [hw.id, h.session_id sid x hx]
  window_id wid w' hw' := by
    obtain ⟨w, hw, hid, -⟩ := hsame.symm_window hw'
    rw [← hid, h.window_id wid w hw]
  pane_id pid p' hp' := by
    obtain ⟨p, hp, hid, -⟩ := hsame.symm_pane hp'
    rw [← hid, h.pane_id pid p hp]
  windows_ne_nil sid x' hx' := by
    obtain ⟨x, hx, hw⟩ := hsame.symm_session hx'
    intro hnil
    have hperm := hw.windows
    rw [hnil] at hperm
    exact h.windows_ne_nil sid x hx hperm.symm.eq_nil
  windows_nodup sid x' hx' := by
    obtain ⟨x, hx, hw⟩ := hsame.symm_session hx'
    exact hw.windows.nodup_iff.mpr (h.windows_nodup sid x hx)
  windows_exist sid x' hx' wid hmem := by
    obtain ⟨x, hx, hperm⟩ := hsame.symm_session hx'
    obtain ⟨w, hw, hsid⟩ := h.windows_exist sid x hx wid (hperm.windows.mem_iff.mp hmem)
    obtain ⟨w', hw', -, heq⟩ := hsame.of_window hw
    exact ⟨w', hw', heq.trans hsid⟩
  active_window sid x' hx' := by
    obtain ⟨x, hx, hw⟩ := hsame.symm_session hx'
    exact hw.active (h.active_window sid x hx)
  window_listed wid w' hw' := by
    obtain ⟨w, hw, -, hsid⟩ := hsame.symm_window hw'
    obtain ⟨x, hx, hmem⟩ := h.window_listed wid w hw
    obtain ⟨x', hx', hperm⟩ := hsame.of_session hx
    exact ⟨x', hsid ▸ hx', hperm.windows.mem_iff.mpr hmem⟩
  pane_window pid p' hp' := by
    obtain ⟨p, hp, -, hwid⟩ := hsame.symm_pane hp'
    obtain ⟨w, hw⟩ := h.pane_window pid p hp
    obtain ⟨w', hw', -⟩ := hsame.of_window hw
    exact ⟨w', hwid ▸ hw'⟩

section

variable {pid : PaneId} {x : Session} {w : Window R} {p : Pane}

/-- The windows of a session, none before it exists. -/
def SessionGraphSnapshot.windowsOf (s : SessionGraphSnapshot R) (sid : SessionId) : List WindowId :=
  ((s.sessions.get sid).map (·.windows)).getD []

theorem Linked.windowsOf (h : Linked s) (sid : SessionId) :
    (∀ wid ∈ s.windowsOf sid, ∃ w, s.windows.get wid = some w ∧ w.sessionId = sid) ∧
      (s.windowsOf sid).Nodup := by
  unfold SessionGraphSnapshot.windowsOf
  cases hsid : s.sessions.get sid with
  | none => exact ⟨fun _ hmem => absurd hmem not_mem_nil, nodup_nil⟩
  | some x => exact ⟨h.windows_exist sid x hsid, h.windows_nodup sid x hsid⟩

/-- A new window of one new pane at the end of a session's list, the session itself
possibly new. -/
theorem Linked.add_window (h : Linked s) (hnew : s.windows.get wid = none)
    (hsessions : ∀ k, s'.sessions.get k = if k = sid then some x else s.sessions.get k)
    (hwindows : s'.windows = s.windows.insert wid w) (hpanes : s'.panes = s.panes.insert pid p)
    (hx : x.id = sid ∧ x.activeWindow = wid ∧
      x.windows = ((s.sessions.get sid).map (·.windows)).getD [] ++ [wid])
    (hw : w.id = wid ∧ w.sessionId = sid) (hp : p.id = pid ∧ p.windowId = wid) : Linked s' := by
  obtain ⟨hid, hactive, hlist⟩ := hx
  change x.windows = s.windowsOf sid ++ [wid] at hlist
  obtain ⟨hold, hnodup⟩ := h.windowsOf sid
  have hne : ∀ wid' w', s.windows.get wid' = some w' → wid' ≠ wid := by
    rintro wid' w' hw' rfl
    rw [hnew] at hw'
    cases hw'
  have hkeep : ∀ wid' w', s.windows.get wid' = some w' → s'.windows.get wid' = some w' := by
    intro wid' w' hw'
    rw [hwindows, get_insert, if_neg (hne wid' w' hw'), hw']
  have hself : s'.windows.get wid = some w := by rw [hwindows, get_insert_self]
  have hlast : wid ∈ x.windows := hlist ▸ mem_concat_self
  -- each clause: the new entity by hypothesis, the others as before
  exact
    { session_id := forall_of_insert hsessions hid h.session_id
      window_id := hwindows ▸ forall_insert hw.1 h.window_id
      pane_id := hpanes ▸ forall_insert hp.1 h.pane_id
      windows_ne_nil := forall_of_insert hsessions (ne_nil_of_mem hlast) h.windows_ne_nil
      windows_nodup := by
        refine forall_of_insert hsessions ?_ h.windows_nodup
        rw [hlist, nodup_append_comm]
        refine nodup_cons.mpr ⟨fun hmem => ?_, hnodup⟩
        obtain ⟨w', hw', -⟩ := hold wid hmem
        exact hne wid w' hw' rfl
      windows_exist := by
        refine forall_of_insert hsessions (fun wid' hmem => ?_) fun k x' hx' wid' hmem => ?_
        · rw [hlist, mem_append, mem_singleton] at hmem
          rcases hmem with hmem | rfl
          · obtain ⟨w', hw', hsid⟩ := hold wid' hmem
            exact ⟨w', hkeep wid' w' hw', hsid⟩
          · exact ⟨w, hself, hw.2⟩
        · obtain ⟨w', hw', hsid⟩ := h.windows_exist k x' hx' wid' hmem
          exact ⟨w', hkeep wid' w' hw', hsid⟩
      active_window := forall_of_insert hsessions (hactive ▸ hlast) h.active_window
      window_listed := by
        rw [hwindows]
        refine forall_insert ⟨x, by rw [hsessions, if_pos hw.2], hlast⟩ fun wid' w' hw' => ?_
        obtain ⟨x₀, hx₀, hmem⟩ := h.window_listed wid' w' hw'
        rw [hsessions]
        by_cases hsid : w'.sessionId = sid
        · refine ⟨x, if_pos hsid, ?_⟩
          rw [hlist, SessionGraphSnapshot.windowsOf, ← hsid, hx₀]
          exact mem_append_left _ hmem
        · exact ⟨x₀, by rw [if_neg hsid, hx₀], hmem⟩
      pane_window := by
        rw [hpanes]
        refine forall_insert ⟨w, hp.2 ▸ hself⟩ fun k p' hp' => ?_
        obtain ⟨w', hw'⟩ := h.pane_window k p' hp'
        exact ⟨w', hkeep _ w' hw'⟩ }

end

/-- Windows go with their panes. -/
structure WindowsGone (gone : List WindowId) (s s' : SessionGraphSnapshot R) : Prop where
  panes : ∀ pid p, s'.panes.get pid = some p ↔ s.panes.get pid = some p ∧ p.windowId ∉ gone
  windows : ∀ wid w, s'.windows.get wid = some w ↔ s.windows.get wid = some w ∧ wid ∉ gone

/-- Windows go with their panes, and sessions with their last window. -/
theorem Linked.remove_windows (h : Linked s) {gone : List WindowId} (hgone : WindowsGone gone s s')
    (hsessions : ∀ sid x', s'.sessions.get sid = some x' → ∃ x, s.sessions.get sid = some x ∧
      x'.id = x.id ∧ x'.windows = x.windows.filter (fun w => w ∉ gone) ∧
      x'.activeWindow ∈ x'.windows)
    (hkept : ∀ sid x, s.sessions.get sid = some x → (∃ wid ∈ x.windows, wid ∉ gone) →
      ∃ x', s'.sessions.get sid = some x' ∧
        x'.windows = x.windows.filter (fun w => w ∉ gone)) : Linked s' where
  session_id sid x' hx' := by
    obtain ⟨x, hx, hid, -⟩ := hsessions sid x' hx'
    rw [hid, h.session_id sid x hx]
  window_id wid w hw := h.window_id wid w ((hgone.windows wid w).mp hw).1
  pane_id pid p hp := h.pane_id pid p ((hgone.panes pid p).mp hp).1
  windows_ne_nil sid x' hx' := by
    obtain ⟨x, hx, -, -, hactive⟩ := hsessions sid x' hx'
    exact ne_nil_of_mem hactive
  windows_nodup sid x' hx' := by
    obtain ⟨x, hx, -, heq, -⟩ := hsessions sid x' hx'
    rw [heq]
    exact (h.windows_nodup sid x hx).filter _
  windows_exist sid x' hx' wid hmem := by
    obtain ⟨x, hx, -, heq, -⟩ := hsessions sid x' hx'
    rw [heq, mem_filter, decide_eq_true_eq] at hmem
    obtain ⟨w, hw, hsid⟩ := h.windows_exist sid x hx wid hmem.1
    exact ⟨w, (hgone.windows wid w).mpr ⟨hw, hmem.2⟩, hsid⟩
  active_window sid x' hx' := by
    obtain ⟨x, hx, -, -, hactive⟩ := hsessions sid x' hx'
    exact hactive
  window_listed wid w hw := by
    obtain ⟨hw₀, hstays⟩ := (hgone.windows wid w).mp hw
    obtain ⟨x, hx, hmem⟩ := h.window_listed wid w hw₀
    obtain ⟨x', hx', heq⟩ := hkept _ x hx ⟨wid, hmem, hstays⟩
    refine ⟨x', hx', ?_⟩
    rw [heq, mem_filter, decide_eq_true_eq]
    exact ⟨hmem, hstays⟩
  pane_window pid p hp := by
    obtain ⟨hp₀, hstays⟩ := (hgone.panes pid p).mp hp
    obtain ⟨w, hw⟩ := h.pane_window pid p hp₀
    exact ⟨w, (hgone.windows _ w).mpr ⟨hw, hstays⟩⟩

/-- A new pane in a window that is there. -/
theorem Linked.add_pane (h : Linked s) (pid : PaneId) (p : Pane) (hp : p.id = pid)
    (hwindow : ∃ w, s.windows.get p.windowId = some w) :
    Linked { s with panes := s.panes.insert pid p } where
  session_id := h.session_id
  window_id := h.window_id
  pane_id := forall_insert hp h.pane_id
  windows_ne_nil := h.windows_ne_nil
  windows_nodup := h.windows_nodup
  windows_exist := h.windows_exist
  active_window := h.active_window
  window_listed := h.window_listed
  pane_window := forall_insert hwindow h.pane_window

/-- A pane less. -/
theorem Linked.remove_pane (h : Linked s) (pid : PaneId) :
    Linked { s with panes := s.panes.remove pid } where
  session_id := h.session_id
  window_id := h.window_id
  pane_id := forall_remove pid h.pane_id
  windows_ne_nil := h.windows_ne_nil
  windows_nodup := h.windows_nodup
  windows_exist := h.windows_exist
  active_window := h.active_window
  window_listed := h.window_listed
  pane_window := forall_remove pid h.pane_window

/-- Moving a window within its session's list. -/
theorem perm_moveTo (l : List WindowId) {i index : Nat}
    (hi : l.idxOf? wid = some i) (hindex : index < l.length) :
    ((l.eraseIdx i).insertIdx index wid).Perm l := by
  obtain ⟨hlt, hget, -⟩ := idxOf?_eq_some_iff.mp hi
  have hlen : index ≤ (l.eraseIdx i).length := by
    rw [length_eraseIdx_of_lt hlt]
    omega
  have hback := getElem_cons_eraseIdx_perm hlt
  rw [hget] at hback
  exact (perm_insertIdx wid (l.eraseIdx i) hlen).trans hback

end Linked

omit [F32 R] in
theorem SessionEdit.sameWindows {sid : SessionId} {session : Session}
    {edit : Session → Session} (h : SessionEdit s sid session edit evs) :
    SameWindows session (edit session) := by
  cases h with
  | rename hname hfree => exact ⟨rfl, .refl _, fun hmem => hmem⟩
  | decorate => exact ⟨rfl, .refl _, fun hmem => hmem⟩
  | focus hmem => exact ⟨rfl, .refl _, fun _ => hmem⟩
  | @reorder wid index hindex =>
    dsimp only
    cases hi : session.windows.idxOf? wid with
    | none => exact .refl session
    | some i =>
      have hperm := perm_moveTo session.windows hi hindex
      exact ⟨rfl, hperm, fun hmem => hperm.mem_iff.mpr hmem⟩

section Effects

variable {kinds : Set Kind} {lo hi : Nat} {s s' : SessionGraphSnapshot R} {evs : List EventData}
variable {wid : WindowId}

section

omit [Host] [F32 R]

theorem sameWindows_none (s : SessionGraphSnapshot R) (sid : SessionId) :
    Option.Rel SameWindows (s.sessions.get sid) (s.sessions.get sid) := by
  cases s.sessions.get sid with
  | none => exact .none
  | some x => exact .some (.refl x)

/-- A new layout and focus leave every reference of a window alone. -/
theorem Linked.relayout (h : Linked s) (wid : WindowId) (layout : WindowLayout R)
    (active : PaneId) : Linked (s.relayout wid layout active s.panes) := by
  refine h.of_same ⟨sameWindows_none s, fun wid' => ?_, fun _ => rfl⟩
  rw [SessionGraphSnapshot.relayout, get_modify]
  split_ifs
  · rw [Option.map_map]
    rfl
  · rfl

/-- A window is in one session's list only. -/
theorem Linked.session_unique (h : Linked s) {k k' : SessionId} {x x' : Session}
    (hx : s.sessions.get k = some x) (hx' : s.sessions.get k' = some x') (hmem : wid ∈ x.windows)
    (hmem' : wid ∈ x'.windows) : k = k' := by
  obtain ⟨w, hw, hwk⟩ := h.windows_exist k x hx wid hmem
  obtain ⟨w', hw', hwk'⟩ := h.windows_exist k' x' hx' wid hmem'
  rw [hw] at hw'
  cases hw'
  exact hwk.symm.trans hwk'

/-- Taking windows of one session away leaves another session's list alone. -/
theorem Linked.filter_other (h : Linked s) {k k' : SessionId} {x x' : Session}
    {gone : List WindowId} (hx : s.sessions.get k = some x) (hx' : s.sessions.get k' = some x')
    (hne : k ≠ k') (hgone : ∀ wid ∈ gone, wid ∈ x'.windows) :
    x.windows = x.windows.filter fun w => w ∉ gone := by
  refine (List.filter_eq_self.mpr fun wid hmem => ?_).symm
  rw [decide_eq_true_eq]
  intro hin
  exact hne (h.session_unique hx hx' hmem (hgone wid hin))

theorem Linked.gone_of_removesSession (h : Linked s) {sid : SessionId}
    (hremoves : RemovesSession s sid s' evs) :
    ∃ session, s.sessions.get sid = some session ∧ WindowsGone session.windows s s' ∧
      s'.sessions = s.sessions.remove sid := by
  cases hremoves with
  | @intro session listed hsession hlisted killed hkilled =>
    subst hkilled
    refine ⟨session, hsession, ⟨fun pid p => ?_, fun wid w => ?_⟩, rfl⟩
    · rw [h.get_removeAll_filter hlisted]
      simp
    · rw [get_removeAll]
      split_ifs with hmem
      · simp [hmem]
      · simp [hmem]

theorem Linked.of_removesSession (h : Linked s) {sid : SessionId}
    (hremoves : RemovesSession s sid s' evs) : Linked s' := by
  obtain ⟨session, hsession, hgone, hsessions⟩ := h.gone_of_removesSession hremoves
  refine h.remove_windows hgone ?_ ?_
  · intro k x hx
    rw [hsessions, get_remove] at hx
    split_ifs at hx with hk
    exact ⟨x, hx, rfl, h.filter_other hx hsession hk fun _ hmem => hmem, h.active_window k x hx⟩
  · rintro k x hx ⟨wid, hmem, hstays⟩
    have hk : k ≠ sid := by
      rintro rfl
      rw [hsession] at hx
      cases hx
      exact hstays hmem
    exact ⟨x, by rw [hsessions, get_remove, if_neg hk, hx],
      h.filter_other hx hsession hk fun _ hmem => hmem⟩

theorem Linked.gone_of_removesWindow (h : Linked s)
    (hremoves : RemovesWindow s wid s' evs) : WindowsGone [wid] s s' := by
  cases hremoves with
  | @intro window session listed hwindow hsession hmore hlisted killed hkilled =>
    subst hkilled
    refine ⟨fun pid p => ?_, fun k w => ?_⟩
    · rw [h.get_removeAll_filter hlisted]
      simp
    · rw [get_remove]
      split_ifs with hk
      · simp [hk]
      · simp [hk]

/-- What is left of a list of more than one window without one of them. -/
theorem filter_ne_ne_nil {l : List WindowId} (hnodup : l.Nodup) (hmore : 1 < l.length)
    (wid : WindowId) : l.filter (fun w => w ≠ wid) ≠ [] := by
  intro hnil
  have hall : ∀ w ∈ l, w = wid := by
    intro w hw
    by_contra hne
    exact List.filter_eq_nil_iff.mp hnil w hw (by simpa using hne)
  match l, hnodup, hmore, hall with
  | a :: b :: rest, hnodup, hmore, hall =>
    have ha := hall a (by simp)
    have hb := hall b (by simp)
    rw [ha, hb] at hnodup
    simp at hnodup

theorem Linked.of_removesWindow (h : Linked s)
    (hremoves : RemovesWindow s wid s' evs) : Linked s' := by
  have hgone := h.gone_of_removesWindow hremoves
  cases hremoves with
  | @intro window session listed hwindow hsession hmore hlisted killed hkilled =>
    have hmine : wid ∈ session.windows := by
      obtain ⟨x, hx, hmem⟩ := h.window_listed wid window hwindow
      rw [hsession] at hx
      cases hx
      exact hmem
    have hfilter : ∀ l : List WindowId,
        l.filter (fun w => w ∉ [wid]) = l.filter fun w => w ≠ wid := by
      intro l
      simp
    have hother : ∀ k x, s.sessions.get k = some x → k ≠ window.sessionId →
        x.windows = x.windows.filter fun w => w ∉ [wid] := by
      intro k x hx hk
      exact h.filter_other hx hsession hk (by simpa using hmine)
    refine h.remove_windows hgone ?_ ?_
    · intro k x' hx'
      rw [get_modify] at hx'
      split_ifs at hx' with hk
      · subst hk
        rw [hsession] at hx'
        cases hx'
        refine ⟨session, hsession, rfl, (hfilter _).symm, ?_⟩
        have hne := filter_ne_ne_nil (h.windows_nodup _ _ hsession) hmore wid
        dsimp only
        split_ifs with hactive
        · obtain ⟨first, rest, heq⟩ := exists_cons_of_ne_nil hne
          rw [heq]
          simp
        · rw [mem_filter, decide_eq_true_eq]
          exact ⟨h.active_window _ _ hsession, hactive⟩
      · exact ⟨x', hx', rfl, hother k x' hx' hk, h.active_window k x' hx'⟩
    · rintro k x hx -
      rw [get_modify]
      split_ifs with hk
      · rw [hx]
        exact ⟨_, rfl, (hfilter _).symm⟩
      · exact ⟨x, hx, hother k x hx hk⟩

end

/-- Every effect keeps the references in agreement. -/
theorem Effect.linked (h : Effect kinds lo hi s s' evs) (hdrawn : Drawn lo s) (hlinked : Linked s) :
    Linked s' := by
  cases h with
  | addSession hkind h =>
    cases h with
    | intro at₀ seq hsid hwid hpid hname hfree hprobe hcapacity htitle =>
      refine hlinked.add_window (hdrawn.get_window hwid)
        (fun k => get_insert _ _ _ _) rfl rfl ⟨rfl, rfl, ?_⟩ ⟨rfl, rfl⟩ ⟨rfl, rfl⟩
      rw [hdrawn.get_session hsid]
      rfl
  | addWindow hkind h =>
    cases h with
    | @intro sid session wid pid title cwd command index hwid hpid hsession =>
      let after (x : Session) : Session :=
        { x with windows := x.windows ++ [wid], activeWindow := wid, version := x.version + 1 }
      have hsessions : ∀ k, (s.sessions.modify sid after).get k =
          if k = sid then some (after session) else s.sessions.get k := by
        intro k
        rw [get_modify]
        split_ifs with hk
        · rw [hk, hsession]
          rfl
        · rfl
      refine hlinked.add_window (hdrawn.get_window hwid) hsessions rfl rfl ⟨?_, rfl, ?_⟩
        ⟨rfl, rfl⟩ ⟨rfl, rfl⟩
      · exact hlinked.session_id sid session hsession
      · rw [hsession]
        rfl
  | addPane hkind h =>
    cases h with
    | @intro wid window pid cwd command hpid hwindow hcapacity =>
      exact (hlinked.add_pane pid (.withCommand pid wid cwd command) rfl ⟨_, hwindow⟩).of_same
        ⟨sameWindows_none _, fun _ => rfl, fun _ => rfl⟩
  | splitPane hkind h =>
    cases h with
    | @intro pid pane window direction ratio tree cwd command hpid hpane hwindow =>
      exact (hlinked.add_pane pid (.withCommand pid pane.windowId cwd command) rfl
        ⟨_, hwindow⟩).relayout _ _ _
  | removeSession hkind h => exact hlinked.of_removesSession h
  | removeWindow hkind h => exact hlinked.of_removesWindow h
  | removePane hkind h =>
    cases h with
    | intro listed active hpane hmore hwindow hactive =>
      exact (hlinked.remove_pane _).relayout _ _ _
  | @editSession sid session edit evs hkind hsession h =>
    refine hlinked.of_same ⟨fun k => ?_, fun _ => rfl, fun _ => rfl⟩
    rw [SessionGraphSnapshot.editSession, get_modify]
    split_ifs with hk
    · rw [hk, hsession]
      exact .some h.sameWindows
    · exact sameWindows_none s k
  | renameWindow hkind h =>
    cases h with
    | intro hwindow hsession htitle hfree =>
      refine hlinked.of_same ⟨sameWindows_none s, fun k => ?_, fun _ => rfl⟩
      rw [SessionGraphSnapshot.editWindow, get_modify]
      split_ifs
      · rw [Option.map_map]
        rfl
      · rfl
  | editPane hkind hpane hkeeps hevs =>
    refine hlinked.of_same ⟨sameWindows_none s, fun _ => rfl, fun k => ?_⟩
    rw [SessionGraphSnapshot.editPane, get_modify]
    split_ifs
    · rw [Option.map_map]
      cases s.panes.get k with
      | none => rfl
      | some p => exact congrArg some (Prod.ext (hkeeps p).id (hkeeps p).windowId)
    · rfl
  | relayout hkind h =>
    cases h with
    | @intro window layout active panes focusEvents hwindow hmove hpanes hfocus =>
      refine (hlinked.relayout _ layout active).of_same
        ⟨sameWindows_none _, fun _ => rfl, fun k => ?_⟩
      rcases hlinked.get_of_bumped hpanes with hbumped | ⟨rfl, -⟩
      · dsimp only [SessionGraphSnapshot.relayout]
        rw [hbumped]
        cases s.panes.get k with
        | none => rfl
        | some p =>
          simp only [Option.map_some]
          split_ifs <;> rfl
      · rfl

end Effects

/-- What every state of every run satisfies. -/
structure Sound (n : Nat) (s : SessionGraphSnapshot R) : Prop where
  drawn : Drawn n s
  linked : Linked s

theorem Effect.sound {kinds : Set Kind} {lo hi : Nat} {s s' : SessionGraphSnapshot R}
    (h : Effect kinds lo hi s s' evs) (hle : lo ≤ hi) (hsound : Sound lo s) :
    Sound hi s' := ⟨h.drawn hle hsound.drawn, h.linked hsound.drawn hsound.linked⟩

theorem Trace.sound {kinds : Set Kind} {lo hi n : Nat} {s s' : SessionGraphSnapshot R}
    (h : Trace kinds lo hi n s s' evs) (hsound : Sound lo s) :
    Sound hi s' := by
  refine h.invariant Sound ?_ ?_ hsound
  · intro lo hi s hle hs
    exact ⟨hs.drawn.mono hle, hs.linked⟩
  · intro lo hi s s' evs hle heffect hs
    exact heffect.sound hle hs

omit [Host] [F32 R] in
theorem linked_default : Linked (.default : SessionGraphSnapshot R) := by
  constructor <;> intro _ _ h <;> cases h

omit [F32 R] in
theorem sound_default : Sound 0 (.default : SessionGraphSnapshot R) where
  drawn := by constructor <;> intro _ _ h <;> cases h
  linked := linked_default

/-- Every reachable graph is sound. -/
theorem Reachable.sound {g : SessionGraph R} (h : Reachable g) : Sound g.drawn g.state := by
  obtain ⟨cmds, rfl⟩ := h
  obtain ⟨n, evs, hadvances⟩ :=
    run_moves .newWithEventBus cmds fun cmd _ => Set.subset_univ cmd.kinds
  exact hadvances.trace.sound sound_default

end Shux
