/-
# Session capacity

A session holds a bounded number of panes, and a bounded number of bytes of commands
and directories. The code counts both whenever a pane is about to appear, saturating
as it adds; within the bounds nothing saturates, so the count is the sum. Panes keep
their command, their directory and their session for as long as they live, so a bound
checked when a pane appears holds until the next one does.
-/

import Shux.Core.Naming
import Shux.Core.LayoutVersions

namespace Shux

open SessionGraphSnapshot FinMap

variable {R : Type}

/-- The bytes of a pane's command and directory. -/
def Pane.bytes (p : Pane) : Nat := paneBytes p.command p.cwd

/-- What the panes of a session weigh together. -/
def SessionGraphSnapshot.held (s : SessionGraphSnapshot R) (sid : SessionId)
    (weight : Pane → Nat) : Nat :=
  s.panes.total fun p => if s.sessionOf p.windowId = some sid then weight p else 0

/-- No session holds more panes, or more bytes, than it may. -/
structure Bounded (s : SessionGraphSnapshot R) : Prop where
  panes : ∀ sid, s.held sid (fun _ => 1) ≤ maxPanesPerSession
  bytes : ∀ sid, s.held sid Pane.bytes ≤ maxSessionPaneBytes

theorem saturatingAdd_min (a b : Nat) :
    saturatingAdd (min a usizeMax) b = min (a + b) usizeMax := by
  rw [saturatingAdd]
  omega

/-- The count over a list of panes, from any start below saturation. -/
theorem foldl_usage (l : List Pane) (test : Pane → Bool) (n b : Nat) :
    (l.filter test).foldl
      (fun acc p => (acc.1 + 1, saturatingAdd acc.2 (paneBytes p.command p.cwd)))
        (n, min b usizeMax) =
      (n + (l.map fun p => if test p then 1 else 0).sum,
        min (b + (l.map fun p => if test p then p.bytes else 0).sum) usizeMax) := by
  induction l generalizing n b with
  | nil => simp
  | cons p rest ih =>
    cases htest : test p with
    | false =>
      rw [List.filter_cons_of_neg (by simp [htest]), ih]
      simp [htest]
    | true =>
      have hadd : saturatingAdd (min b usizeMax) (paneBytes p.command p.cwd) =
          min (b + p.bytes) usizeMax := saturatingAdd_min b p.bytes
      rw [List.filter_cons_of_pos htest, List.foldl_cons, hadd, ih]
      simp only [List.map_cons, List.sum_cons, htest, if_true]
      rw [Nat.add_assoc, Nat.add_assoc]

theorem sessionUsage_eq (s : SessionGraphSnapshot R) (sid : SessionId) :
    sessionUsage s sid = (s.held sid (fun _ => 1), min (s.held sid Pane.bytes) usizeMax) := by
  have hfold := foldl_usage s.panes.values
    (fun p => decide (s.sessionOf p.windowId = some sid)) 0 0
  simp only [Nat.zero_min, Nat.zero_add, decide_eq_true_eq] at hfold
  rw [sessionUsage, hfold]
  rfl

/-- A check that passed left room for the pane it was about. -/
theorem room_of_check {s : SessionGraphSnapshot R} {sid : SessionId} {command : List Str}
    {cwd : PathBuf} (h : checkSessionCapacity s sid command cwd = .ok ()) :
    s.held sid (fun _ => 1) + 1 ≤ maxPanesPerSession ∧
      s.held sid Pane.bytes + paneBytes command cwd ≤ maxSessionPaneBytes := by
  simp only [checkSessionCapacity, sessionUsage_eq] at h
  split_ifs at h with hcount hbytes
  have hsmall : maxSessionPaneBytes < usizeMax := by decide
  rw [saturatingAdd] at hbytes
  constructor
  · omega
  · omega

section Keep

variable {s s' : SessionGraphSnapshot R}
variable {sid : SessionId} {wid : WindowId}

/-- Every pane was there before, with the same command and directory, and is in the
session it was in or in none. -/
def Retained (s s' : SessionGraphSnapshot R) (panes : FinMap PaneId Pane) : Prop :=
  ∀ pid p', panes.get pid = some p' → ∃ p, s.panes.get pid = some p ∧
    p'.command = p.command ∧ p'.cwd = p.cwd ∧
    ∀ sid, s'.sessionOf p'.windowId = some sid → s.sessionOf p.windowId = some sid

theorem Retained.total_le {panes : FinMap PaneId Pane} (h : Retained s s' panes) (sid : SessionId)
    (weight : Pane → Nat)
    (hweight : ∀ p p' : Pane, p'.command = p.command → p'.cwd = p.cwd → weight p' = weight p) :
    (panes.total fun p => if s'.sessionOf p.windowId = some sid then weight p else 0) ≤
      s.held sid weight := by
  apply total_le_total
  intro pid p' hp'
  obtain ⟨p, hp, hcommand, hcwd, hsession⟩ := h pid p' hp'
  refine ⟨p, hp, ?_⟩
  by_cases hin : s'.sessionOf p'.windowId = some sid
  · rw [if_pos hin, if_pos (hsession sid hin), hweight p p' hcommand hcwd]
  · rw [if_neg hin]
    exact Nat.zero_le _

theorem Pane.bytes_congr (p p' : Pane) (hcommand : p'.command = p.command) (hcwd : p'.cwd = p.cwd) :
    p'.bytes = p.bytes := by
  rw [Pane.bytes, Pane.bytes, hcommand, hcwd]

theorem Bounded.of_retained (h : Bounded s) (hretained : Retained s s' s'.panes) : Bounded s' where
  panes sid := (hretained.total_le sid (fun _ => 1) fun _ _ _ _ => rfl).trans (h.panes sid)
  bytes sid := (hretained.total_le sid Pane.bytes Pane.bytes_congr).trans (h.bytes sid)

/-- A new pane in a session that has room for it. -/
theorem Bounded.add_pane (h : Bounded s) (sid₀ : SessionId) {pid : PaneId}
    {command : List Str} {cwd : PathBuf} (hnew : s.panes.get pid = none)
    (hpanes : s'.panes = s.panes.insert pid (.withCommand pid wid cwd command))
    (hretained : Retained s s' s.panes) (hsession : s'.sessionOf wid = some sid₀)
    (hcount : s.held sid₀ (fun _ => 1) + 1 ≤ maxPanesPerSession)
    (hbytes : s.held sid₀ Pane.bytes + paneBytes command cwd ≤ maxSessionPaneBytes) :
    Bounded s' := by
  have hbound : ∀ (weight : Pane → Nat) (bound : Nat),
      (∀ p p' : Pane, p'.command = p.command → p'.cwd = p.cwd → weight p' = weight p) →
      (∀ sid, s.held sid weight ≤ bound) →
      s.held sid₀ weight + weight (.withCommand pid wid cwd command) ≤ bound →
      ∀ sid, s'.held sid weight ≤ bound := by
    intro weight bound hweight hold hroom sid
    have hrest := hretained.total_le sid weight hweight
    rw [held, hpanes, total_insert _ _ _ hnew]
    have hwindow : s'.sessionOf (Pane.withCommand pid wid cwd command).windowId = some sid₀ :=
      hsession
    rw [hwindow]
    by_cases hsid : some sid₀ = some sid
    · cases hsid
      rw [if_pos rfl]
      omega
    · rw [if_neg hsid, Nat.zero_add]
      exact hrest.trans (hold sid)
  exact ⟨hbound (fun _ => 1) _ (fun _ _ _ _ => rfl) h.panes hcount,
    hbound Pane.bytes _ Pane.bytes_congr h.bytes hbytes⟩

/-- A session without windows holds nothing. -/
theorem held_eq_zero (hnone : ∀ wid w, s.windows.get wid = some w →
    w.sessionId ≠ sid) (weight : Pane → Nat) : s.held sid weight = 0 := by
  have hout : ∀ p : Pane, s.sessionOf p.windowId ≠ some sid := by
    intro p hin
    obtain ⟨w, hw, hsid⟩ := Option.map_eq_some_iff.mp hin
    exact hnone _ w hw hsid
  simp [held, total, hout]

/-- Windows that are still there are in the session they were in. -/
theorem sessionOf_of_sub (hwindows : ∀ w', s'.windows.get wid = some w' →
      ∃ w, s.windows.get wid = some w ∧ w'.sessionId = w.sessionId)
    (h : s'.sessionOf wid = some sid) : s.sessionOf wid = some sid := by
  obtain ⟨w', hw', rfl⟩ := Option.map_eq_some_iff.mp h
  obtain ⟨w, hw, hsid⟩ := hwindows w' hw'
  rw [sessionOf, hw, Option.map_some, hsid]

theorem sessionOf_relayout (s : SessionGraphSnapshot R) (wid k : WindowId)
    (layout : WindowLayout R) (active : PaneId) (panes : FinMap PaneId Pane) :
    (s.relayout wid layout active panes).sessionOf k = s.sessionOf k := by
  rw [sessionOf, SessionGraphSnapshot.relayout, get_modify]
  split_ifs
  · rw [Option.map_map]
    rfl
  · rfl

theorem sessionOf_insert {w : Window R} {k : WindowId}
    (hwindows : s'.windows = s.windows.insert wid w) (hk : k ≠ wid)
    (h : s'.sessionOf k = some sid) :
    s.sessionOf k = some sid := by
  rw [sessionOf, hwindows, get_insert, if_neg hk] at h
  exact h

end Keep

section Effects

variable [Host] [F32 R] {s s' : SessionGraphSnapshot R}

section

omit [Host] [F32 R]

/-- The panes that were there before a window came are in the sessions they were in. -/
theorem Linked.retained_of_insert (h : Linked s) {wid : WindowId} {w : Window R}
    (hnew : s.windows.get wid = none) (hwindows : s'.windows = s.windows.insert wid w) :
    Retained s s' s.panes := by
  intro pid p hp
  refine ⟨p, hp, rfl, rfl, fun sid hsid => ?_⟩
  have hne : p.windowId ≠ wid := by
    rintro rfl
    obtain ⟨w', hw'⟩ := h.pane_window pid p hp
    rw [hnew] at hw'
    cases hw'
  exact sessionOf_insert hwindows hne hsid

theorem retained_of_gone {gone : List WindowId} (hgone : WindowsGone gone s s') :
    Retained s s' s'.panes := by
  intro pid p hp
  refine ⟨p, ((hgone.panes pid p).mp hp).1, rfl, rfl, fun sid hsid => ?_⟩
  refine sessionOf_of_sub (fun w hw => ?_) hsid
  exact ⟨w, ((hgone.windows _ w).mp hw).1, rfl⟩

end

theorem Effect.bounded {kinds : Set Kind} {lo hi : Nat} {evs : List EventData}
    (h : Effect kinds lo hi s s' evs) (hdrawn : Drawn lo s) (hlinked : Linked s)
    (hbounded : Bounded s) : Bounded s' := by
  cases h with
  | addSession hkind h =>
    cases h with
    | @intro sid probe wid pid name title cwd command at₀ seq hsid hwid hpid hname hfree hprobe
        hcapacity htitle =>
        have hempty : ∀ k w, s.windows.get k = some w → w.sessionId ≠ sid := by
          rintro k w hw rfl
          obtain ⟨x, hx, -⟩ := hlinked.window_listed k w hw
          rw [hdrawn.get_session hsid] at hx
          cases hx
        -- The check counted a session that does not exist; the new one is as empty.
        obtain ⟨hcount, hbytes⟩ := room_of_check hcapacity
        refine hbounded.add_pane sid (hdrawn.get_pane hpid) rfl
          (hlinked.retained_of_insert (hdrawn.get_window hwid) rfl) ?_ ?_ ?_
        · simp [sessionOf, Window.new]
        all_goals
          rw [held_eq_zero hempty]
          omega
  | addWindow hkind h =>
    cases h with
    | intro index hwid hpid hsession htitle hfree hcapacity =>
      obtain ⟨hcount, hbytes⟩ := room_of_check hcapacity
      refine hbounded.add_pane _ (hdrawn.get_pane hpid) rfl
        (hlinked.retained_of_insert (hdrawn.get_window hwid) rfl) ?_ hcount hbytes
      simp [sessionOf, Window.new]
  | addPane hkind h =>
    cases h with
    | intro hpid hwindow hcapacity =>
      obtain ⟨hcount, hbytes⟩ := room_of_check hcapacity
      refine hbounded.add_pane _ (hdrawn.get_pane hpid) rfl ?_ ?_ hcount hbytes
      · exact fun pid p hp => ⟨p, hp, rfl, rfl, fun _ hsid => hsid⟩
      · rw [sessionOf, bumped, hwindow]
        rfl
  | splitPane hkind h =>
    cases h with
    | intro hpid hpane hwindow hcapacity htree =>
      obtain ⟨hcount, hbytes⟩ := room_of_check hcapacity
      refine hbounded.add_pane _ (hdrawn.get_pane hpid) rfl ?_ ?_ hcount hbytes
      · intro pid p hp
        refine ⟨p, hp, rfl, rfl, fun sid hsid => ?_⟩
        rwa [sessionOf_relayout] at hsid
      · rw [sessionOf_relayout, sessionOf, hwindow]
        rfl
  | removeSession hkind h =>
    obtain ⟨session, -, hgone, -⟩ := hlinked.gone_of_removesSession h
    exact hbounded.of_retained (retained_of_gone hgone)
  | removeWindow hkind h =>
    exact hbounded.of_retained (retained_of_gone (hlinked.gone_of_removesWindow h))
  | removePane hkind h =>
    cases h with
    | intro listed active hpane hmore hwindow hactive =>
      refine hbounded.of_retained fun k p hp => ?_
      rw [SessionGraphSnapshot.relayout, get_remove] at hp
      split_ifs at hp
      refine ⟨p, hp, rfl, rfl, fun sid hsid => ?_⟩
      rwa [sessionOf_relayout] at hsid
  | editSession hkind hsession h =>
    exact hbounded.of_retained fun pid p hp => ⟨p, hp, rfl, rfl, fun _ hsid => hsid⟩
  | @renameWindow wid _ _ hkind h =>
    cases h with
    | intro hwindow hsession htitle hfree =>
      refine hbounded.of_retained fun pid p hp => ⟨p, hp, rfl, rfl, fun sid hsid => ?_⟩
      refine sessionOf_of_sub (fun w' hw' => ?_) hsid
      rw [editWindow, get_modify] at hw'
      split_ifs at hw' with hk
      · obtain ⟨w, hw, rfl⟩ := Option.map_eq_some_iff.mp hw'
        exact ⟨w, hw, rfl⟩
      · exact ⟨w', hw', rfl⟩
  | @editPane pid pane edit _ hkind hpane hkeeps hevs =>
    refine hbounded.of_retained fun k p' hp' => ?_
    rw [SessionGraphSnapshot.editPane, get_modify] at hp'
    split_ifs at hp' with hk
    · obtain ⟨p, hp, rfl⟩ := Option.map_eq_some_iff.mp hp'
      have hplace := hkeeps p
      refine ⟨p, hp, hplace.command, hplace.cwd, fun sid hsid => ?_⟩
      rwa [hplace.windowId] at hsid
    · exact ⟨p', hp', rfl, rfl, fun _ hsid => hsid⟩
  | relayout hkind h =>
    cases h with
    | @intro window layout active panes focusEvents hwindow hmove hpanes hfocus =>
      refine hbounded.of_retained fun k p' hp' => ?_
      replace hp' : panes.get k = some p' := hp'
      rcases hlinked.get_of_bumped hpanes with hbumped | ⟨rfl, -⟩
      · rw [hbumped] at hp'
        obtain ⟨p, hp, rfl⟩ := Option.map_eq_some_iff.mp hp'
        refine ⟨p, hp, by split_ifs <;> rfl, by split_ifs <;> rfl, fun sid hsid => ?_⟩
        rw [sessionOf_relayout] at hsid
        split_ifs at hsid
        · exact hsid
        · exact hsid
      · refine ⟨p', hp', rfl, rfl, fun sid hsid => ?_⟩
        rwa [sessionOf_relayout] at hsid

end Effects

section Runs

variable {s s' : SessionGraphSnapshot R}

/-- Every window has a pane of its own, so a session has no more windows than panes. -/
theorem Peopled.windows_le (h : Peopled s) (hlinked : Linked s) {sid : SessionId} {x : Session}
    (hx : s.sessions.get sid = some x) : x.windows.length ≤ s.held sid fun _ => 1 := by
  have hsub : x.windows ⊆ (s.panes.values.filter fun p =>
      s.sessionOf p.windowId = some sid).map (·.windowId) := by
    intro wid hmem
    obtain ⟨w, hw, hsid⟩ := hlinked.windows_exist sid x hx wid hmem
    obtain ⟨pid, p, hp, hpw⟩ := h wid w hw
    refine List.mem_map.mpr ⟨p, List.mem_filter.mpr ⟨?_, ?_⟩, hpw⟩
    · exact (mem_values_iff _ _).mpr ⟨pid, hp⟩
    · rw [decide_eq_true_eq, sessionOf, hpw, hw, Option.map_some, hsid]
  have hle := ((hlinked.windows_nodup sid x hx).subperm hsub).length_le
  rw [List.length_map, length_filter_values] at hle
  simpa [held] using hle

variable [Host] [F32 R]

/-- Names, titles and capacity. -/
structure Limited (s : SessionGraphSnapshot R) : Prop extends Named s, Bounded s

theorem Trace.limited {kinds : Set Kind} {lo hi n : Nat} {evs : List EventData}
    (h : Trace kinds lo hi n s s' evs) (hsound : Sound lo s) (hlimited : Limited s) :
    Limited s' := by
  have hboth := h.invariant (fun n s => Sound n s ∧ Limited s) ?_ ?_ ⟨hsound, hlimited⟩
  · exact hboth.2
  · rintro lo hi s hle ⟨hs, hl⟩
    exact ⟨⟨hs.drawn.mono hle, hs.linked⟩, hl⟩
  · rintro lo hi s s' evs hle heffect ⟨hs, hl⟩
    exact ⟨heffect.sound hle hs, heffect.named hs.drawn hs.linked hl.toNamed,
      heffect.bounded hs.drawn hs.linked hl.toBounded⟩

omit [F32 R] in
theorem limited_default : Limited (.default : SessionGraphSnapshot R) where
  names_distinct := by intro _ _ _ _ h; cases h
  name_valid := by intro _ _ h; cases h
  titles_distinct := by intro _ _ _ _ h; cases h
  title_good := by intro _ _ h; cases h
  panes _ := Nat.zero_le _
  bytes _ := Nat.zero_le _

/-- After any commands, answered or refused: session names are valid and distinct; the
titles of a session's windows are distinct, nonempty, short, left alone by the
sanitizer and no window numbers; no session holds too many panes or bytes; and the
default title of a new window is found whatever titles are taken. -/
theorem run_limits (cmds : List (GraphCommand R)) :
    let s := (SessionGraph.newWithEventBus.run cmds : SessionGraph R).state
    (∀ sid sid' x x', s.sessions.get sid = some x → s.sessions.get sid' = some x' →
      x.name = x'.name → sid = sid') ∧
    (∀ sid x, s.sessions.get sid = some x → validateSessionName x.name = .ok ()) ∧
    (∀ sid x, s.sessions.get sid = some x → ∀ wid ∈ x.windows, ∀ wid' ∈ x.windows, ∀ w w',
      s.windows.get wid = some w → s.windows.get wid' = some w' → w.title = w'.title →
        wid = wid') ∧
    (∀ wid w, s.windows.get wid = some w → w.title ≠ [] ∧ sanitizeTitle w.title = w.title ∧
      w.title.length ≤ 128 ∧ ¬ (∀ c ∈ w.title, c.isDigit)) ∧
    (∀ sid, s.held sid (fun _ => 1) ≤ 1024 ∧
      s.held sid (fun p => paneBytes p.command p.cwd) ≤ 4 * 1024 * 1024) ∧
    (∀ sid command cwd, FindsTitle s sid command cwd) ∧
    ∀ (t : SessionGraphSnapshot R) sid command cwd,
      (∀ x, t.sessions.get sid = some x → x.windows.length < 2 ^ 32 - 1) →
        FindsTitle t sid command cwd := by
  intro s
  obtain ⟨n, evs, hadvances⟩ :=
    run_moves (.newWithEventBus : SessionGraph R) cmds fun cmd _ => Set.subset_univ cmd.kinds
  have hsound : Sound _ s := hadvances.trace.sound sound_default
  have hlimited : Limited s := hadvances.trace.limited sound_default limited_default
  have hpeopled : Peopled s := hadvances.trace.peopled sound_default fun _ _ h => by cases h
  refine ⟨hlimited.names_distinct, hlimited.name_valid, ?_, ?_, ?_, ?_, ?_⟩
  · intro sid x hx wid hwid wid' hwid' w w' hw hw' htitle
    have hhome : ∀ k ∈ x.windows, ∀ v, s.windows.get k = some v → v.sessionId = sid := by
      intro k hk v hv
      obtain ⟨v', hv', hsid⟩ := hsound.linked.windows_exist sid x hx k hk
      rw [hv] at hv'
      cases hv'
      exact hsid
    refine hlimited.titles_distinct wid wid' w w' hw hw' ?_
    rw [Window.label, Window.label, htitle, hhome wid hwid w hw, hhome wid' hwid' w' hw']
  · intro wid w hw
    obtain ⟨hclean, hne, hlen, hnumber⟩ := (goodTitle_iff _).mp (hlimited.title_good wid w hw)
    refine ⟨hne, hclean, hlen, fun hdigits => ?_⟩
    rw [isWindowNumber, List.all_eq_true.mpr hdigits] at hnumber
    simp [hne] at hnumber
  · exact fun sid => ⟨hlimited.panes sid, hlimited.bytes sid⟩
  · intro sid command cwd
    refine findsTitle_of_few s command cwd fun x hx => ?_
    have hwindows := hpeopled.windows_le hsound.linked hx
    have hpanes : s.held sid (fun _ => 1) ≤ 1024 := hlimited.panes sid
    omega
  · exact fun t sid command cwd hfew => findsTitle_of_few t command cwd hfew

end Runs

end Shux
