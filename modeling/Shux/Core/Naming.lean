/-
# Names and titles

Sessions have valid names, no two the same; the windows of one session have titles
that pass validation unchanged, no two the same. The checks stand in the operations
that name something, and everything else leaves names alone.

A window that is given no title gets the first numbered candidate that is free. The
candidates differ from each other and no session has as many windows as there are
candidates, so the search ends with one.
-/

import Shux.Core.Structure

namespace Shux

open SessionGraphSnapshot FinMap

variable {R : Type}

/-- What tells a window apart by name: its session and its title. -/
def Window.label (w : Window R) : SessionId × Str := (w.sessionId, w.title)

/-- Names and titles are valid, and tell sessions and windows apart. -/
structure Named [Host] (s : SessionGraphSnapshot R) : Prop where
  names_distinct : s.sessions.DistinctBy Session.name
  name_valid : ∀ sid x, s.sessions.get sid = some x → validateSessionName x.name = .ok ()
  titles_distinct : s.windows.DistinctBy Window.label
  title_good : ∀ wid w, s.windows.get wid = some w → GoodTitle w.title

/-- The second map holds nothing new, and labels as the first does. -/
def Labelled {K V L : Type} [DecidableEq K] (label : V → L) (m m' : FinMap K V) : Prop :=
  ∀ k v', m'.get k = some v' → ∃ v, m.get k = some v ∧ label v' = label v

namespace Labelled

variable {K V L : Type} [DecidableEq K] {label : V → L}
variable (m : FinMap K V)

theorem refl : Labelled label m m := fun _ v h => ⟨v, h, rfl⟩

theorem modify (k : K) {f : V → V} (hf : ∀ v, label (f v) = label v) :
    Labelled label m (m.modify k f) := by
  intro k' v' hv'
  rw [get_modify] at hv'
  split_ifs at hv' with hk
  · obtain ⟨v, hv, rfl⟩ := Option.map_eq_some_iff.mp hv'
    exact ⟨v, hv, hf v⟩
  · exact ⟨v', hv', rfl⟩

theorem remove (k : K) : Labelled label m (m.remove k) := forall_remove k (refl m)

theorem removeAll (ks : List K) : Labelled label m (m.removeAll ks) := forall_removeAll ks (refl m)

/-- What holds of every label still does. -/
theorem forall_label {P : L → Prop} {m m' : FinMap K V} (h : Labelled label m m')
    (hm : ∀ k v, m.get k = some v → P (label v)) : ∀ k v', m'.get k = some v' → P (label v') := by
  intro k v' hv'
  obtain ⟨v, hv, heq⟩ := h k v' hv'
  rw [heq]
  exact hm k v hv

end Labelled

section Keep

variable [Host] {s s' : SessionGraphSnapshot R}
variable {sid : SessionId}

theorem Named.name_valid_of_labelled (h : Named s) {sessions : FinMap SessionId Session}
    (hsessions : Labelled Session.name s.sessions sessions) :
    ∀ sid x, sessions.get sid = some x → validateSessionName x.name = .ok () :=
  hsessions.forall_label (P := fun name => validateSessionName name = .ok ()) h.name_valid

theorem Named.of_labelled (h : Named s) (hsessions : Labelled Session.name s.sessions s'.sessions)
    (hwindows : Labelled Window.label s.windows s'.windows) : Named s' where
  names_distinct := h.names_distinct.of_sub hsessions
  name_valid := h.name_valid_of_labelled hsessions
  titles_distinct := h.titles_distinct.of_sub hwindows
  title_good := hwindows.forall_label (P := fun l => GoodTitle l.2) h.title_good

section

omit [Host]

theorem labelled_relayout (s : SessionGraphSnapshot R) (wid : WindowId) (layout : WindowLayout R)
    (active : PaneId) (panes : FinMap PaneId Pane) :
    Labelled Window.label s.windows (s.relayout wid layout active panes).windows :=
  .modify s.windows wid fun _ => rfl

theorem name_ne_of_free {name : Str} (hfree : s.sessionNameExists name = false)
    {x : Session} (hx : s.sessions.get sid = some x) : x.name ≠ name := by
  intro heq
  rw [sessionNameExists, List.any_eq_false] at hfree
  exact hfree x ((mem_values_iff _ _).mpr ⟨sid, hx⟩) (decide_eq_true heq)

/-- A free title differs from the titles of all windows of the session. -/
theorem Linked.title_ne_of_free (h : Linked s) {title : Str}
    (hgood : GoodTitle title) (hfree : s.windowNameExistsInSession sid title = false)
    {wid : WindowId} {w : Window R} (hw : s.windows.get wid = some w) (hsid : w.sessionId = sid) :
    w.title ≠ title := by
  intro heq
  obtain ⟨x, hx, hmem⟩ := h.window_listed wid w hw
  rw [hsid] at hx
  have hclean := ((goodTitle_iff title).mp hgood).1
  rw [SessionGraphSnapshot.windowNameExistsInSession, SessionGraphSnapshot.findWindowByName, hx,
    Option.isSome_eq_false_iff, Option.isNone_iff_eq_none] at hfree
  simp only [hclean, List.find?_eq_none, List.mem_filterMap, decide_eq_true_eq] at hfree
  exact hfree w ⟨wid, hmem, hw⟩ heq

end

theorem Named.of_session_edit (h : Named s) {session : Session}
    {edit : Session → Session} {evs : List EventData} (hsession : s.sessions.get sid = some session)
    (hedit : SessionEdit s sid session edit evs) : Named (s.editSession sid edit) := by
  cases hedit with
  | @rename name hname hfree =>
    constructor
    · exact h.names_distinct.modify hsession fun _ x hx _ => name_ne_of_free hfree hx
    · intro k x' hx'
      rw [SessionGraphSnapshot.editSession, get_modify] at hx'
      split_ifs at hx' with hk
      · obtain ⟨x, -, rfl⟩ := Option.map_eq_some_iff.mp hx'
        exact hname
      · exact h.name_valid k x' hx'
    · exact h.titles_distinct
    · exact h.title_good
  | decorate | focus hmem => exact h.of_labelled (.modify _ sid fun _ => rfl) (.refl _)
  | reorder hindex =>
    refine h.of_labelled (.modify _ sid fun x => ?_) (.refl _)
    split
    · rfl
    · rfl

theorem Named.of_renamesWindow (h : Named s) (hlinked : Linked s) {wid : WindowId}
    {evs : List EventData} (hrenames : RenamesWindow s wid s' evs) : Named s' := by
  cases hrenames with
  | @intro window session title hwindow hsession htitle hfree =>
    constructor
    · exact h.names_distinct
    · exact h.name_valid
    · refine h.titles_distinct.modify hwindow fun other w hw hne heq => ?_
      obtain ⟨hsid, hsame⟩ := Prod.mk.inj heq
      obtain ⟨x, hx, hmem⟩ := hlinked.window_listed other w hw
      rw [hsid, hsession] at hx
      cases hx
      exact hfree other hmem hne w hw hsame
    · intro k w' hw'
      rw [editWindow, get_modify] at hw'
      split_ifs at hw' with hk
      · obtain ⟨w, -, rfl⟩ := Option.map_eq_some_iff.mp hw'
        exact htitle
      · exact h.title_good k w' hw'

/-- A new window whose title no window of its session has. -/
theorem Named.add_window (h : Named s) (wid : WindowId) (sid : SessionId) (pid : PaneId)
    {title : Str} (hgood : GoodTitle title)
    (hfree : ∀ k w, s.windows.get k = some w → w.sessionId = sid → w.title ≠ title) :
    (s.windows.insert wid (.new wid sid title pid)).DistinctBy Window.label ∧
      ∀ k w, (s.windows.insert wid (.new wid sid title pid)).get k = some w →
        GoodTitle w.title := by
  have hclean : (Window.new wid sid title pid : Window R).title = title :=
    ((goodTitle_iff title).mp hgood).1
  constructor
  · refine h.titles_distinct.insert fun k w hw _ heq => ?_
    obtain ⟨hsid, htitle⟩ := Prod.mk.inj heq
    exact hfree k w hw hsid (htitle.trans hclean)
  · exact forall_insert (hclean.symm ▸ hgood) h.title_good

end Keep

section Effects

variable [Host] [F32 R] {s s' : SessionGraphSnapshot R}

theorem Effect.named {kinds : Set Kind} {lo hi : Nat} {evs : List EventData}
    (h : Effect kinds lo hi s s' evs) (hdrawn : Drawn lo s) (hlinked : Linked s)
    (hnamed : Named s) : Named s' := by
  cases h with
  | addSession hkind h =>
    cases h with
    | @intro sid probe wid pid name title cwd command at₀ seq hsid hwid hpid hname hfree hprobe
        hcapacity htitle =>
        -- No window belongs to a session that is only now drawn.
        have hnew : ∀ k w, s.windows.get k = some w → w.sessionId = sid → w.title ≠ title := by
          rintro k w hw rfl
          obtain ⟨x, hx, -⟩ := hlinked.window_listed k w hw
          rw [hdrawn.get_session hsid] at hx
          cases hx
        obtain ⟨hdistinct, hgood⟩ := hnamed.add_window wid sid pid htitle hnew
        refine ⟨?_, ?_, hdistinct, hgood⟩
        · exact hnamed.names_distinct.insert fun _ x hx _ => name_ne_of_free hfree hx
        · exact forall_insert hname hnamed.name_valid
  | addWindow hkind h =>
    cases h with
    | @intro sid session wid pid title cwd command index hwid hpid hsession htitle hfree
        hcapacity =>
        obtain ⟨hdistinct, hgood⟩ := hnamed.add_window wid sid pid htitle
          fun k w hw hsid => hlinked.title_ne_of_free htitle hfree hw hsid
        have hsessions : Labelled Session.name s.sessions (s.sessions.modify sid fun s =>
            { s with windows := s.windows ++ [wid], activeWindow := wid,
                     version := s.version + 1 }) := .modify _ sid fun _ => rfl
        exact ⟨hnamed.names_distinct.of_sub hsessions, hnamed.name_valid_of_labelled hsessions,
          hdistinct, hgood⟩
  | addPane hkind h =>
    cases h with
    | intro hpid hwindow hcapacity => exact hnamed.of_labelled (.refl _) (.refl _)
  | splitPane hkind h =>
    cases h with
    | intro => exact hnamed.of_labelled (.refl _) (labelled_relayout s _ _ _ _)
  | removeSession hkind h =>
    cases h with
    | intro => exact hnamed.of_labelled (.remove _ _) (.removeAll _ _)
  | removeWindow hkind h =>
    cases h with
    | intro => exact hnamed.of_labelled (.modify _ _ fun _ => rfl) (.remove _ _)
  | removePane hkind h =>
    cases h with
    | intro => exact hnamed.of_labelled (.refl _) (labelled_relayout s _ _ _ _)
  | editSession hkind hsession h => exact hnamed.of_session_edit hsession h
  | renameWindow hkind h => exact hnamed.of_renamesWindow hlinked h
  | editPane hkind hpane hkeeps hevs => exact hnamed.of_labelled (.refl _) (.refl _)
  | relayout hkind h =>
    cases h with
    | intro => exact hnamed.of_labelled (.refl _) (labelled_relayout s _ _ _ _)

end Effects

namespace SessionGraphSnapshot

theorem titleCandidate_injOn (base : Str) : Set.InjOn (titleCandidate base) (Set.Ici 1) := by
  have hlong : ∀ n, base ++ '-' :: Nat.toDigits 10 n ≠ base := by
    intro n heq
    have hlen := congrArg List.length heq
    simp at hlen
  intro m hm n hn heq
  rw [Set.mem_Ici] at hm hn
  simp only [titleCandidate] at heq
  split_ifs at heq with hm1 hn1 hn1
  · omega
  · exact absurd heq.symm (hlong n)
  · exact absurd heq (hlong m)
  · have hdigits : Nat.toDigits 10 m = Nat.toDigits 10 n :=
      (List.cons.inj (List.append_cancel_left heq)).2
    have hback := congrArg (fun l => Nat.ofDigitChars 10 l 0) hdigits
    simpa only [Nat.ofDigitChars_ten_toDigits] using hback

/-- With fewer windows in the session than the counter counts, some candidate is free. -/
theorem exists_searchWindowTitle (s : SessionGraphSnapshot R) {sid : SessionId} {base : Str}
    (hgood : GoodTitle base) (hlen : base.length ≤ maxTitleChars)
    (hfew : ∀ x, s.sessions.get sid = some x → x.windows.length < 2 ^ 32 - 1) :
    ∃ title, s.searchWindowTitle sid base = some title := by
  obtain ⟨names, hnames, hcount⟩ : ∃ names : List Str,
      (∀ title, GoodTitle title → s.windowNameExistsInSession sid title = true → title ∈ names) ∧
        names.length < 2 ^ 32 - 1 := by
    cases hx : s.sessions.get sid with
    | none =>
      refine ⟨[], fun title _ htaken => ?_, by decide⟩
      simp [windowNameExistsInSession, findWindowByName, hx] at htaken
    | some x =>
      refine ⟨(x.windows.filterMap s.windows.get).map (·.title), fun title ht htaken => ?_, ?_⟩
      · rw [windowNameExistsInSession, findWindowByName, hx, List.find?_isSome] at htaken
        obtain ⟨w, hw, heq⟩ := htaken
        rw [decide_eq_true_eq, ((goodTitle_iff title).mp ht).1] at heq
        exact List.mem_map.mpr ⟨w, hw, heq⟩
      · rw [List.length_map]
        exact (List.length_filterMap_le _ _).trans_lt (hfew x hx)
  refine FirstFree.exists_search_eq_some names ?_ (titleCandidate_injOn base) hcount
  intro n hn htaken
  exact hnames _ (goodTitle_titleCandidate hgood hlen (by omega)) htaken

end SessionGraphSnapshot

/-- The default title of a new window is found, and it is good and free. -/
def FindsTitle [Host] (s : SessionGraphSnapshot R) (sid : SessionId) (command : List Str)
    (cwd : PathBuf) : Prop :=
  ∃ title,
    s.searchWindowTitle sid
      (titleBase (Pane.autoDerivedTitle command cwd)) = some title ∧
    (∀ g : SessionGraph R,
      (Proc.exec (s.defaultWindowTitle sid command cwd : GraphM R GraphError Str) g).1 =
        .ok title) ∧
    GoodTitle title ∧ s.windowNameExistsInSession sid title = false

theorem findsTitle_of_few [Host] (s : SessionGraphSnapshot R) {sid : SessionId}
    (command : List Str) (cwd : PathBuf)
    (hfew : ∀ x, s.sessions.get sid = some x → x.windows.length < 2 ^ 32 - 1) :
    FindsTitle s sid command cwd := by
  have hbase := goodTitle_titleBase (Pane.autoDerivedTitle command cwd)
  have hlen := length_titleBase (length_autoDerivedTitle command cwd)
  obtain ⟨title, hsearch⟩ := s.exists_searchWindowTitle hbase hlen hfew
  have hdefault : s.defaultTitle sid command cwd = title := by
    rw [defaultTitle, hsearch]
    rfl
  refine ⟨title, hsearch, fun g => ?_, ?_, (FirstFree.of_search_eq_some hsearch).1⟩
  · rw [exec_defaultWindowTitle, hdefault]
  · rw [← hdefault]
    exact goodTitle_defaultTitle s sid command cwd

end Shux
