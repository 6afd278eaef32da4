/-
# Confinement of a scoped grant

A plugin that made nothing and holds a method for a list of targets should reach only these
targets and what lies in them. The check and the handlers read the parameters apart, and the
check matches one field: the first of `pane_id`, `window_id` and `session_id` that is a
string. What a handler finds by that field lies in a granted target. Many handlers read other
fields, which were never checked, so that the grant confines the plugin exactly when those
name what is granted too.
-/

import Shux.Lib.Fallible
import Shux.Core.Tiling
import Shux.Plugin.Handlers

namespace Shux.Plugin

open Fallible List Option EventScope

/-- The string in a field of the parameters. -/
def stringField (params : Option Json) (key : Str) : Option Str :=
  (params.bind fun value => value.get key).bind Json.asStr

/-- The field whose id is matched against the grants. -/
def primaryField (params : Option Json) : Option Str :=
  [paneIdKey, windowIdKey, sessionIdKey].find? fun key => (stringField params key).isSome

/-- What a handler takes the string in a field for. -/
inductive Use where
  | pane
  | window
  /-- The active window of a session. -/
  | activeWindow
  | session
  /-- A session that must be there. -/
  | livingSession
  /-- A session by its name, or by a name to fall back to. -/
  | sessionName (fallback : Option Str)
  | command
  /-- A command that holds its pane. -/
  | activeCommand

/-- Whether a field is there and is not null. -/
def isGiven (params : Json) (key : Str) : Bool :=
  match params.get key with
  | none | some .null => false
  | some _ => true

/-- The readings of panes and of events take the fields in the order of the check. -/
def Reading.isInOrder : Reading → Bool
  | .pane | .paneId | .events => true
  | _ => false

/-- The fields that a handler reads whether or not the check has matched them. -/
def Reading.reads (params : Json) : Reading → List (Str × Use)
  | .pane | .paneId | .events | .newSession => []
  | .window =>
    if isGiven params windowIdKey then [(windowIdKey, .window)] else [(sessionIdKey, .activeWindow)]
  | .swap => [(paneIdKey, .pane), (targetPaneIdKey, .pane)]
  | .sessionId => [(sessionIdKey, .session)]
  | .windowById => [(idKey, .window)]
  | .killSession =>
    if isGiven params idKey then [(idKey, .livingSession)] else [(nameKey, .sessionName none)]
  | .renameSession =>
    if ((params.get "new_name".toList).bind Json.asStr).isNone then []
    else if isGiven params nameKey then [(nameKey, .sessionName none)] else [(idKey, .session)]
  | .ensureSession => [(nameKey, .sessionName (some "default".toList))]
  | .commandStatus => [(commandIdKey, .command)]
  | .commandCancel => [(commandIdKey, .activeCommand)]

/-- A plugin that made no session, window or pane. -/
structure OwnsNothing {R : Type} (pluginId : PluginId) (s : SessionGraphSnapshot R) : Prop where
  session : ∀ sid x, s.sessions.get sid = some x → x.createdByPlugin ≠ some pluginId
  window : ∀ wid w, s.windows.get wid = some w → w.createdByPlugin ≠ some pluginId
  pane : ∀ pid p, s.panes.get pid = some p → p.createdByPlugin ≠ some pluginId

section Confinement

variable [UuidText] {R : Type}

/-- What an id refers to. -/
def Daemon.Names (d : Daemon R) (input : Str) : Target → Prop
  | .session id => d.graph.resolveSessionRef input = .ok id
  | .window id => d.graph.resolveWindowRef input = .ok id
  | .pane id => d.graph.resolvePaneRef input = .ok id
  | .command id => UuidText.parseStr input = some id

/-- One of the granted ids, or inside one of them. -/
def Daemon.Granted (d : Daemon R) (ids : List Str) (found : Found) : Prop :=
  ∃ id ∈ ids, ∃ target, d.Names id target ∧ found.within target = true

/-- A request that a plugin makes, and who makes it. -/
structure Request where
  pluginId : PluginId
  pluginName : Str
  method : Method
  params : Option Json

def Request.sensitivity (r : Request) : Sensitivity := r.method.policy.resolve r.params r.pluginName

/-- Whether the check lets a request through to its handler. -/
def Request.allowed (r : Request) (d : Daemon R) (grants : Grants) : Bool :=
  (authorize d.graph grants r.pluginId r.pluginName r.method.name (some r.method.policy)
    r.params).isAllow

/-- All that a permitted request finds is granted. -/
def Request.Confined (r : Request) (d : Daemon R) (grants : Grants) (ids : List Str) : Prop :=
  r.allowed d grants = true → ∀ found ∈ r.method.found d r.params, d.Granted ids found

/-- What a string names, taken for something. -/
def Daemon.named (d : Daemon R) (input : Str) : Use → Option Target
  | .pane => (d.graph.resolvePaneRef input).toOption.map .pane
  | .window => (d.graph.resolveWindowRef input).toOption.map .window
  | .activeWindow => do
    let session ← d.graph.sessions.get (← (d.graph.resolveSessionRef input).toOption)
    pure (.window session.activeWindow)
  | .session => (d.graph.resolveSessionRef input).toOption.map .session
  | .livingSession => do
    let id ← (d.graph.resolveSessionRef input).toOption
    if d.graph.sessions.contains id then some (.session id) else none
  | .sessionName _ => (d.graph.findSessionByName input).map fun session => .session session.id
  | .command => do
    let id ← UuidText.parseStr input
    if d.engine.commands.contains id then some (.command id) else none
  | .activeCommand => do
    let id ← UuidText.parseStr input
    (d.engine.cancelCommand id).map fun _ => .command id

/-- What the field of a request names, taken for something. -/
def Daemon.namedBy (d : Daemon R) (params : Json) (read : Str × Use) : Option Target := do
  let input := (params.get read.1).bind Json.asStr
  let input ← match read.2 with
    | .sessionName fallback => input.or fallback
    | _ => input
  d.named input read.2

/-- Something found by a field. -/
def Daemon.foundBy (d : Daemon R) (field : Str) : Target → Found
  | .session id => Daemon.foundSession field id
  | .window id => d.foundWindow field id
  | .pane id => d.foundPane field id
  | .command id => d.foundCommand field id

def Request.reads (r : Request) : List (Str × Use) :=
  r.method.reading.reads (r.params.getD .null)

/-- If all fields that the handler of a request reads name something, those that the check has not
matched name what is granted. -/
def Request.Covered (r : Request) (d : Daemon R) (ids : List Str) : Prop :=
  (∀ read ∈ r.reads, (d.namedBy (r.params.getD .null) read).isSome = true) →
    ∀ read ∈ r.reads, primaryField r.params ≠ some read.1 →
      ∀ target, d.namedBy (r.params.getD .null) read = some target →
        d.Granted ids (d.foundBy read.1 target)

omit [UuidText] in
theorem primary_extractTargets (params : Option Json) :
    (extractTargets params).primary = (primaryField params).bind (stringField params) := by
  show ((stringField params paneIdKey).or (stringField params windowIdKey)).or
    (stringField params sessionIdKey) = _
  unfold primaryField
  cases hpane : stringField params paneIdKey with
  | some input => simp [hpane]
  | none =>
    cases hwindow : stringField params windowIdKey with
    | some input => simp [hpane, hwindow]
    | none => cases hsession : stringField params sessionIdKey <;> simp [hpane, hwindow, hsession]

namespace OwnsNothing

variable {pluginId : PluginId} {s : SessionGraphSnapshot R} (h : OwnsNothing pluginId s)
  (targets : Targets)
include h

theorem owner_ne : (resolveOwners s targets).paneOwner ≠ some pluginId ∧
    (resolveOwners s targets).windowOwner ≠ some pluginId ∧
    (resolveOwners s targets).sessionOwner ≠ some pluginId := by
  simp only [resolveOwners, bind_eq_bind, ne_eq, bind_eq_some_iff]
  refine ⟨?_, ?_, ?_⟩
  · rintro ⟨input, -, id, -, pane, hpane, howner⟩
    exact h.pane id pane hpane howner
  · rintro ⟨input, -, id, -, window, hwindow, howner⟩
    exact h.window id window hwindow howner
  · rintro ⟨input, -, id, -, session, hsession, howner⟩
    exact h.session id session hsession howner

/-- Targets that are named are not its own. -/
theorem not_allOwnedBy :
    (!targets.isEmpty && (resolveOwners s targets).allOwnedBy pluginId targets) = false := by
  obtain ⟨hpane, hwindow, hsession⟩ := h.owner_ne targets
  unfold TargetOwners.allOwnedBy Targets.isEmpty
  simp only [beq_eq_false_iff_ne.mpr hpane, beq_eq_false_iff_ne.mpr hwindow,
    beq_eq_false_iff_ne.mpr hsession, Bool.or_false]
  cases targets.paneId.isNone <;> cases targets.windowId.isNone <;>
    cases targets.sessionId.isNone <;> rfl

end OwnsNothing

/-- A permitted request names a granted id in the field that is checked. -/
theorem Request.primary_of_allowed {r : Request} {d : Daemon R} {grants : Grants} {ids : List Str}
    (howns : OwnsNothing r.pluginId d.graph)
    (hgrant : grants.grants.get r.method.name = some (.targets ids))
    (hgated : r.sensitivity = .contentRead ∨ r.sensitivity = .ownedMutation)
    (hallowed : r.allowed d grants = true) :
    ∃ key input, primaryField r.params = some key ∧ stringField r.params key = some input ∧
      input ∈ ids := by
  have hgrants : grants.allows r.method.name (extractTargets r.params).primary = true := by
    unfold Request.allowed authorize check at hallowed
    unfold Request.sensitivity at hgated
    obtain hgated | hgated := hgated
    all_goals
      simp only [hgated, howns.not_allOwnedBy, Bool.false_eq_true, if_false] at hallowed
      split at hallowed
      · assumption
      · cases hallowed
  rw [primary_extractTargets] at hgrants
  unfold Grants.allows at hgrants
  rw [hgrant] at hgrants
  cases hkey : primaryField r.params with
  | none =>
    rw [hkey] at hgrants
    cases hgrants
  | some key =>
    cases hinput : stringField r.params key with
    | none =>
      rw [hkey, bind_some, hinput] at hgrants
      cases hgrants
    | some input =>
      rw [hkey, bind_some, hinput] at hgrants
      refine ⟨key, input, rfl, hinput, ?_⟩
      simpa [Scope.covers] using hgrants

section Params

variable {params : Json} {key input : Str}

section

omit [UuidText]

theorem get_of_optionalRefParam (h : optionalRefParam params key = .ok (some input)) :
    (params.get key).bind Json.asStr = some input := by
  unfold optionalRefParam at h
  split at h
  · cases h
  · cases h
  · next value hget =>
    cases h
    rw [hget]
    rfl
  · cases h

theorem get_of_requiredStr (h : requiredStr params key = .ok input) :
    (params.get key).bind Json.asStr = some input := by
  obtain ⟨ref, href, h⟩ := bind_eq_ok.mp h
  cases ref with
  | none => cases h
  | some value =>
    cases h
    exact get_of_optionalRefParam href

theorem stringField_eq (params : Option Json) (key : Str) :
    stringField params key = ((params.getD .null).get key).bind Json.asStr := by
  cases params <;> rfl

end

end Params

/-- A field whose id names something that is in a list. -/
def Daemon.Anchors (d : Daemon R) (params : Json) (key : Str) (within : Target → Prop) : Prop :=
  ∃ input target, (params.get key).bind Json.asStr = some input ∧ d.Names input target ∧
    within target

/-- Every field of the three that are checked, if it decided what was found, names something
that this lies in. -/
def Found.Anchored (d : Daemon R) (params : Json) (found : Found) : Prop :=
  ∀ key ∈ found.fields, key ∈ [paneIdKey, windowIdKey, sessionIdKey] →
    d.Anchors params key fun target => found.within target = true

section Found

variable {d : Daemon R} {params : Json}
variable {pid : PaneId} {field : Str} {wid : WindowId}

section

omit [UuidText]

theorem mem_windowChain_of_session {sid : SessionId} {w : Window R}
    (hw : d.graph.windows.get wid = some w) (hsession : w.sessionId = sid) :
    Target.session sid ∈ d.windowChain wid := by
  unfold Daemon.windowChain
  rw [hw, ← hsession]
  exact mem_cons_of_mem _ (mem_singleton_self _)

theorem mem_paneChain_of_houses {target : Target}
    (hhouses : Houses d.graph wid pid) (htarget : target ∈ d.windowChain wid) :
    target ∈ d.paneChain pid := by
  obtain ⟨p, hp, rfl⟩ := hhouses
  unfold Daemon.paneChain
  rw [hp]
  exact mem_cons_of_mem _ htarget

end

theorem anchors_resolveWindowIdFromParams (hlinked : Linked d.graph)
    (h : d.resolveWindowIdFromParams params = .ok (field, wid)) :
    d.Anchors params field (· ∈ d.windowChain wid) := by
  obtain ⟨ref, href, h⟩ := bind_eq_ok.mp h
  cases ref with
  | some input =>
    obtain ⟨id, hid, h⟩ := bind_eq_ok.mp h
    cases h
    exact ⟨input, .window wid, get_of_optionalRefParam href, mapError_eq_ok.mp hid, mem_cons_self⟩
  | none =>
    obtain ⟨ref, href, h⟩ := bind_eq_ok.mp h
    cases ref with
    | none => cases h
    | some input =>
      obtain ⟨sid, hsid, h⟩ := bind_eq_ok.mp h
      split at h
      · cases h
      · next session hsession =>
        cases h
        have hactive := hlinked.active_window sid session hsession
        obtain ⟨w, hw, hwsid⟩ := hlinked.windows_exist sid session hsession _ hactive
        exact ⟨input, .session sid, get_of_optionalRefParam href, mapError_eq_ok.mp hsid,
          mem_windowChain_of_session hw hwsid⟩

theorem anchors_resolvePaneIdFromParams (hlinked : Linked d.graph) (htiled : Tiled d.graph)
    (h : d.resolvePaneIdFromParams params = .ok (field, pid)) :
    d.Anchors params field (· ∈ d.paneChain pid) := by
  obtain ⟨ref, href, h⟩ := bind_eq_ok.mp h
  cases ref with
  | some input =>
    obtain ⟨id, hid, h⟩ := bind_eq_ok.mp h
    cases h
    exact ⟨input, .pane pid, get_of_optionalRefParam href, mapError_eq_ok.mp hid, mem_cons_self⟩
  | none =>
    obtain ⟨⟨field', wid⟩, hwindow, h⟩ := bind_eq_ok.mp h
    dsimp only at h
    split at h
    · cases h
    · next window hget =>
      cases h
      obtain ⟨input, target, hinput, hnames, htarget⟩ :=
        anchors_resolveWindowIdFromParams hlinked hwindow
      have hhouses := ((htiled wid window hget).leaves _).mp (htiled wid window hget).active_pane
      exact ⟨input, target, hinput, hnames, mem_paneChain_of_houses hhouses htarget⟩

/-- Found by one field, which names something it lies in. -/
theorem Found.anchored_of_anchors {within : Target → Bool}
    (h : d.Anchors params field fun target => within target = true) :
    Found.Anchored d params ⟨[field], within⟩ := by
  intro key hkey _
  rw [mem_singleton] at hkey
  rw [hkey]
  exact h

/-- Found by a field that is not one of those checked. -/
theorem Found.anchored_of_other (within : Target → Bool)
    (h : field ∉ [paneIdKey, windowIdKey, sessionIdKey]) :
    Found.Anchored d params ⟨[field], within⟩ := by
  intro key hkey hmem
  rw [mem_singleton] at hkey
  rw [hkey] at hmem
  exact absurd hmem h

theorem Daemon.Anchors.mono {key : Str} {within within' : Target → Prop}
    (h : d.Anchors params key within) (himp : ∀ target, within target → within' target) :
    d.Anchors params key within' := by
  obtain ⟨input, target, hinput, hnames, htarget⟩ := h
  exact ⟨input, target, hinput, hnames, himp target htarget⟩

/-- A pane found by the field that names it. -/
theorem anchored_foundPane {input : Str}
    (hinput : (params.get paneIdKey).bind Json.asStr = some input)
    (hpid : d.resolvePane input paneIdKey = .ok pid) :
    (d.foundPane paneIdKey pid).Anchored d params := by
  apply Found.anchored_of_anchors
  exact ⟨input, .pane pid, hinput, mapError_eq_ok.mp hpid, decide_eq_true mem_cons_self⟩

end Found

section Events

variable {d : Daemon R} {params : Json}

omit [UuidText] in
theorem of_mapM_eq_some {α : Type} {input : Option Str} {resolve : Str → Except RpcError α} {a : α}
    (h : input.mapM resolve = .ok (some a)) :
    ∃ value, input = some value ∧ resolve value = .ok a := by
  cases input with
  | none => cases h
  | some value =>
    obtain ⟨a', ha, heq⟩ := map_eq_ok.mp h
    cases heq
    exact ⟨value, rfl, ha⟩

/-- The scope of a request is what its three fields name. -/
theorem anchors_fromParams {scope : EventScope} (h : fromParams d params = .ok scope) :
    (∀ id, scope.pane = some id → d.Anchors params paneIdKey (· = .pane id)) ∧
      (∀ id, scope.window = some id → d.Anchors params windowIdKey (· = .window id)) ∧
      ∀ id, scope.session = some id → d.Anchors params sessionIdKey (· = .session id) := by
  unfold fromParams at h
  obtain ⟨pane, hpane, h⟩ := bind_eq_ok.mp h
  obtain ⟨window, hwindow, h⟩ := bind_eq_ok.mp h
  obtain ⟨session, hsession, h⟩ := bind_eq_ok.mp h
  cases h
  refine ⟨?_, ?_, ?_⟩
  · rintro id rfl
    obtain ⟨input, hinput, hid⟩ := of_mapM_eq_some hpane
    exact ⟨input, .pane id, hinput, mapError_eq_ok.mp hid, rfl⟩
  · rintro id rfl
    obtain ⟨input, hinput, hid⟩ := of_mapM_eq_some hwindow
    exact ⟨input, .window id, hinput, mapError_eq_ok.mp hid, rfl⟩
  · rintro id rfl
    obtain ⟨input, hinput, hid⟩ := of_mapM_eq_some hsession
    exact ⟨input, .session id, hinput, mapError_eq_ok.mp hid, rfl⟩

/-- An admitted event is about everything the scope names. -/
theorem anchored_of_admits {scope : EventScope} {event : Json}
    (h : fromParams d params = .ok scope) (hadmits : scope.admits event = true) :
    Found.Anchored d params ⟨scope.fields, eventNames event⟩ := by
  obtain ⟨hpane, hwindow, hsession⟩ := anchors_fromParams h
  intro key hkey _
  have hnames : (∀ id, scope.pane = some id → eventNames event (.pane id) = true) ∧
      (∀ id, scope.window = some id → eventNames event (.window id) = true) ∧
      ∀ id, scope.session = some id → eventNames event (.session id) = true := by
    obtain ⟨pane, window, session⟩ := scope
    simp only [admits, isAll, Bool.or_eq_true, Bool.and_eq_true, isNone_iff_eq_none] at hadmits
    obtain ⟨⟨rfl, rfl⟩, rfl⟩ | ⟨⟨hp, hw⟩, hs⟩ := hadmits
    · simp
    · refine ⟨?_, ?_, ?_⟩
      · rintro id rfl
        exact hp
      · rintro id rfl
        exact hw
      · rintro id rfl
        exact hs
  simp only [fields, mem_append, mem_toList, map_eq_some_iff] at hkey
  obtain (⟨id, hid, rfl⟩ | ⟨id, hid, rfl⟩) | ⟨id, hid, rfl⟩ := hkey
  · exact (hpane id hid).mono fun target heq => heq ▸ hnames.1 id hid
  · exact (hwindow id hid).mono fun target heq => heq ▸ hnames.2.1 id hid
  · exact (hsession id hid).mono fun target heq => heq ▸ hnames.2.2 id hid

end Events

section Reads

variable (d : Daemon R) (params : Json)

omit [UuidText]

theorem toOption_bind {ε α β : Type} (x : Except ε α) (f : α → Except ε β) :
    (x >>= f).toOption = x.toOption.bind fun a => (f a).toOption := by
  cases x <;> rfl

theorem toOption_mapError {ε ε' α : Type} (x : Except ε α) (f : ε → ε') :
    (x.mapError f).toOption = x.toOption := by
  cases x <;> rfl

variable {params} {key : Str} in
theorem asStr_of_not_given (h : isGiven params key = false) :
    (params.get key).bind Json.asStr = none := by
  unfold isGiven at h
  split at h
  · next hget => rw [hget]; rfl
  · next hget => rw [hget]; rfl
  · cases h

/-- A field that is given is a string, or the request is refused. -/
theorem toOption_bind_optionalRefParam {α : Type} (key : Str)
    (f : Option Str → Except RpcError α) :
    (optionalRefParam params key >>= f).toOption =
      if isGiven params key then
        ((params.get key).bind Json.asStr).bind fun input => (f (some input)).toOption
      else (f none).toOption := by
  unfold isGiven optionalRefParam
  cases params.get key with
  | none => rfl
  | some value => cases value <;> rfl

/-- Where the field has to be given, the string in it decides. -/
theorem toOption_bind_optionalRefParam_error {α : Type} (key : Str)
    {f : Option Str → Except RpcError α} (hnone : (f none).toOption = none) :
    (optionalRefParam params key >>= f).toOption =
      ((params.get key).bind Json.asStr).bind fun input => (f (some input)).toOption := by
  rw [toOption_bind_optionalRefParam]
  split
  · rfl
  · next hgiven => rw [asStr_of_not_given (eq_false_of_ne_true hgiven), hnone, Option.bind_none]

theorem toOption_requiredStr (key : Str) :
    (requiredStr params key).toOption = (params.get key).bind Json.asStr := by
  unfold requiredStr optionalRefParam
  cases params.get key with
  | none => rfl
  | some value => cases value <;> rfl

/-- What a command is found by. -/
theorem toOption_bind_commandFromParams [UuidText] {α : Type}
    (f : Str × Uuid → Except RpcError α) :
    (commandFromParams params >>= f).toOption =
      ((params.get commandIdKey).bind Json.asStr).bind fun input =>
        (UuidText.parseStr input).bind fun id => (f (input, id)).toOption := by
  unfold commandFromParams
  cases (params.get commandIdKey).bind Json.asStr with
  | none => rfl
  | some input =>
    rw [Option.bind_some]
    dsimp only
    cases UuidText.parseStr input <;> rfl

theorem toOption_sessionByName (name : Str) :
    (d.sessionByName name).toOption = (d.graph.findSessionByName name).map Session.id := by
  unfold Daemon.sessionByName
  cases d.graph.findSessionByName name <;> rfl

end Reads

/-- What fields name, if they all name something. -/
def Daemon.foundIn (d : Daemon R) (params : Json) (reads : List (Str × Use)) : List Found :=
  if reads.all fun read => (d.namedBy params read).isSome then
    reads.filterMap fun read => (d.namedBy params read).map (d.foundBy read.1)
  else []

theorem mem_foundIn {d : Daemon R} {params : Json} {reads : List (Str × Use)} {found : Found} :
    found ∈ d.foundIn params reads ↔
      (∀ read ∈ reads, (d.namedBy params read).isSome = true) ∧
        ∃ read ∈ reads, ∃ target, d.namedBy params read = some target ∧
          d.foundBy read.1 target = found := by
  unfold Daemon.foundIn
  rw [← List.all_eq_true]
  split
  · next hall =>
    simp only [hall, true_and, mem_filterMap, Option.map_eq_some_iff]
  · next hall =>
    simp [hall]

theorem foundIn_pair (d : Daemon R) (params : Json) (read read' : Str × Use) :
    d.foundIn params [read, read'] = ((d.namedBy params read).bind fun target =>
      (d.namedBy params read').map fun target' =>
        [d.foundBy read.1 target, d.foundBy read'.1 target']).getD [] := by
  unfold Daemon.foundIn
  rw [all_cons, all_cons, all_nil, Bool.and_true, filterMap_cons, filterMap_cons, filterMap_nil]
  cases d.namedBy params read with
  | none => rfl
  | some target => cases d.namedBy params read' <;> rfl

section Found

variable (d : Daemon R) (params : Json)

theorem foundIn_singleton (read : Str × Use) : d.foundIn params [read] =
    ((d.namedBy params read).map fun target => [d.foundBy read.1 target]).getD [] := by
  unfold Daemon.foundIn
  rw [all_cons, all_nil, Bool.and_true, filterMap_cons, filterMap_nil]
  cases d.namedBy params read <;> rfl

/-- A reading that finds what the string in a field names finds what the field names. -/
theorem getD_bind_named {field : Str} {use : Use} {find : Str → Option (List Found)}
    (huse : ∀ fallback, use ≠ .sessionName (some fallback))
    (hfind : ∀ input, find input =
      (d.named input use).map fun target => [d.foundBy field target]) :
    (((params.get field).bind Json.asStr).bind find).getD [] = d.foundIn params [(field, use)] := by
  rw [foundIn_singleton]
  unfold Daemon.namedBy
  cases (params.get field).bind Json.asStr with
  | none =>
    cases use with
    | sessionName fallback =>
      cases fallback with
      | none => rfl
      | some name => exact absurd rfl (huse name)
    | _ => rfl
  | some input =>
    rw [Option.bind_some, hfind]
    cases use <;> rfl

theorem find_window : (Reading.window.find d params).toOption.getD [] =
    d.foundIn params (Reading.window.reads params) := by
  rw [Reading.reads, Reading.find, toOption_bind, Daemon.resolveWindowIdFromParams,
    toOption_bind_optionalRefParam]
  split
  · rw [Option.bind_assoc]
    refine getD_bind_named d params (by simp) fun input => ?_
    simp only [Daemon.named, Daemon.resolveWindow]
    cases d.graph.resolveWindowRef input <;> rfl
  · dsimp only
    rw [toOption_bind_optionalRefParam_error _ _ (by rfl), Option.bind_assoc]
    refine getD_bind_named d params (by simp) fun input => ?_
    simp only [Option.bind_eq_bind, Daemon.named, Daemon.resolveSession, toOption_bind,
      toOption_mapError]
    cases (d.graph.resolveSessionRef input).toOption with
    | none => rfl
    | some id =>
      simp only [Option.bind_some]
      cases d.graph.sessions.get id <;> rfl

/-- What is found by the name of a session. -/
theorem getD_bind_sessionByName :
    (((params.get nameKey).bind Json.asStr).bind fun name => (d.sessionByName name >>= fun id =>
        pure [Daemon.foundSession nameKey id]).toOption).getD [] =
      d.foundIn params [(nameKey, .sessionName none)] := by
  refine getD_bind_named d params (by simp) fun name => ?_
  rw [toOption_bind, toOption_sessionByName]
  unfold Daemon.named
  cases d.graph.findSessionByName name <;> rfl

theorem find_killSession : (Reading.killSession.find d params).toOption.getD [] =
    d.foundIn params (Reading.killSession.reads params) := by
  rw [Reading.reads, Reading.find, toOption_bind_optionalRefParam]
  split
  · refine getD_bind_named d params (by simp) fun input => ?_
    simp only [Option.bind_eq_bind, Daemon.named, Daemon.resolveSession, toOption_bind,
      toOption_mapError]
    cases (d.graph.resolveSessionRef input).toOption with
    | none => rfl
    | some id =>
      simp only [Option.bind_some]
      cases d.graph.sessions.contains id <;> rfl
  · dsimp only
    rw [toOption_bind_optionalRefParam_error _ _ (by rfl)]
    exact getD_bind_sessionByName d params

theorem find_renameSession : (Reading.renameSession.find d params).toOption.getD [] =
    d.foundIn params (Reading.renameSession.reads params) := by
  rw [Reading.reads, Reading.find]
  split
  · rfl
  · rw [toOption_bind_optionalRefParam]
    split
    · exact getD_bind_sessionByName d params
    · dsimp only
      rw [toOption_bind_optionalRefParam_error _ _ (by rfl)]
      refine getD_bind_named d params (by simp) fun input => ?_
      simp only [Daemon.named, Daemon.resolveSession]
      cases d.graph.resolveSessionRef input <;> rfl

theorem find_swap : (Reading.swap.find d params).toOption.getD [] =
    d.foundIn params (Reading.swap.reads params) := by
  simp only [Reading.reads, foundIn_pair, Reading.find, toOption_bind, toOption_requiredStr,
    Daemon.resolvePane, toOption_mapError, Daemon.namedBy]
  cases (params.get paneIdKey).bind Json.asStr with
  | none => rfl
  | some a =>
    cases (params.get targetPaneIdKey).bind Json.asStr with
    | none => simp
    | some b =>
      simp only [Option.bind_some, Option.bind_eq_bind, Daemon.named]
      cases d.graph.resolvePaneRef a with
      | error err => rfl
      | ok a => cases d.graph.resolvePaneRef b <;> rfl

omit [UuidText] in
variable {params} in
theorem reads_of_inOrder {reading : Reading} (hreading : reading.isInOrder = true) :
    reading.reads params = [] := by
  cases reading with
  | pane | paneId | events => rfl
  | _ => cases hreading

/-- The readings that do not take the fields in the order of the check find what the fields they
read name. -/
theorem found_reads {reading : Reading} (hreading : reading.isInOrder = false) :
    (reading.find d params).toOption.getD [] = d.foundIn params (reading.reads params) := by
  cases reading with
  | pane | paneId | events => cases hreading
  | newSession => rfl
  | window => exact find_window d params
  | swap => exact find_swap d params
  | killSession => exact find_killSession d params
  | renameSession => exact find_renameSession d params
  | windowById =>
    rw [Reading.find, toOption_bind, toOption_requiredStr]
    refine getD_bind_named d params (by simp) fun input => ?_
    simp only [Daemon.named, Daemon.resolveWindow]
    cases d.graph.resolveWindowRef input <;> rfl
  | sessionId =>
    rw [Reading.find, toOption_bind, toOption_requiredStr]
    refine getD_bind_named d params (by simp) fun input => ?_
    simp only [Daemon.named, Daemon.resolveSession]
    cases d.graph.resolveSessionRef input <;> rfl
  | ensureSession =>
    simp only [Reading.find, Reading.reads, foundIn_singleton, Daemon.namedBy, Daemon.named,
      Option.bind_eq_bind]
    cases (params.get nameKey).bind Json.asStr with
    | none =>
      rw [Option.getD_none, Option.none_or, Option.bind_some]
      cases d.graph.findSessionByName "default".toList <;> rfl
    | some name =>
      rw [Option.getD_some, Option.some_or, Option.bind_some]
      cases d.graph.findSessionByName name <;> rfl
  | commandStatus =>
    rw [Reading.find, toOption_bind_commandFromParams]
    refine getD_bind_named d params (by simp) fun input => ?_
    unfold Daemon.named
    cases UuidText.parseStr input with
    | none => rfl
    | some id =>
      simp only [Option.bind_some, Option.bind_eq_bind]
      cases d.engine.commands.contains id <;> rfl
  | commandCancel =>
    rw [Reading.find, toOption_bind_commandFromParams]
    refine getD_bind_named d params (by simp) fun input => ?_
    unfold Daemon.named
    cases UuidText.parseStr input with
    | none => rfl
    | some id =>
      simp only [Option.bind_some, Option.bind_eq_bind]
      cases d.engine.cancelCommand id <;> rfl

end Found

/-- What is found by fields that are not checked is anchored. -/
theorem anchored_of_foundIn {d : Daemon R} {params : Json} {reads : List (Str × Use)}
    (hothers : ∀ read ∈ reads, read.1 ∉ [paneIdKey, windowIdKey, sessionIdKey]) :
    ∀ found ∈ d.foundIn params reads, found.Anchored d params := by
  intro found hfound
  obtain ⟨-, read, hread, target, -, rfl⟩ := mem_foundIn.mp hfound
  cases target <;> exact Found.anchored_of_other _ (hothers read hread)

/-- What a handler finds lies in what the checked fields name, as far as they decided it. -/
theorem Reading.anchored_find {d : Daemon R} {params : Json} (hlinked : Linked d.graph)
    (htiled : Tiled d.graph) (reading : Reading) {xs : List Found}
    (h : reading.find d params = .ok xs) : ∀ found ∈ xs, found.Anchored d params := by
  have hother (hreading : reading.isInOrder = false)
      (hothers : ∀ read ∈ reading.reads params, read.1 ∉ [paneIdKey, windowIdKey, sessionIdKey]) :
      ∀ found ∈ xs, found.Anchored d params := by
    have hxs := found_reads d params hreading
    rw [h, Except.toOption, Option.getD_some] at hxs
    rw [hxs]
    exact anchored_of_foundIn hothers
  cases reading with
  | pane =>
    obtain ⟨⟨field, id⟩, hid, h⟩ := bind_eq_ok.mp h
    cases h
    rw [forall_mem_singleton]
    apply Found.anchored_of_anchors
    exact (anchors_resolvePaneIdFromParams hlinked htiled hid).mono fun _ => decide_eq_true
  | window =>
    obtain ⟨⟨field, id⟩, hid, h⟩ := bind_eq_ok.mp h
    cases h
    rw [forall_mem_singleton]
    apply Found.anchored_of_anchors
    exact (anchors_resolveWindowIdFromParams hlinked hid).mono fun _ => decide_eq_true
  | paneId =>
    obtain ⟨input, hinput, h⟩ := bind_eq_ok.mp h
    obtain ⟨pid, hpid, h⟩ := bind_eq_ok.mp h
    cases h
    rw [forall_mem_singleton]
    exact anchored_foundPane (get_of_requiredStr hinput) hpid
  | swap =>
    obtain ⟨input, hinput, h⟩ := bind_eq_ok.mp h
    obtain ⟨target, htarget, h⟩ := bind_eq_ok.mp h
    obtain ⟨a, ha, h⟩ := bind_eq_ok.mp h
    obtain ⟨b, hb, h⟩ := bind_eq_ok.mp h
    cases h
    rw [forall_mem_cons, forall_mem_singleton]
    refine ⟨anchored_foundPane (get_of_requiredStr hinput) ha, ?_⟩
    exact Found.anchored_of_other _ (by decide)
  | sessionId =>
    obtain ⟨input, hinput, h⟩ := bind_eq_ok.mp h
    obtain ⟨id, hid, h⟩ := bind_eq_ok.mp h
    cases h
    rw [forall_mem_singleton]
    apply Found.anchored_of_anchors
    exact ⟨input, .session id, get_of_requiredStr hinput, mapError_eq_ok.mp hid, beq_self_eq_true _⟩
  | newSession =>
    cases h
    exact forall_mem_nil _
  | events =>
    obtain ⟨scope, hscope, h⟩ := bind_eq_ok.mp h
    cases h
    intro found hfound
    obtain ⟨event, hevent, rfl⟩ := mem_map.mp hfound
    exact anchored_of_admits hscope (mem_filter.mp hevent).2
  | windowById | ensureSession | commandStatus | commandCancel =>
    exact hother rfl (forall_mem_singleton.mpr (by decide))
  | killSession =>
    refine hother rfl ?_
    rw [Reading.reads]
    split <;> exact forall_mem_singleton.mpr (by decide)
  | renameSession =>
    refine hother rfl ?_
    rw [Reading.reads]
    split
    · exact forall_mem_nil _
    · split <;> exact forall_mem_singleton.mpr (by decide)

/-- What was found by the field that was checked is granted. -/
theorem Request.granted_of_checked {r : Request} {d : Daemon R} {grants : Grants} {ids : List Str}
    (hlinked : Linked d.graph) (htiled : Tiled d.graph) (howns : OwnsNothing r.pluginId d.graph)
    (hgrant : grants.grants.get r.method.name = some (.targets ids))
    (hgated : r.sensitivity = .contentRead ∨ r.sensitivity = .ownedMutation)
    (hallowed : r.allowed d grants = true) {found : Found}
    (hfound : found ∈ r.method.found d r.params)
    (hchecked : ((primaryField r.params).any fun key => key ∈ found.fields) = true) :
    d.Granted ids found := by
  obtain ⟨key, input, hkey, hinput, hmem⟩ := Request.primary_of_allowed howns hgrant hgated hallowed
  rw [hkey, any_some, decide_eq_true_iff] at hchecked
  have hid : key ∈ [paneIdKey, windowIdKey, sessionIdKey] := mem_of_find?_eq_some hkey
  unfold Method.found at hfound
  cases hfind : r.method.reading.find d (r.params.getD .null) with
  | error err =>
    rw [hfind] at hfound
    cases hfound
  | ok xs =>
    rw [hfind] at hfound
    obtain ⟨input', target, hinput', hnames, hwithin⟩ :=
      Reading.anchored_find hlinked htiled _ hfind found hfound key hchecked hid
    rw [← stringField_eq, hinput] at hinput'
    cases hinput'
    exact ⟨input, hmem, target, hnames, hwithin⟩

section InOrder

variable {d : Daemon R} {params : Option Json} {key : Str}

omit [UuidText] in
theorem stringField_of_optionalRefParam {input : Str}
    (h : optionalRefParam (params.getD .null) key = .ok (some input)) :
    stringField params key = some input := by
  rw [stringField_eq]
  exact get_of_optionalRefParam h

omit [UuidText] in
theorem stringField_of_missing (h : optionalRefParam (params.getD .null) key = .ok none) :
    stringField params key = none := by
  rw [stringField_eq]
  unfold optionalRefParam at h
  split at h
  · next hget => rw [hget]; rfl
  · next hget => rw [hget]; rfl
  · cases h
  · cases h

omit [UuidText] in
theorem primaryField_paneId {input : Str} (h : stringField params paneIdKey = some input) :
    primaryField params = some paneIdKey := by
  unfold primaryField
  rw [find?_cons_of_pos (by rw [h]; rfl)]

/-- A pane is found by the field that the check has matched. -/
theorem primaryField_of_resolvePaneIdFromParams {field : Str} {pid : PaneId}
    (h : d.resolvePaneIdFromParams (params.getD .null) = .ok (field, pid)) :
    primaryField params = some field := by
  obtain ⟨pane, hpane, h⟩ := bind_eq_ok.mp h
  cases pane with
  | some input =>
    obtain ⟨id, -, h⟩ := bind_eq_ok.mp h
    cases h
    exact primaryField_paneId (stringField_of_optionalRefParam hpane)
  | none =>
    obtain ⟨⟨field', wid⟩, hwindow, h⟩ := bind_eq_ok.mp h
    dsimp only at h
    have hfield : field' = field := by
      split at h
      · cases h
      · cases h
        rfl
    subst hfield
    have hnopane := stringField_of_missing hpane
    obtain ⟨window, href, hwindow⟩ := bind_eq_ok.mp hwindow
    cases window with
    | some input =>
      obtain ⟨id, -, hwindow⟩ := bind_eq_ok.mp hwindow
      cases hwindow
      have hsome := stringField_of_optionalRefParam href
      simp [primaryField, hnopane, hsome]
    | none =>
      have hnowindow := stringField_of_missing href
      obtain ⟨session, href, hwindow⟩ := bind_eq_ok.mp hwindow
      cases session with
      | none => cases hwindow
      | some input =>
        obtain ⟨id, -, hwindow⟩ := bind_eq_ok.mp hwindow
        have hsome := stringField_of_optionalRefParam href
        split at hwindow
        · cases hwindow
        · cases hwindow
          simp [primaryField, hnopane, hnowindow, hsome]

/-- A field that is a string scopes the events. -/
theorem mem_fields_fromParams {scope : EventScope} {input : Str}
    (h : fromParams d (params.getD .null) = .ok scope)
    (hkey : key ∈ [paneIdKey, windowIdKey, sessionIdKey])
    (hinput : stringField params key = some input) : key ∈ scope.fields := by
  have hscoped : ∀ {α : Type} {field : Option Str} {resolve : Str → Except RpcError α}
      {out : Option α}, field = some input → field.mapM resolve = .ok out → ∃ a, out = some a := by
    rintro α field resolve out rfl hout
    obtain ⟨a, -, rfl⟩ := map_eq_ok.mp hout
    exact ⟨a, rfl⟩
  rw [stringField_eq] at hinput
  unfold fromParams at h
  obtain ⟨pane, hpane, h⟩ := bind_eq_ok.mp h
  obtain ⟨window, hwindow, h⟩ := bind_eq_ok.mp h
  obtain ⟨session, hsession, h⟩ := bind_eq_ok.mp h
  cases h
  simp only [mem_cons, not_mem_nil, or_false] at hkey
  rcases hkey with rfl | rfl | rfl
  · obtain ⟨a, rfl⟩ := hscoped hinput hpane
    simp [fields]
  · obtain ⟨a, rfl⟩ := hscoped hinput hwindow
    simp [fields]
  · obtain ⟨a, rfl⟩ := hscoped hinput hsession
    simp [fields]

/-- The readings that take the fields in the order of the check find all by the field that it has
matched. -/
theorem checked_of_inOrder {reading : Reading} {input : Str} {found : Found}
    (hreading : reading.isInOrder = true) (hkey : primaryField params = some key)
    (hinput : stringField params key = some input)
    (hfound : found ∈ (reading.find d (params.getD .null)).toOption.getD []) :
    key ∈ found.fields := by
  cases hfind : reading.find d (params.getD .null) with
  | error err =>
    rw [hfind] at hfound
    cases hfound
  | ok xs =>
    rw [hfind] at hfound
    cases reading with
    | pane =>
      obtain ⟨⟨field, pid⟩, hpid, hxs⟩ := bind_eq_ok.mp hfind
      cases hxs
      cases mem_singleton.mp hfound
      cases hkey.symm.trans (primaryField_of_resolvePaneIdFromParams hpid)
      exact mem_singleton_self _
    | paneId =>
      obtain ⟨pane, hpane, hfind⟩ := bind_eq_ok.mp hfind
      obtain ⟨pid, -, hxs⟩ := bind_eq_ok.mp hfind
      cases hxs
      cases mem_singleton.mp hfound
      have hstring : stringField params paneIdKey = some pane := by
        rw [stringField_eq]
        exact get_of_requiredStr hpane
      cases hkey.symm.trans (primaryField_paneId hstring)
      exact mem_singleton_self _
    | events =>
      obtain ⟨scope, hscope, hxs⟩ := bind_eq_ok.mp hfind
      cases hxs
      obtain ⟨event, -, rfl⟩ := mem_map.mp hfound
      exact mem_fields_fromParams hscope (mem_of_find?_eq_some hkey) hinput
    | _ => cases hreading

end InOrder

variable [Host] [F32 R]

end Confinement

namespace Sample

open Shux.Sample

/-- Reading a UUID as it is written out, with hyphens. -/
def parseHyphenated (input : Str) : Option Uuid :=
  let groups := input.splitOn '-'
  if groups.map List.length = [8, 4, 4, 4, 12] ∧ groups.flatten.all isAsciiHexDigit then
    some ⟨Nat.ofDigits 16 (groups.flatten.reverse.map fun c =>
      if c.isDigit then c.toNat - 48 else c.toLower.toNat - 87)⟩
  else none

scoped instance uuidText : UuidText := ⟨parseHyphenated⟩

/-- Two sessions with a window each: the windows 2 and 13, with the panes 1 and 12. -/
def cmds : List (GraphCommand ℚ) :=
  [create, .createSession "b".toList (.ofStr "/".toList) ["sh".toList]]

def daemon : Daemon ℚ := ⟨(SessionGraph.newWithEventBus.run cmds).state, ⟨∅, ∅⟩, []⟩

def plugin : PluginId := ⟨⟨100⟩⟩

/-- The only grant there is. -/
def granting (method : Method) (id : Nat) : Grants :=
  ⟨(∅ : FinMap Str Scope).insert method.name (.targets [(⟨id⟩ : Uuid).display])⟩

theorem ownsNothing : OwnsNothing plugin daemon.graph where
  session sid x hx := by
    have hall : ∀ x ∈ daemon.graph.sessions.values, x.createdByPlugin ≠ some plugin := by
      decide
    exact hall x ((FinMap.mem_values_iff _ _).mpr ⟨sid, hx⟩)
  window wid w hw := by
    have hall : ∀ w ∈ daemon.graph.windows.values, w.createdByPlugin ≠ some plugin := by
      decide
    exact hall w ((FinMap.mem_values_iff _ _).mpr ⟨wid, hw⟩)
  pane pid p hp := by
    have hall : ∀ p ∈ daemon.graph.panes.values, p.createdByPlugin ≠ some plugin := by
      decide
    exact hall p ((FinMap.mem_values_iff _ _).mpr ⟨pid, hp⟩)

/-- Rename window 2, and name its session beside it. -/
def renameInside : Request where
  pluginId := plugin
  pluginName := "p".toList
  method := .windowRename
  params := some (.object [(sessionIdKey, .string (⟨9⟩ : Uuid).display),
    (idKey, .string (⟨2⟩ : Uuid).display), (nameKey, .string "x".toList)])

/-- Rename window 13, and name window 2 beside it. -/
def rename : Request where
  pluginId := plugin
  pluginName := "p".toList
  method := .windowRename
  params := some (.object [(windowIdKey, .string (⟨2⟩ : Uuid).display),
    (idKey, .string (⟨13⟩ : Uuid).display), (nameKey, .string "x".toList)])

end Sample

end Shux.Plugin
