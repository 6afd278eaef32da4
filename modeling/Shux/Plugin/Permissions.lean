/-
# What a plugin may call

Every request of a plugin is checked before it reaches its handler. The check reads the ids a
request names out of its parameters by three fixed fields, asks the graph who made the
entities they refer to, and looks the most specific id up in the plugin's grants. A plugin
may use what it made, what it was granted, and what is public.
-/

import Shux.Core.IdRef

namespace Shux.Plugin

/-- A JSON value. -/
inductive Json where
  | null
  | bool (value : Bool)
  | number (value : Int)
  | string (value : Str)
  | array (items : List Json)
  | object (fields : List (Str × Json))

namespace Json

/-- A field of an object. -/
def get (value : Json) (key : Str) : Option Json :=
  match value with
  | object fields => fields.lookup key
  | _ => none

def asStr : Json → Option Str
  | string value => some value
  | _ => none

def asArray : Json → Option (List Json)
  | array items => some items
  | _ => none

end Json

/-- A blanket grant, or one for the listed targets. -/
inductive Scope where
  | any
  | targets (ids : List Str)

namespace Scope

def isAny : Scope → Bool
  | any => true
  | targets _ => false

def covers (scope : Scope) (targetId : Str) : Bool :=
  match scope with
  | any => true
  | targets ids => ids.any fun id => id == targetId

end Scope

/-- What a plugin was granted, by method. -/
structure Grants where
  grants : FinMap Str Scope

/-- Whether a method may be called for a target, or for any when none is given. -/
def Grants.allows (grants : Grants) (method : Str) (targetId : Option Str) : Bool :=
  match grants.grants.get method with
  | none => false
  | some scope =>
    match targetId with
    | none => scope.isAny
    | some id => scope.covers id

inductive Sensitivity where
  | openToAll
  | contentRead
  | ownedMutation
  | grantable
  | pluginsForbidden
deriving DecidableEq

/-- A fixed sensitivity, or one that depends on the parameters and the plugin's name. -/
inductive Policy where
  | fixed (sensitivity : Sensitivity)
  | paramAware (resolve : Option Json → Str → Sensitivity)

def Policy.resolve (policy : Policy) (params : Option Json) (plugin : Str) : Sensitivity :=
  match policy with
  | fixed sensitivity => sensitivity
  | paramAware resolve => resolve params plugin

/-- The ids a request names. -/
structure Targets where
  sessionId : Option Str
  windowId : Option Str
  paneId : Option Str

namespace Targets

def isEmpty (targets : Targets) : Bool :=
  targets.sessionId.isNone && targets.windowId.isNone && targets.paneId.isNone

/-- The id matched against grants: of a pane, else of a window, else of a session. -/
def primary (targets : Targets) : Option Str :=
  (targets.paneId.or targets.windowId).or targets.sessionId

end Targets

def paneIdKey : Str := "pane_id".toList

def windowIdKey : Str := "window_id".toList

def sessionIdKey : Str := "session_id".toList

/-- Read the ids of a request. -/
def extractTargets (params : Option Json) : Targets :=
  let pull (key : Str) : Option Str := (params.bind fun value => value.get key).bind Json.asStr
  ⟨pull sessionIdKey, pull windowIdKey, pull paneIdKey⟩

/-- Who made the targets. -/
structure TargetOwners where
  paneOwner : Option PluginId
  windowOwner : Option PluginId
  sessionOwner : Option PluginId

/-- Whether the plugin made every target that is named. -/
def TargetOwners.allOwnedBy (owners : TargetOwners) (plugin : PluginId) (targets : Targets) :
    Bool :=
  (targets.paneId.isNone || owners.paneOwner == some plugin) &&
    (targets.windowId.isNone || owners.windowOwner == some plugin) &&
    (targets.sessionId.isNone || owners.sessionOwner == some plugin)

section Owners

variable [UuidText] {R : Type}

def resolveOwners (s : SessionGraphSnapshot R) (targets : Targets) : TargetOwners where
  paneOwner := do
    let pane ← s.panes.get (← (s.resolvePaneRef (← targets.paneId)).toOption)
    pane.createdByPlugin
  windowOwner := do
    let window ← s.windows.get (← (s.resolveWindowRef (← targets.windowId)).toOption)
    window.createdByPlugin
  sessionOwner := do
    let session ← s.sessions.get (← (s.resolveSessionRef (← targets.sessionId)).toOption)
    session.createdByPlugin

end Owners

inductive AllowReason where
  | publicMethod
  | pluginSelfNamespace
  | ownedByPlugin
  | explicitGrant
  | unclassifiedRoute
deriving DecidableEq

inductive DenyReason where
  | pluginsForbidden
  | noGrantAndNotOwned
  | noGrant
deriving DecidableEq

inductive Decision where
  | allow (reason : AllowReason)
  | deny (reason : DenyReason)
deriving DecidableEq

def Decision.isAllow : Decision → Bool
  | allow _ => true
  | deny _ => false

/-- Decide on a call from its policy, parameters, targets, their owners and the grants. -/
def check (pluginId : PluginId) (pluginName method : Str) (policy : Option Policy)
    (params : Option Json) (targets : Targets) (owners : TargetOwners) (grants : Grants) :
    Decision :=
  match policy with
  | none => .allow .unclassifiedRoute
  | some policy =>
    match policy.resolve params pluginName with
    | .openToAll => .allow .publicMethod
    | .pluginsForbidden => .deny .pluginsForbidden
    | .contentRead | .ownedMutation =>
      if !targets.isEmpty && owners.allOwnedBy pluginId targets then .allow .ownedByPlugin
      else if grants.allows method targets.primary then .allow .explicitGrant
      else .deny .noGrantAndNotOwned
    | .grantable => if grants.allows method none then .allow .explicitGrant else .deny .noGrant

/-- The check made for a request of a plugin on its way to the router. -/
def authorize [UuidText] {R : Type} (s : SessionGraphSnapshot R) (grants : Grants)
    (pluginId : PluginId) (pluginName method : Str) (policy : Option Policy)
    (params : Option Json) : Decision :=
  let targets := extractTargets params
  check pluginId pluginName method policy params targets (resolveOwners s targets) grants

end Shux.Plugin
