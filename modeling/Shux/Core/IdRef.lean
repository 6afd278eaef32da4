/-
# Id references

A request names an entity by its UUID or by the start of it, as every listing prints it. A
complete UUID is taken as it is, whether or not an entity has it. Anything else is a prefix
of hexadecimal digits, and must be the start of exactly one id.

Reading a UUID belongs to another package and is a parameter here.
-/

import Shux.Core.Graph

namespace Shux

/-- Reading UUIDs. -/
class UuidText where
  /-- The UUID a text spells, in any of its forms. -/
  parseStr : Str → Option Uuid

/-- Shortest prefix that may resolve. -/
def minPrefixLen : Nat := 4

/-- Digits of a UUID. -/
def uuidHexLen : Nat := 32

/-- Candidates an ambiguity lists before it counts. -/
def maxListedCandidates : Nat := 8

/-- The kind of entity a reference names. -/
inductive RefKind where
  | session
  | window
  | pane
deriving DecidableEq

inductive MalformedReason where
  | empty
  | noDigits
  | tooShort (len : Nat)
  | notHex
  | tooLong (len : Nat)
deriving DecidableEq

inductive RefError where
  | malformed (kind : RefKind) (input : Str) (reason : MalformedReason)
  | notFound (kind : RefKind) (input : Str)
  | ambiguous (kind : RefKind) (input : Str) (candidates : List Str) (total : Nat)
deriving DecidableEq

inductive ParsedRef where
  | exact (uuid : Uuid)
  | prefixOf (hex : Str)
deriving DecidableEq

def isAsciiHexDigit (c : Char) : Bool :=
  charBetween 0x30 0x39 c || charBetween 0x41 0x46 c || charBetween 0x61 0x66 c

/-- A UUID without hyphens. -/
def Uuid.simple (uuid : Uuid) : Str := (Nat.toDigits 16 uuid.value).leftpad uuidHexLen '0'

section Resolve

variable [UuidText]

/-- Classify a reference without looking anything up. -/
def parseRef (kind : RefKind) (input : Str) : Except RefError ParsedRef :=
  let trimmed := trim input
  match UuidText.parseStr trimmed with
  | some uuid => .ok (.exact uuid)
  | none =>
    if trimmed.isEmpty then .error (.malformed kind input .empty)
    else
      let hex := (trimmed.filter fun c => c != '-').map Char.toLower
      if hex.isEmpty then .error (.malformed kind input .noDigits)
      else if !hex.all isAsciiHexDigit then .error (.malformed kind input .notHex)
      else if hex.length < minPrefixLen then .error (.malformed kind input (.tooShort hex.length))
      else if uuidHexLen ≤ hex.length then .error (.malformed kind input (.tooLong hex.length))
      else .ok (.prefixOf hex)

/-- Match a prefix against the ids of the entities there are. -/
def matchPrefix (kind : RefKind) (input hex : Str) (ids : List Uuid) : Except RefError Uuid :=
  match ids.filter fun id => hex.isPrefixOf id.simple with
  | [] => .error (.notFound kind (trim input))
  | [id] => .ok id
  | hits =>
    let sorted := hits.mergeSort fun a b => decide (a.value ≤ b.value)
    .error (.ambiguous kind (trim input) ((sorted.take maxListedCandidates).map Uuid.display)
      hits.length)

def resolveRef (kind : RefKind) (input : Str) (ids : List Uuid) : Except RefError Uuid := do
  match ← parseRef kind input with
  | .exact uuid => return uuid
  | .prefixOf hex => matchPrefix kind input hex ids

namespace SessionGraphSnapshot

variable {R : Type} (s : SessionGraphSnapshot R)

def resolvePaneRef (input : Str) : Except RefError PaneId :=
  (resolveRef .pane input (s.panes.keys.map PaneId.uuid)).map PaneId.mk

def resolveWindowRef (input : Str) : Except RefError WindowId :=
  (resolveRef .window input (s.windows.keys.map WindowId.uuid)).map WindowId.mk

def resolveSessionRef (input : Str) : Except RefError SessionId :=
  (resolveRef .session input (s.sessions.keys.map SessionId.uuid)).map SessionId.mk

omit [UuidText] in
/-- The session of a name; no two have the same. -/
def findSessionByName (name : Str) : Option Session :=
  s.sessions.values.find? fun x => x.name = name

end SessionGraphSnapshot

end Resolve

end Shux
