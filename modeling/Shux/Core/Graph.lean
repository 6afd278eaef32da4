/-
# The session graph

`SessionGraph` is the single writer of the session state. Its published snapshot
holds three maps that refer to each other; beside it stand two maps the snapshot
does not carry (the PTY incarnation that owns each pane, and the last accepted
status generation), and the event bus.

What the code takes from its surroundings is the `Host`: fresh UUIDs, the clock,
the Unicode alphanumeric test, and the order in which a hash map lists its
entries, which is any order at all. `drawn` counts what was taken from it.

`commits` counts the stores to the published state. No code reads it; it lets a
statement say that something was committed.
-/

import Shux.Lib.Proc
import Shux.Lib.FirstFree
import Shux.Core.Event

namespace Shux

/-- What the graph takes from its surroundings. -/
class Host where
  /-- The UUID of each draw. -/
  newV4 : Nat → Uuid
  /-- Fresh UUIDs never repeat. -/
  newV4_injective : Function.Injective newV4
  /-- The wall clock at each draw. -/
  systemTime : Nat → Nat
  /-- `char::is_alphanumeric`. -/
  isAlphanumeric : Char → Bool
  /-- The order in which a hash map lists its entries. -/
  iter : {α : Type} → Nat → List α → List α
  iter_perm : ∀ {α : Type} (n : Nat) (l : List α), (iter n l).Perm l

/-- Errors that can occur during graph mutations. -/
inductive GraphError where
  | sessionNotFound (id : SessionId)
  | windowNotFound (id : WindowId)
  | paneNotFound (id : PaneId)
  | sessionNameExists (name : Str)
  | emptySessionName
  | sessionNameTooLong (name : Str)
  | invalidSessionName (name : Str)
  | versionConflict (resource : Str) (id : Uuid) (expected actual : Version)
  | lastWindow
  | lastPane
  | windowNameConflict (title : Str)
  | emptyWindowName
  | windowNameTooLong (title : Str)
  | numericWindowName (title : Str)
  | sessionPaneBytes (used adding budget : Nat)
  | sessionPaneLimit (max : Nat)
  | windowIndexOutOfRange (index count : Nat)
  | paneSwapSelf
  | paneCrossWindow
  | layoutError (text : Str)
  deriving DecidableEq

/-- The immutable snapshot of all session state. -/
structure SessionGraphSnapshot (R : Type) where
  sessions : FinMap SessionId Session
  windows : FinMap WindowId (Window R)
  panes : FinMap PaneId Pane
  version : Version

/-- The single-writer owner of the state, with all it can change. -/
structure SessionGraph (R : Type) where
  state : SessionGraphSnapshot R
  statusGenerations : FinMap PaneId Nat
  ptyOwners : FinMap PaneId Nat
  eventBus : EventBus
  /-- Stores to `state` so far. -/
  commits : Nat
  /-- Draws from the host so far. -/
  drawn : Nat
  /-- `NEXT_SESSION_SEQ`. -/
  nextSessionSeq : Nat

variable {R : Type}

def SessionGraphSnapshot.default : SessionGraphSnapshot R := ⟨∅, ∅, ∅, 0⟩

/-- A graph over the empty snapshot, with a bus attached. -/
def SessionGraph.newWithEventBus : SessionGraph R where
  state := .default
  statusGenerations := ∅
  ptyOwners := ∅
  eventBus := .new
  commits := 0
  drawn := 0
  nextSessionSeq := 1

/-- A graph operation that fails with an `ε`. -/
abbrev GraphM (R ε α : Type) := Proc (SessionGraph R) ε α

section Validation

variable [Host]

def validateSessionName (name : Str) : Except GraphError Unit :=
  if name.isEmpty then .error .emptySessionName
  else if name.length > 128 then .error (.sessionNameTooLong name)
  else if !(name.all fun c => Host.isAlphanumeric c || c = '-' || c = '_' || c = '.') then
    .error (.invalidSessionName name)
  else .ok ()

end Validation

/-- Longest window title the graph will store. -/
def maxWindowTitleChars : Nat := 128

/-- Normalize a window title at ingress: sanitize, then validate. -/
def validateWindowTitle (raw : Str) : Except GraphError Str :=
  let cleaned := sanitizeTitle raw
  if cleaned.isEmpty then .error .emptyWindowName
  else if cleaned.length > maxWindowTitleChars then .error (.windowNameTooLong cleaned)
  else if isWindowNumber cleaned then .error (.numericWindowName cleaned)
  else .ok cleaned

namespace SessionGraphSnapshot

def sessionNameExists (snapshot : SessionGraphSnapshot R) (name : Str) : Bool :=
  snapshot.sessions.values.any fun s => s.name = name

/-- Find a window by title within a session. The query is normalized by the rule
that normalized the stored titles. -/
def findWindowByName (snapshot : SessionGraphSnapshot R) (sessionId : SessionId) (name : Str) :
    Option (Window R) :=
  match snapshot.sessions.get sessionId with
  | none => none
  | some session =>
    let name := sanitizeTitle name
    (session.windows.filterMap snapshot.windows.get).find? fun w => w.title = name

def windowNameExistsInSession (snapshot : SessionGraphSnapshot R) (sessionId : SessionId)
    (name : Str) : Bool :=
  (snapshot.findWindowByName sessionId name).isSome

/-- The candidates of a default title, numbered from 1: `base`, `base-2`, `base-3`, … -/
def titleCandidate (base : Str) (n : Nat) : Str :=
  if n ≤ 1 then base else base ++ '-' :: Nat.toDigits 10 n

/-- The first candidate no window of the session has. The counter is a `u32`, and no
session has enough windows to use it up. -/
def searchWindowTitle (snapshot : SessionGraphSnapshot R) (sessionId : SessionId) (base : Str) :
    Option Str :=
  FirstFree.search (snapshot.windowNameExistsInSession sessionId) (titleCandidate base) 1
    (2 ^ 32 - 1)

/-- The base of a default title: the pane's own title when it is a valid name. -/
def titleBase (paneTitle : Str) : Str :=
  match validateWindowTitle paneTitle with
  | .ok base => base
  | .error _ => "window".toList

/-- The session of a window. -/
def sessionOf (snapshot : SessionGraphSnapshot R) (windowId : WindowId) : Option SessionId :=
  (snapshot.windows.get windowId).map (·.sessionId)

end SessionGraphSnapshot

/-- `usize::MAX` on a 64-bit host. -/
def usizeMax : Nat := 2 ^ 64 - 1

def saturatingAdd (a b : Nat) : Nat := min (a + b) usizeMax

/-- `str::len`: the length of a string in UTF-8 bytes. -/
def utf8Len (s : Str) : Nat := (s.map Char.utf8Size).sum

/-- How JSON writes one character of a string. -/
def jsonChar (c : Char) : Str :=
  if c = '\x22' then "\\\"".toList
  else if c = '\x5c' then "\\\\".toList
  else if c = '\x08' then "\\b".toList
  else if c = '\x0c' then "\\f".toList
  else if c = '\n' then "\\n".toList
  else if c = '\r' then "\\r".toList
  else if c = '\t' then "\\t".toList
  else if c.toNat < 0x20 then
    "\\u00".toList ++ [Nat.digitChar (c.toNat / 16), Nat.digitChar (c.toNat % 16)]
  else [c]

def jsonString (s : Str) : Str := '\x22' :: s.flatMap jsonChar ++ ['\x22']

def jsonArray (items : List Str) : Str :=
  '[' :: List.intercalate [','] (items.map jsonString) ++ [']']

/-- The JSON bytes of a command and a directory. A directory that is not UTF-8
cannot be written and counts as the largest size there is. -/
def paneBytes (command : List Str) (cwd : PathBuf) : Nat :=
  let argv := utf8Len (jsonArray command)
  let dir :=
    match cwd.toStr with
    | some text => utf8Len (jsonString text)
    | none => usizeMax
  saturatingAdd argv dir

def maxPanesPerSession : Nat := 1024

def maxSessionPaneBytes : Nat := 4 * 1024 * 1024

/-- How many panes a session holds, and the bytes of their commands and directories. -/
def sessionUsage (snapshot : SessionGraphSnapshot R) (session : SessionId) : Nat × Nat :=
  (snapshot.panes.values.filter fun p => snapshot.sessionOf p.windowId = some session).foldl
    (fun acc p => (acc.1 + 1, saturatingAdd acc.2 (paneBytes p.command p.cwd))) (0, 0)

/-- Refuse a pane that would take the session past either bound. -/
def checkSessionCapacity (snapshot : SessionGraphSnapshot R) (session : SessionId)
    (command : List Str) (cwd : PathBuf) : Except GraphError Unit :=
  let usage := sessionUsage snapshot session
  if usage.1 ≥ maxPanesPerSession then .error (.sessionPaneLimit maxPanesPerSession)
  else
    let adding := paneBytes command cwd
    if saturatingAdd usage.2 adding > maxSessionPaneBytes then
      .error (.sessionPaneBytes usage.2 adding maxSessionPaneBytes)
    else .ok ()

/-- A title that passes validation unchanged. -/
def GoodTitle (title : Str) : Prop := validateWindowTitle title = .ok title

theorem goodTitle_iff (title : Str) :
    GoodTitle title ↔ sanitizeTitle title = title ∧ title ≠ [] ∧
      title.length ≤ maxWindowTitleChars ∧ isWindowNumber title = false := by
  rw [GoodTitle, validateWindowTitle]
  constructor
  · intro h
    split_ifs at h with hempty hlong hnumber
    have hclean : sanitizeTitle title = title := Except.ok.inj h
    rw [hclean] at hempty hlong hnumber
    exact ⟨hclean, by simpa using hempty, by omega, by simpa using hnumber⟩
  · rintro ⟨hclean, hne, hlen, hnumber⟩
    rw [hclean]
    simp [hne, hnumber]
    omega

/-- What validation returns passes validation. -/
theorem goodTitle_of_validate {raw title : Str} (h : validateWindowTitle raw = .ok title) :
    GoodTitle title := by
  rw [validateWindowTitle] at h
  split_ifs at h with hempty hlong hnumber
  cases h
  rw [goodTitle_iff]
  refine ⟨sanitizeTitle_idem raw, ?_, by omega, by simpa using hnumber⟩
  simpa using hempty

namespace SessionGraphSnapshot

/-- A base short enough to take any `u32` suffix. -/
theorem goodTitle_titleCandidate {base : Str} (hgood : GoodTitle base)
    (hlen : base.length ≤ maxTitleChars) {n : Nat} (hn : n < 2 ^ 32) :
    GoodTitle (titleCandidate base n) := by
  rw [titleCandidate]
  split_ifs
  · exact hgood
  obtain ⟨hclean, hne, -, -⟩ := (goodTitle_iff base).mp hgood
  have hisclean : IsClean base := hclean ▸ isClean_sanitizeTitle base
  have hdigits : (Nat.toDigits 10 n).length ≤ 10 := by
    rw [Nat.length_toDigits_le_iff (by omega) (by omega)]
    omega
  rw [goodTitle_iff]
  refine ⟨sanitizeTitle_eq_self (hisclean.numbered hne n), by simp, ?_, ?_⟩
  · simp only [List.length_append, List.length_cons, maxWindowTitleChars]
    rw [maxTitleChars] at hlen
    omega
  · simp [isWindowNumber]

theorem goodTitle_titleBase (paneTitle : Str) : GoodTitle (titleBase paneTitle) := by
  rw [titleBase]
  split
  · rename_i base hbase
    exact goodTitle_of_validate hbase
  · exact rfl

theorem length_titleBase {paneTitle : Str} (h : paneTitle.length ≤ maxTitleChars) :
    (titleBase paneTitle).length ≤ maxTitleChars := by
  rw [titleBase]
  split
  · rename_i base hbase
    rw [validateWindowTitle] at hbase
    split_ifs at hbase
    cases hbase
    exact (length_sanitizeTitle paneTitle).trans h
  · decide

end SessionGraphSnapshot
end Shux
