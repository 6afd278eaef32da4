/-
# The lens audit log

Every lens operation leaves a line in the audit log, a JSON object that carries the hash of
the line before it and its own. The log is a set of files: the live one, and up to five older
ones that it was rotated to. A rotation moves every file one number up, and the fresh live
file opens with a header that carries the hash the rotated file ended with.

This module embeds the writer, the rotation and the verification of the set. `serde_json` and
`sha2` are parameters. Every write and rename succeeds.
-/

import Shux.Plugin.Permissions
import Shux.Lib.HashChain

namespace Shux.Lens

open Shux.Plugin (Json)

/-- What the log uses of `serde_json` and `sha2`. A text stands for its UTF-8 encoding. -/
structure Codec where
  toVec : Json → Str
  fromStr : Str → Option Json
  sha256 : Str → List UInt8

/-- Insert into a map that is sorted by its keys. -/
def insertField (key : Str) (value : Json) : List (Str × Json) → List (Str × Json)
  | [] => [(key, value)]
  | (k, v) :: rest =>
    if key = k then (key, value) :: rest
    else if key < k then (key, value) :: (k, v) :: rest
    else (k, v) :: insertField key value rest

def removeField (key : Str) (fields : List (Str × Json)) : List (Str × Json) :=
  fields.filter fun field => decide (field.1 ≠ key)

/-- `as_object_mut` and `insert`. -/
def insertKey (key : Str) (value : Json) : Json → Json
  | .object fields => .object (insertField key value fields)
  | other => other

/-- `as_object_mut` and `remove`. -/
def removeKey (key : Str) : Json → Json
  | .object fields => .object (removeField key fields)
  | other => other

/-- A field of an object, when it is a string. -/
def strField (key : Str) (value : Json) : Option Str := (value.get key).bind Json.asStr

def keyPrevHash : Str := "prev_hash".toList
def keyHash : Str := "hash".toList
def keyMethod : Str := "method".toList
def keyPredecessor : Str := "predecessor".toList
def keyTs : Str := "ts".toList
def auditRotate : Str := "audit.rotate".toList

def auditRotateAtBytes : Nat := 1024 * 1024
def auditKeepRotations : Nat := 5

def genesisHash : Str := List.replicate 64 '0'

/-- The files of the set by number: the live one is 0, `.n` is `n`. -/
abbrev Files := Nat → Option Str

/-- `metadata().len()`: the bytes of a text. -/
def byteLen (text : Str) : Nat := (text.map Char.utf8Size).sum

/-- A line without its terminator, read back to front. -/
def endLine : Str → Str
  | '\r' :: rest => rest.reverse
  | read => read.reverse

/-- `str::lines`, with what was read of the current line. -/
def linesFrom : Str → Str → List Str
  | read, [] => if read = [] then [] else [read.reverse]
  | read, ch :: rest =>
    if ch = '\n' then endLine read :: linesFrom [] rest else linesFrom (ch :: read) rest

def lines (text : Str) : List Str := linesFrom [] text

def rename (files : Files) (source target : Nat) : Files :=
  Function.update (Function.update files target (files source)) source none

/-- Shift `.n` to `.n+1` for `n` from 4 down to 1, then the live file to `.1`. -/
def rotateAudit (files : Files) : Files :=
  let shifted := (List.range' 1 (auditKeepRotations - 1)).reverse.foldl
    (fun files n => if (files n).isSome then rename files n (n + 1) else files) files
  rename shifted 0 1

def hexDigit (n : Nat) : Char := if n < 10 then .ofNat (48 + n) else .ofNat (87 + n)

def hexEncode (bytes : List UInt8) : Str :=
  bytes.flatMap fun b => [hexDigit (b.toNat / 16), hexDigit (b.toNat % 16)]

namespace Codec

variable (c : Codec)

/-- The hash of an entry that carries `prev`. -/
def hashOf (prev : Str) (entry : Json) : Str := hexEncode (c.sha256 (prev ++ c.toVec entry))

/-- What is written for an entry: the entry, the hash before it and its own. -/
def stamp (prev : Str) (entry : Json) : Json :=
  let chained := insertKey keyPrevHash (.string prev) entry
  insertKey keyHash (.string (c.hashOf prev chained)) chained

def lastHashInFile (file : Option Str) : Option Str := do
  let text ← file
  let lastLine ← (lines text).getLast?
  let value ← c.fromStr lastLine
  strField keyHash value

end Codec

/-- The open log and the files it writes. -/
structure LensAuditLog where
  files : Files
  lastHash : Str

namespace LensAuditLog

variable (c : Codec)

/-- Open the log over the files there are. -/
def «open» (files : Files) : LensAuditLog := ⟨files, (c.lastHashInFile (files 0)).getD genesisHash⟩

/-- The value a write leaves in the file, and the log after it. -/
def appendLocked (log : LensAuditLog) (entry : Json) : Json × LensAuditLog :=
  let written := c.stamp log.lastHash entry
  let text := (log.files 0).getD [] ++ (c.toVec written ++ ['\n'])
  (written, ⟨Function.update log.files 0 (some text),
    c.hashOf log.lastHash (insertKey keyPrevHash (.string log.lastHash) entry)⟩)

/-- The fields of the header a fresh live file opens with. -/
def rotateHeader (ts : Str) : List (Str × Json) :=
  [(keyMethod, .string auditRotate), (keyPredecessor, .string "lens-audit.ndjson.1".toList),
    (keyTs, .string ts)]

/-- Whether the live file is over the size at which it rotates. -/
def oversized (log : LensAuditLog) : Bool :=
  match log.files 0 with
  | some text => decide (auditRotateAtBytes < byteLen text)
  | none => false

/-- The values written, in order, and the log after them. -/
def appendBlocking (log : LensAuditLog) (entry : Json) (ts : Str) : List Json × LensAuditLog :=
  if log.oversized then
    let (header, rotated) := appendLocked c { log with files := rotateAudit log.files }
      (.object (rotateHeader ts))
    let (written, log) := appendLocked c rotated entry
    ([header, written], log)
  else
    let (written, log) := appendLocked c log entry
    ([written], log)

end LensAuditLog

/-- The ways verification fails. Lines are counted from 1. -/
inductive ChainError where
  | read
  | notJson (line : Nat)
  | missingPrevHash (line : Nat)
  | unjustifiedAnchor (storedPrev : Str)
  | chainBreak (line : Nat) (storedPrev expected : Str)
  | missingHash (line : Nat)
  | hashMismatch (line : Nat) (storedHash recomputed : Str)
  deriving DecidableEq

/-- What the first entry of a file has to carry. -/
inductive ChainAnchor where
  | exact (hash : Str)
  | trustedStart

def ChainAnchor.start : ChainAnchor → Option Str
  | exact hash => some hash
  | trustedStart => none

namespace Codec

variable (c : Codec)

/-- The hash an entry has to carry, where `none` is before the first entry of a trusted
start. -/
def expectedPrev (prev : Option Str) (value : Json) (storedPrev : Str) : Except ChainError Str :=
  match prev with
  | some hash => .ok hash
  | none =>
    if storedPrev ≠ genesisHash ∧ strField keyMethod value ≠ some auditRotate then
      .error (.unjustifiedAnchor storedPrev)
    else .ok storedPrev

/-- Check the `i`th line, from 0, and take its hash for the next one. -/
def verifyLine (prev : Option Str) (i : Nat) (entry : Str) : Except ChainError Str :=
  match c.fromStr entry with
  | none => .error (.notJson (i + 1))
  | some value =>
    match strField keyPrevHash value with
    | none => .error (.missingPrevHash (i + 1))
    | some storedPrev => do
      let expected ← expectedPrev prev value storedPrev
      if storedPrev ≠ expected then .error (.chainBreak (i + 1) storedPrev expected)
      else
        match strField keyHash value with
        | none => .error (.missingHash (i + 1))
        | some storedHash =>
          let recomputed := c.hashOf expected (removeKey keyHash value)
          if recomputed ≠ storedHash then .error (.hashMismatch (i + 1) storedHash recomputed)
          else .ok storedHash

/-- The number of entries verified and the hash of the last one. -/
def verifyLines (prev : Option Str) (i : Nat) : List Str → Except ChainError (Nat × Option Str)
  | [] => .ok (i, prev)
  | entry :: rest => do
    let hash ← c.verifyLine prev i entry
    verifyLines (some hash) (i + 1) rest

def verifyChainFile (file : Option Str) (anchor : ChainAnchor) :
    Except ChainError (Nat × Str) :=
  match file with
  | none => .error .read
  | some text => do
    let (count, prev) ← c.verifyLines anchor.start 0 (lines text)
    pure (count, prev.getD genesisHash)

end Codec

/-- The numbers of the files of a set, oldest first, the live one last. -/
def setFiles (files : Files) : List Nat :=
  ((List.range' 1 auditKeepRotations).filter fun n => (files n).isSome).reverse ++ [0]

namespace Codec

variable (c : Codec)

/-- Walk the files, each anchored at the hash the one before it ended with. -/
def verifyFiles (files : Files) (anchor : Option Str) (total : Nat) :
    List Nat → Except ChainError Nat
  | [] => .ok total
  | n :: rest => do
    let fileAnchor := match anchor with
      | some hash => ChainAnchor.exact hash
      | none => .trustedStart
    let (count, finalHash) ← c.verifyChainFile (files n) fileAnchor
    verifyFiles files (some finalHash) (total + count) rest

/-- Verify the whole set as one chain, and count its entries. -/
def verifyChainSet (files : Files) : Except ChainError Nat :=
  c.verifyFiles files none 0 (setFiles files)

end Codec

/-- An entry a caller may log: an object that sets neither hash. -/
structure Entry where
  fields : List (Str × Json)
  sorted : fields.Pairwise fun a b => a.1 < b.1
  noPrevHash : fields.lookup keyPrevHash = none
  noHash : fields.lookup keyHash = none

namespace Entry

def value (entry : Entry) : Json := .object entry.fields

/-- The header of a rotation, as an entry. -/
def header (ts : Str) : Entry where
  fields := LensAuditLog.rotateHeader ts
  sorted := by
    simp only [LensAuditLog.rotateHeader, List.pairwise_cons, List.mem_cons, List.not_mem_nil,
      or_false, forall_eq_or_imp,
      forall_eq, IsEmpty.forall_iff, implies_true, List.Pairwise.nil, and_true]
    decide
  noPrevHash := by rfl
  noHash := by rfl

end Entry

/-- What happens to a log: an entry is appended at some time, or the daemon is restarted. -/
inductive Event where
  | append (entry : Entry) (ts : Str)
  | restart

/-- A log and everything that was ever written to it. -/
structure Honest where
  log : LensAuditLog
  written : List Json

namespace Honest

variable (c : Codec)

/-- A log that was just opened where there was none. -/
def fresh : Honest := ⟨.open c fun _ => none, []⟩

def step (honest : Honest) : Event → Honest
  | .append entry ts =>
    let (values, log) := honest.log.appendBlocking c entry.value ts
    ⟨log, honest.written ++ values⟩
  | .restart => { honest with log := .open c honest.log.files }

def run (events : List Event) : Honest := events.foldl (step c) (fresh c)

end Honest

end Shux.Lens
