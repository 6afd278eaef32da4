/-
# Status reports on the wire

A report travels as `key=value` pairs between colons, after `7501;` in an OSC string. Texts
are in base64. A pair with an unknown key or a byte that no value has is skipped, but a value
past its limit, an id that is no path or a text that does not decode discards the whole
report, and so does a later duplicate that mends it.

The base64 engine is not part of the program: it is a parameter here.
-/

import Shux.ProgramStatus.Model

namespace Shux.ProgramStatus

/-- The base64 engine: standard alphabet, padding optional when decoding. -/
class Base64Engine where
  encode : List UInt8 → List UInt8
  decode : List UInt8 → Option (List UInt8)

/-- A finished status message. -/
inductive Message where
  | query
  | report (report : Report)
deriving DecidableEq

/-- Why a payload was discarded. -/
inductive Reject where
  | payloadTooLong
  | keyTooLong
  | valueTooLong
  | badId
  | badText
  | missingState
  | unknownState
deriving Repr, DecidableEq

/-- Largest machine word: the limit of values that have none. -/
def usizeMax : Nat := 2 ^ 64 - 1

section Encode

variable [Base64Engine]

/-- Append a pair. -/
def push (out : List UInt8) (key : String) (value : List UInt8) : List UInt8 :=
  (if out.isEmpty then out else out ++ [0x3a]) ++ (utf8 key ++ 0x3d :: value)

/-- Append a pair if there is a value. -/
def pushSome (out : List UInt8) (key : String) : Option (List UInt8) → List UInt8
  | some value => push out key value
  | none => out

/-- The payload of a report. -/
def encodePayload : Report → List UInt8
  | .clear id =>
    let out := push [] "state" (utf8 "clear")
    pushSome out "id" (id.map fun id => utf8 id.asStr)
  | .set id record =>
    let out := push [] "state" (utf8 record.state.asStr)
    let out := pushSome out "id" (id.map fun id => utf8 id.asStr)
    let out := pushSome out "kind" (record.kind.map fun kind => utf8 kind.asStr)
    let out := pushSome out "progress" (record.progress.map fun progress =>
      utf8 (Nat.repr progress.toNat))
    let out := pushSome out "app" (record.app.map utf8)
    let out := pushSome out "title" (record.title.map fun title => Base64Engine.encode (utf8 title))
    pushSome out "msg" (record.msg.map fun msg => Base64Engine.encode (utf8 msg))

end Encode

def isAsciiLowercase (b : UInt8) : Bool := 0x61 ≤ b && b ≤ 0x7a

def isAsciiDigit (b : UInt8) : Bool := 0x30 ≤ b && b ≤ 0x39

/-- `[A-Za-z0-9_.,+/=-]` -/
def isValueByte (b : UInt8) : Bool :=
  isAsciiAlphanumeric b || b == 0x5f || b == 0x2e || b == 0x2c || b == 0x2b || b == 0x2f ||
    b == 0x3d || b == 0x2d

def isBlank (b : UInt8) : Bool := b == 0x20 || b == 0x09

/-- Without the blanks at both ends. -/
def trim (bytes : List UInt8) : List UInt8 := (bytes.dropWhile isBlank).rdropWhile isBlank

/-- The value of decimal digits. -/
def decimal (digits : List UInt8) : Nat := digits.foldl (fun n d => 10 * n + (d.toNat - 0x30)) 0

/-- `0` to `100` in plain decimal; anything else is absent. -/
def parseProgress (s : String) : Option UInt8 :=
  if (utf8 s).isEmpty || 3 < (utf8 s).length || !(utf8 s).all isAsciiDigit then none
  else if 255 < decimal (utf8 s) then none
  else (some (UInt8.ofNat (decimal (utf8 s)))).filter fun p => p ≤ 100

/-- An app is made of id bytes; any other is absent. -/
def parseApp (s : String) : Option String :=
  if !(utf8 s).isEmpty && (utf8 s).all isIdByte then some s else none

/-- Control characters of Unicode. -/
def isControl (c : Char) : Bool := c.toNat ≤ 0x1f || (0x7f ≤ c.toNat && c.toNat ≤ 0x9f)

section Decode

variable [Base64Engine]

/-- Padding is optional, but when present it completes the last quantum. -/
def badPadding (value : List UInt8) : Bool :=
  match value.idxOf? 0x3d with
  | some pad => value.length % 4 != 0 || 2 < value.length - pad
  | none => false

/-- Base64 text without control characters; empty means absent. -/
def decodeText (value : List UInt8) (maxDecoded : Nat) : Except Reject (Option String) :=
  if value.isEmpty then .ok none
  else if badPadding value then .error .badText
  else
    match Base64Engine.decode value with
    | none => .error .badText
    | some bytes =>
      if maxDecoded < bytes.length then .error .valueTooLong
      else
        match fromUtf8 bytes with
        | none => .error .badText
        | some text =>
          if text.toList.any isControl then .error .badText
          else .ok (if text.isEmpty then none else some text)

/-- The last value of each known key. -/
structure Fields where
  state : Option (List UInt8)
  id : Option RecordId
  kind : Option Kind
  progress : Option UInt8
  app : Option String
  title : Option String
  msg : Option String

namespace Fields

def default : Fields := ⟨none, none, none, none, none, none, none⟩

/-- The longest value of a key. -/
def limit (key : List UInt8) : Nat :=
  if key = utf8 "msg" then maxMsgEncoded
  else if key = utf8 "title" then maxTitleEncoded
  else if key = utf8 "app" then maxAppBytes
  else if key = utf8 "id" then maxIdBytes
  else usizeMax

/-- Keep a value made of value bytes. -/
def keep (fields : Fields) (key value : List UInt8) : Except Reject Fields :=
  let text := (fromUtf8 value).getD ""
  if key = utf8 "state" then .ok { fields with state := some value }
  else if key = utf8 "kind" then .ok { fields with kind := Kind.parse text }
  else if key = utf8 "progress" then .ok { fields with progress := parseProgress text }
  else if key = utf8 "app" then .ok { fields with app := parseApp text }
  else if key = utf8 "title" then
    match decodeText value maxTitleDecoded with
    | .ok title => .ok { fields with title := title }
    | .error reject => .error reject
  else if key = utf8 "msg" then
    match decodeText value maxMsgDecoded with
    | .ok msg => .ok { fields with msg := msg }
    | .error reject => .error reject
  else .ok fields

/-- Check a value against its key, and keep it. -/
def store (fields : Fields) (key value : List UInt8) : Except Reject Fields :=
  if limit key < value.length then
    .error (if key = utf8 "id" then .badId else .valueTooLong)
  else if key = utf8 "id" then
    -- A bad id is never skipped: the report would go to the root record.
    match (fromUtf8 value).bind RecordId.parse with
    | some id => .ok { fields with id := some id }
    | none => .error .badId
  else if !value.all isValueByte then .ok fields
  else fields.keep key value

def take (fields : Fields) (pair : List UInt8) : Except Reject Fields :=
  match pair.idxOf? 0x3d with
  | none => .ok fields
  | some eq =>
    let key := trim (pair.take eq)
    let value := trim (pair.drop (eq + 1))
    if key.isEmpty then .ok fields
    else if maxKeyBytes < key.length then .error .keyTooLong
    else if !key.all isAsciiLowercase then .ok fields
    else fields.store key value

def intoReport (fields : Fields) : Except Reject Report :=
  match fields.state with
  | none => .error .missingState
  | some state =>
    if state = utf8 "clear" then .ok (.clear fields.id)
    else
      match (fromUtf8 state).bind State.parse with
      | none => .error .unknownState
      | some state =>
        .ok (.set fields.id
          { state := state
            kind := fields.kind.filter fun _ => state == .blocked
            progress := fields.progress.filter fun _ => state == .working || state == .blocked
            app := fields.app
            title := fields.title
            msg := fields.msg })

/-- Take every pair of a payload, in order. -/
def takeAll (payload : List UInt8) : Except Reject Fields :=
  (payload.splitOn 0x3a).foldlM take default

end Fields

/-- The message a payload spells. -/
def decode (payload : List UInt8) : Except Reject Message :=
  if maxPayloadBytes < payload.length then .error .payloadTooLong
  else if trim payload = [0x3f] then .ok .query
  else do
    let fields ← Fields.takeAll payload
    let report ← fields.intoReport
    return .report report

end Decode

/-- A text without control characters, within its limit. -/
structure ValidText (limit : Nat) (text : String) : Prop where
  ne_empty : text ≠ ""
  control : ∀ c ∈ text.toList, isControl c = false
  length : (utf8 text).length ≤ limit

/-- The rules of a record. -/
structure Record.Valid (record : Record) : Prop where
  kind : record.kind ≠ none → record.state = .blocked
  progress : ∀ p, record.progress = some p →
    p ≤ 100 ∧ (record.state = .working ∨ record.state = .blocked)
  app : ∀ app, record.app = some app → 1 ≤ (utf8 app).length ∧
    (utf8 app).length ≤ maxAppBytes ∧ ∀ b ∈ utf8 app, isIdByte b = true
  title : ∀ title, record.title = some title → ValidText maxTitleDecoded title
  msg : ∀ msg, record.msg = some msg → ValidText maxMsgDecoded msg

/-- The rules of a report. Its id keeps those of a path by its type. -/
def Report.Valid : Report → Prop
  | .set _ record => record.Valid
  | .clear _ => True

end Shux.ProgramStatus
