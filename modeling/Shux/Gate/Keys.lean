/-
# Key strings

The `keys` step of a scenario writes keys as vim does: text as it is, and keys by name between
angle brackets. A name that is not known fails the step and is never typed as text.
-/

import Shux.Gate.Compare

namespace Shux.Gate

/-- Why a key string is refused. -/
inductive KeysError where
  | unterminated (keys : Str)
  | unknownToken (name keys : Str)
  | unsupportedShift (name keys : Str)
  | unsupportedControl (name keys : Str)
  deriving DecidableEq, Repr

/-- What is sent for a key. -/
inductive Sent where
  | byte (b : UInt8)
  /-- The upper-case form of a character, in UTF-8. -/
  | uppercase (c : Char)
  deriving DecidableEq, Repr

/-- The bytes of ASCII text. -/
def sentText (text : Str) : List Sent := (utf8 text).map .byte

/-- A terminal sequence behind an escape character. -/
def escaped (text : String) : List Sent := .byte 0x1B :: sentText text.toList

def lowercase (name : Str) : Str := name.map Char.toLower

def decodeNamed (name : Str) : Option (List Sent) :=
  match String.ofList (lowercase name) with
  | "esc" | "escape" => some [.byte 0x1B]
  | "cr" | "enter" | "return" => some [.byte 0x0D]
  | "lf" | "nl" => some [.byte 0x0A]
  | "tab" => some [.byte 0x09]
  | "space" => some (sentText [' '])
  | "bs" | "backspace" => some [.byte 0x7F]
  | "del" | "delete" => some (escaped "[3~")
  | "nul" => some [.byte 0x00]
  | "lt" => some (sentText ['<'])
  | "gt" => some (sentText ['>'])
  | "bslash" => some (sentText ['\\'])
  | "bar" => some (sentText ['|'])
  | "up" => some (escaped "[A")
  | "down" => some (escaped "[B")
  | "right" => some (escaped "[C")
  | "left" => some (escaped "[D")
  | "home" => some (escaped "[H")
  | "end" => some (escaped "[F")
  | "pageup" | "pgup" => some (escaped "[5~")
  | "pagedown" | "pgdn" => some (escaped "[6~")
  | "insert" | "ins" => some (escaped "[2~")
  | "f1" => some (escaped "OP")
  | "f2" => some (escaped "OQ")
  | "f3" => some (escaped "OR")
  | "f4" => some (escaped "OS")
  | "f5" => some (escaped "[15~")
  | "f6" => some (escaped "[17~")
  | "f7" => some (escaped "[18~")
  | "f8" => some (escaped "[19~")
  | "f9" => some (escaped "[20~")
  | "f10" => some (escaped "[21~")
  | "f11" => some (escaped "[23~")
  | "f12" => some (escaped "[24~")
  | _ => none

/-- A named key under shift. -/
def decodeShiftNamed (name keys : Str) : Except KeysError (List Sent) :=
  match String.ofList (lowercase name) with
  | "tab" => .ok (escaped "[Z")
  | "up" => .ok (escaped "[1;2A")
  | "down" => .ok (escaped "[1;2B")
  | "right" => .ok (escaped "[1;2C")
  | "left" => .ok (escaped "[1;2D")
  | "home" => .ok (escaped "[1;2H")
  | "end" => .ok (escaped "[1;2F")
  | _ => .error (.unsupportedShift name keys)

/-- A named key, or a single character. -/
def decodeNamedOrChar (name keys : Str) : Except KeysError (List Sent) :=
  match decodeNamed name, name with
  | some sent, _ => .ok sent
  | none, [c] => .ok (sentText [c])
  | none, _ => .error (.unknownToken name keys)

/-- A key under control. -/
def ctrl (name keys : Str) : Except KeysError (List Sent) :=
  match lowercase name with
  | ['s', 'p', 'a', 'c', 'e'] | ['@'] => .ok [.byte 0x00]
  | ['['] => .ok [.byte 0x1B]
  | ['\\'] => .ok [.byte 0x1C]
  | [']'] => .ok [.byte 0x1D]
  | ['^'] => .ok [.byte 0x1E]
  | ['_'] => .ok [.byte 0x1F]
  | [c] =>
    if 'a' ≤ c ∧ c ≤ 'z' then .ok [.byte (UInt8.ofNat (c.toNat &&& 0x1F))]
    else .error (.unsupportedControl name keys)
  | _ => .error (.unsupportedControl name keys)

/-- What stands between angle brackets, a key under a modifier or a named one. -/
def decodeToken (token keys : Str) : Except KeysError (List Sent) :=
  match token with
  | 'C' :: '-' :: name | 'c' :: '-' :: name => ctrl name keys
  | 'M' :: '-' :: name | 'm' :: '-' :: name | 'A' :: '-' :: name | 'a' :: '-' :: name => do
    return .byte 0x1B :: (← decodeNamedOrChar name keys)
  | ['S', '-', c] | ['s', '-', c] => .ok [.uppercase c]
  | 'S' :: '-' :: name | 's' :: '-' :: name => decodeShiftNamed name keys
  | _ =>
    match decodeNamed token with
    | some sent => .ok sent
    | none => .error (.unknownToken token keys)

/-- Decode a key string from a place in it, behind a bracket that is open or not. -/
def encodeFrom (keys : Str) : Option Str → Str → Except KeysError (List Sent)
  | none, [] => .ok []
  | some _, [] => .error (.unterminated keys)
  | none, c :: rest =>
    if c = '<' then encodeFrom keys (some []) rest
    else do return sentText [c] ++ (← encodeFrom keys none rest)
  | some token, c :: rest =>
    if c = '>' then do
      let sent ← decodeToken token keys
      return sent ++ (← encodeFrom keys none rest)
    else encodeFrom keys (some (token ++ [c])) rest

/-- What is sent for a key string. -/
def encode (keys : Str) : Except KeysError (List Sent) := encodeFrom keys none keys

/-- What is sent for key strings, one after the other. -/
def encodeAll (keys : List Str) : Except KeysError (List Sent) := do
  return (← keys.mapM encode).flatten

/-- Text without an angle bracket is sent as it is. -/
theorem encode_text {keys : Str} (h : '<' ∉ keys) : encode keys = .ok (sentText keys) := by
  have hfrom : ∀ rest : Str, '<' ∉ rest → encodeFrom keys none rest = .ok (sentText rest) := by
    intro rest
    induction rest with
    | nil => exact fun _ => rfl
    | cons c rest ih =>
      intro hrest
      rw [List.mem_cons, not_or] at hrest
      rw [encodeFrom, if_neg (Ne.symm hrest.1), ih hrest.2]
      simp [sentText, utf8, bind, Except.bind, pure, Except.pure]
  exact hfrom keys h

example : encodeAll ["gg".toList, "<C-c>".toList, ":q<CR>".toList] =
    .ok (sentText "gg\x03:q\r".toList) := by decide

end Shux.Gate
