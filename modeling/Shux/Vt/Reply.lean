/-
# Styles, colours and replies

How parameters become the pen, how an operating system command names a colour, and the
texts the terminal answers with.
-/

import Shux.Vt.Handler

namespace Shux.Vt

open String

/-- The style and the extended attributes of the next character. -/
structure Pen where
  style : CellStyle
  extended : Option ExtendedAttrs
deriving DecidableEq, Repr

namespace Pen

def setFlag (pen : Pen) (flag : UInt8) : Pen :=
  { pen with style := { pen.style with flags := pen.style.flags.set flag } }

def unsetFlag (pen : Pen) (flag : UInt8) : Pen :=
  { pen with style := { pen.style with flags := pen.style.flags.unset flag } }

def setFg (pen : Pen) (color : Color) : Pen := { pen with style := { pen.style with fg := color } }

def setBg (pen : Pen) (color : Color) : Pen := { pen with style := { pen.style with bg := color } }

/-- Change the extended attributes, and drop them when all are back at their defaults. -/
def setExtended (pen : Pen) (f : ExtendedAttrs → ExtendedAttrs) : Pen :=
  { pen with extended := pruneDefaultExtended (some (f (pen.extended.getD .default))) }

def setHyperlink (pen : Pen) (hyperlink : Option String) : Pen :=
  pen.setExtended fun attrs => { attrs with hyperlink }

def setUnderlineStyle (pen : Pen) (underlineStyle : UnderlineStyle) : Pen :=
  pen.setExtended fun attrs => { attrs with underlineStyle }

def setUnderlineColor (pen : Pen) (underlineColor : Option Color) : Pen :=
  pen.setExtended fun attrs => { attrs with underlineColor }

/-- Underline with a style, or not at all. -/
def underlineWith (pen : Pen) (style : UnderlineStyle) : Pen :=
  match style with
  | .none => (pen.unsetFlag CellFlags.underline).setUnderlineStyle .none
  | style => (pen.setFlag CellFlags.underline).setUnderlineStyle style

end Pen

/-- Apply one rendition parameter to the pen; `none` when it means nothing. -/
def applySgr (pen : Pen) (param : Nat) : Option Pen :=
  match param with
  | 0 => some ⟨.default, none⟩
  | 1 => some (pen.setFlag CellFlags.bold)
  | 2 => some (pen.setFlag CellFlags.dim)
  | 3 => some (pen.setFlag CellFlags.italic)
  | 4 => some (pen.underlineWith .single)
  | 5 => some (pen.setFlag CellFlags.blink)
  | 6 => some (pen.setFlag CellFlags.blink)
  | 7 => some (pen.setFlag CellFlags.inverse)
  | 8 => some (pen.setFlag CellFlags.hidden)
  | 9 => some (pen.setFlag CellFlags.strikethrough)
  | 21 => some (pen.unsetFlag CellFlags.bold)
  | 22 => some ((pen.unsetFlag CellFlags.bold).unsetFlag CellFlags.dim)
  | 23 => some (pen.unsetFlag CellFlags.italic)
  | 24 => some (pen.underlineWith .none)
  | 25 => some (pen.unsetFlag CellFlags.blink)
  | 27 => some (pen.unsetFlag CellFlags.inverse)
  | 28 => some (pen.unsetFlag CellFlags.hidden)
  | 29 => some (pen.unsetFlag CellFlags.strikethrough)
  | 39 => some (pen.setFg .default)
  | 49 => some (pen.setBg .default)
  | 59 => some (pen.setUnderlineColor none)
  | param =>
    if 30 ≤ param ∧ param ≤ 37 then some (pen.setFg (.indexed (.ofNat (param - 30))))
    else if 40 ≤ param ∧ param ≤ 47 then some (pen.setBg (.indexed (.ofNat (param - 40))))
    else if 90 ≤ param ∧ param ≤ 97 then some (pen.setFg (.indexed (.ofNat (param - 90 + 8))))
    else if 100 ≤ param ∧ param ≤ 107 then some (pen.setBg (.indexed (.ofNat (param - 100 + 8))))
    else none

def sgrU8 (value : Nat) : UInt8 := .ofNat (min value 255)

/-- A colour written as sub-parameters of one group. -/
def parseSgrColorTail (tail : List Nat) : Option Color :=
  match tail with
  | 5 :: index :: _ => some (.indexed (sgrU8 index))
  | 2 :: _ :: _ :: _ :: _ =>
    match tail.drop (tail.length - 3) with
    | [r, g, b] => some (.rgb (sgrU8 r) (sgrU8 g) (sgrU8 b))
    | _ => none
  | _ => none

/-- The colour the group at the head introduces, and how many groups it takes. -/
def parseSgrColor (groups : List (List Nat)) : Option (Color × Nat) :=
  match groups with
  | [] => none
  | group :: rest =>
    if 1 < group.length then (parseSgrColorTail group.tail).map fun color => (color, 1)
    else
      match rest with
      | (5 :: _) :: (index :: _) :: _ => some (.indexed (sgrU8 index), 3)
      | (2 :: _) :: (r :: _) :: (g :: _) :: (b :: _) :: _ =>
        some (.rgb (sgrU8 r) (sgrU8 g) (sgrU8 b), 5)
      | _ => none

/-- The underline style a sub-parameter names. -/
def underlineSubparam : Nat → Option UnderlineStyle
  | 0 => some .none
  | 1 => some .single
  | 2 => some .double
  | 3 => some .curly
  | 4 => some .dotted
  | 5 => some .dashed
  | _ => none

/-- What the group at the head does to the pen, `none` when it leaves it alone, and how
many groups it takes. -/
def sgrGroup (pen : Pen) (group : List Nat) (groups : List (List Nat)) : Option Pen × Nat :=
  let colored (set : Color → Pen) : Option Pen × Nat :=
    match parseSgrColor groups with
    | some (color, consumed) => (some (set color), consumed)
    | none => (none, 1)
  match group with
  | [] => (applySgr pen 0, 1)
  | 4 :: style :: _ => ((underlineSubparam style).map pen.underlineWith, 1)
  | 38 :: _ => colored pen.setFg
  | 48 :: _ => colored pen.setBg
  | 58 :: _ => colored fun color => pen.setUnderlineColor (some color)
  | 59 :: _ => (some (pen.setUnderlineColor none), 1)
  | params =>
    let (pen, wrote) := params.foldl (fun (pen, wrote) param =>
      match applySgr pen param with
      | some pen => (pen, true)
      | none => (pen, wrote)) (pen, false)
    (if wrote then some pen else none, 1)

/-- Apply every group in turn; the flag says whether the pen was written at all. The fuel
is the number of groups, each of which is taken at most once. -/
def sgrGroups : Nat → Pen → Bool → List (List Nat) → Pen × Bool
  | 0, pen, wrote, _ => (pen, wrote)
  | _ + 1, pen, wrote, [] => (pen, wrote)
  | fuel + 1, pen, wrote, group :: groups =>
    match sgrGroup pen group (group :: groups) with
    | (some pen, taken) => sgrGroups fuel pen true ((group :: groups).drop taken)
    | (none, taken) => sgrGroups fuel pen wrote ((group :: groups).drop taken)

def hexDigit (ch : Char) : Option Nat :=
  if '0' ≤ ch ∧ ch ≤ '9' then some (ch.toNat - '0'.toNat)
  else if 'a' ≤ ch ∧ ch ≤ 'f' then some (ch.toNat - 'a'.toNat + 10)
  else if 'A' ≤ ch ∧ ch ≤ 'F' then some (ch.toNat - 'A'.toNat + 10)
  else none

/-- An unsigned number in a radix of at most sixteen: an optional plus sign, then at least
one digit. -/
def fromStrRadix (text : List Char) (radix : Nat) : Option Nat :=
  let digits := match text with
    | '+' :: rest => rest
    | text => text
  if digits.isEmpty then none
  else
    digits.foldl (fun value ch => do
      let value ← value
      let digit ← hexDigit ch
      if digit < radix then some (value * radix + digit) else none) (some 0)

/-- A number of a bounded width, `none` when it overflows. -/
def parseBounded (text : List Char) (radix bound : Nat) : Option Nat :=
  (fromStrRadix text radix).filter fun value => decide (value < bound)

/-- Two digits of a number in hexadecimal. -/
def hex2 (n : Nat) : String :=
  let digits := Nat.toDigits 16 n
  ofList (List.replicate (2 - digits.length) '0' ++ digits)

/-- Four digits of a number in hexadecimal. -/
def hex4 (n : Nat) : String :=
  let digits := Nat.toDigits 16 n
  ofList (List.replicate (4 - digits.length) '0' ++ digits)

/-- The text of some bytes, if they are UTF-8. -/
def utf8Text (bytes : List UInt8) : Option (List Char) := (fromUTF8? ⟨bytes.toArray⟩).map toList

/-- The bytes of an ASCII text. -/
def asciiBytes (text : String) : List UInt8 := text.toList.map fun ch => .ofNat ch.toNat

def parseHexColor (hex : List Char) : Option Rgb :=
  match hex.map hexDigit with
  | [some r₁, some r₀, some g₁, some g₀, some b₁, some b₀] =>
    some ⟨.ofNat (r₁ * 16 + r₀), .ofNat (g₁ * 16 + g₀), .ofNat (b₁ * 16 + b₀)⟩
  | _ => none

def parseRgbComponent (component : List Char) : Option UInt8 :=
  if component.isEmpty ∨ 4 < component.length then none
  else do
    let value ← parseBounded component 16 (2 ^ 16)
    let max := 2 ^ (component.length * 4) - 1
    some (.ofNat ((value * 255 + max / 2) / max))

def parseRgbColor (rgb : List Char) : Option Rgb :=
  match rgb.splitOn '/' with
  | [r, g, b] => do
    let r ← parseRgbComponent r
    let g ← parseRgbComponent g
    let b ← parseRgbComponent b
    some ⟨r, g, b⟩
  | _ => none

def parseOscColor (bytes : List UInt8) : Option Rgb := do
  let text ← utf8Text bytes
  match text with
  | '#' :: hex => parseHexColor hex
  | 'r' :: 'g' :: 'b' :: ':' :: rgb => parseRgbColor rgb
  | _ => none

def formatOscRgb (rgb : Rgb) : String :=
  s!"rgb:{hex4 (rgb.r.toNat * 257)}/{hex4 (rgb.g.toNat * 257)}/{hex4 (rgb.b.toNat * 257)}"

def oscTerminator (bellTerminated : Bool) : String := if bellTerminated then "\x07" else "\x1b\\"

def xtermBase16 : List Rgb :=
  [⟨0, 0, 0⟩, ⟨205, 0, 0⟩, ⟨0, 205, 0⟩, ⟨205, 205, 0⟩, ⟨0, 0, 238⟩, ⟨205, 0, 205⟩, ⟨0, 205, 205⟩,
    ⟨229, 229, 229⟩, ⟨127, 127, 127⟩, ⟨255, 0, 0⟩, ⟨0, 255, 0⟩, ⟨255, 255, 0⟩, ⟨92, 92, 255⟩,
    ⟨255, 0, 255⟩, ⟨0, 255, 255⟩, ⟨255, 255, 255⟩]

def xterm256Palette (index : Nat) : Rgb :=
  if h : index < xtermBase16.length then xtermBase16.get ⟨index, h⟩
  else if index ≤ 231 then
    let n := index - 16
    let component (v : Nat) : UInt8 := .ofNat (if v = 0 then 0 else 55 + v * 40)
    ⟨component (n / 36), component (n / 6 % 6), component (n % 6)⟩
  else
    let level : UInt8 := .ofNat (8 + (index - 232) * 10)
    ⟨level, level, level⟩

/-- Bound a window title. -/
def clampTitle (title : List Char) : String := ofList (title.take maxTitleChars)

def osc8PayloadWasTruncated (params : List (List UInt8)) : Bool :=
  decide (vteMaxOscParams ≤ params.length) ||
    decide (maxOscPayloadBytes ≤ (params.map List.length).sum)

def joinOscParts (parts : List (List UInt8)) : List UInt8 := [';'.toUInt8].intercalate parts

def isControl (ch : Char) : Bool :=
  decide (ch.toNat < 0x20) || (decide (0x7f ≤ ch.toNat) && decide (ch.toNat < 0xa0))

/-- The value of a capability the terminal has. -/
def capability (name : String) : Option String :=
  if name = "Co" ∨ name = "colors" then some "256"
  else if name = "TN" ∨ name = "name" then some "xterm-256color"
  else if name = "RGB" ∨ name = "Tc" then some ""
  else if name = "AX" then some ""
  else if name = "Ms" then some "\x1b]52;%p1%s;%p2%s\x07"
  else if name = "Ss" then some "\x1b[%p1%d q"
  else if name = "Se" then some "\x1b[ q"
  else if name = "smcup" ∨ name = "ti" then some "\x1b[?1049h"
  else if name = "rmcup" ∨ name = "te" then some "\x1b[?1049l"
  else if name = "smkx" ∨ name = "ks" then some "\x1b[?1h\x1b="
  else if name = "rmkx" ∨ name = "ke" then some "\x1b[?1l\x1b>"
  else if name = "setaf" ∨ name = "AF" then
    some ("\x1b[%?%p1%\x7b8\x7d%<%t3%p1%d%e%p1%\x7b16\x7d%<%t9%p1%\x7b8\x7d%-%d" ++
      "%e38;5;%p1%d%;m")
  else if name = "setab" ∨ name = "AB" then
    some ("\x1b[%?%p1%\x7b8\x7d%<%t4%p1%d%e%p1%\x7b16\x7d%<%t10%p1%\x7b8\x7d%-%d" ++
      "%e48;5;%p1%d%;m")
  else if name = "setrgbf" then some "\x1b[38;2;%p1%d;%p2%d;%p3%dm"
  else if name = "setrgbb" then some "\x1b[48;2;%p1%d;%p2%d;%p3%dm"
  else none

/-- Pairs of characters, `none` when one is left over. -/
def charPairs : List Char → Option (List (List Char))
  | [] => some []
  | a :: b :: rest => (charPairs rest).map ([a, b] :: ·)
  | [_] => none

def decodeHexAscii (encoded : List Char) : Option (List Char) := do
  let pairs ← charPairs encoded
  let bytes ← pairs.mapM fun pair => parseBounded pair 16 256
  utf8Text (bytes.map UInt8.ofNat)

def encodeHexAscii (value : String) : String :=
  join (value.toUTF8.toList.map fun byte => hex2 byte.toNat)

/-- Answer a query for capabilities; one unknown name refuses them all. -/
def xtgettcapResponse (payload : List UInt8) : Option String := do
  let names ← utf8Text payload
  let pairs ← ((names.splitOn ';').filter fun name => !name.isEmpty).mapM fun encoded => do
    let name ← decodeHexAscii encoded
    let value ← capability (ofList name)
    some (encodeHexAscii (ofList name ++ "=" ++ value))
  if pairs.isEmpty then none else some ("\x1bP1+r" ++ ";".intercalate pairs ++ "\x1b\\")

def appendColorSgr (color : Color) (background : Bool) : List String :=
  match color with
  | .default => []
  | .indexed index =>
    let n := index.toNat
    if n ≤ 7 then [toString (n + if background then 40 else 30)]
    else if n ≤ 15 then [toString (n - 8 + if background then 100 else 90)]
    else [if background then "48" else "38", "5", toString n]
  | .rgb r g b =>
    [if background then "48" else "38", "2", toString r.toNat, toString g.toNat, toString b.toNat]

def appendUnderlineColorSgr (color : Color) : List String :=
  match color with
  | .default => ["59"]
  | .indexed index => ["58", "5", toString index.toNat]
  | .rgb r g b => ["58", "2", toString r.toNat, toString g.toNat, toString b.toNat]

def underlineSgr (extended : Option ExtendedAttrs) : String :=
  match (extended.map fun ext => ext.underlineStyle).getD .single with
  | .none => "4"
  | .single => "4"
  | .double => "4:2"
  | .curly => "4:3"
  | .dotted => "4:4"
  | .dashed => "4:5"

def sgrResponse (style : CellStyle) (extended : Option ExtendedAttrs) : String :=
  let flag (bit : UInt8) (text : String) : List String :=
    if style.flags.contains bit then [text] else []
  let params :=
    flag CellFlags.bold "1" ++ flag CellFlags.dim "2" ++ flag CellFlags.italic "3" ++
      flag CellFlags.underline (underlineSgr extended) ++ flag CellFlags.blink "5" ++
      flag CellFlags.inverse "7" ++ flag CellFlags.hidden "8" ++
      flag CellFlags.strikethrough "9" ++ appendColorSgr style.fg false ++
      appendColorSgr style.bg true ++
      ((extended.bind fun ext => ext.underlineColor).map appendUnderlineColorSgr).getD []
  if params.isEmpty then "0" else ";".intercalate params

/-- Answer a query for the current value of a setting. -/
def decrqssResponse (payload : List UInt8) (s : Screen) : Option String :=
  let shape := match s.cursor.shape with
    | .block => "1"
    | .underline => "3"
    | .bar => "5"
  let response :=
    if payload = asciiBytes "m" then some (sgrResponse s.cursor.style s.cursor.extended ++ "m")
    else if payload = asciiBytes "r" then
      some s!"{s.scrollRegion.top + 1};{s.scrollRegion.bottom + 1}r"
    else if payload = asciiBytes " q" then some (shape ++ " q")
    else if payload = asciiBytes "\"q" then some "0\"q"
    else if payload = asciiBytes "\"p" then some "61;1\"p"
    else none
  response.map fun text => "\x1bP1$r" ++ text ++ "\x1b\\"

def modeReport (enabled : Bool) : Nat := if enabled then 1 else 2

def standardModeReportValue (modes : TerminalModes) (mode : Nat) : Nat :=
  match mode with
  | 4 => modeReport modes.insertMode
  | 20 => modeReport modes.newlineMode
  | _ => 0

def privateModeReportValue (modes : TerminalModes) (mode : Nat) : Nat :=
  match mode with
  | 1 => modeReport modes.applicationCursorKeys
  | 6 => modeReport modes.originMode
  | 7 => modeReport modes.autoWrap
  | 25 => modeReport modes.cursorVisible
  | 66 => modeReport modes.applicationKeypad
  | 1000 => modeReport (modes.mouseTracking == .normal)
  | 1002 => modeReport (modes.mouseTracking == .buttonEvent)
  | 1003 => modeReport (modes.mouseTracking == .anyEvent)
  | 1004 => modeReport modes.focusEvents
  | 1006 => modeReport modes.sgrMouse
  | 1007 => modeReport modes.alternateScroll
  | 47 => modeReport modes.alternateScreen
  | 1047 => modeReport modes.alternateScreen
  | 1049 => modeReport modes.alternateScreen
  | 2004 => modeReport modes.bracketedPaste
  | 2026 => modeReport modes.synchronizedOutput
  | _ => 0

namespace Handler

def reportMode (h : Handler) (mode : Nat) (isPrivate : Bool) : Handler :=
  if isPrivate then h.pushResponse s!"\x1b[?{mode};{privateModeReportValue h.modes mode}$y"
  else h.pushResponse s!"\x1b[{mode};{standardModeReportValue h.modes mode}$y"

def reportCursorPosition (h : Handler) (isPrivate : Bool) : Handler :=
  let row :=
    if h.modes.originMode then h.cursor.row - min h.scrollRegion.top h.gridLastRow + 1
    else h.cursor.row + 1
  let col := h.cursor.col + 1
  if isPrivate then h.pushResponse s!"\x1b[?{row};{col}R" else h.pushResponse s!"\x1b[{row};{col}R"

end Handler

end Shux.Vt
