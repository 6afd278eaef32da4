/-
# Text: titles, paths and program names

Everything the session graph shows to a person is text that came from somewhere
untrusted: a template, an argv, a directory name, an OSC sequence. This module
embeds the part of the source that turns such text into titles: the character
classes, the sanitizer that every title goes through, the path operations it
reads names from, and the rule that names a pane after its command.

A string is its list of scalar values. A path is a list of units, each of them a
scalar value or a maximal run of bytes that is not UTF-8.
-/

import Mathlib.Data.List.DropRight
import Mathlib.Tactic

namespace Shux

open List

variable (raw : Str)

/-- A Rust `String`: a list of Unicode scalar values. -/
abbrev Str := List Char

/-- Whether a scalar value lies in a closed range of code points. -/
def charBetween (lo hi : Nat) (c : Char) : Bool := lo ≤ c.toNat && c.toNat ≤ hi

/-- `char::is_control`: the general category Cc. -/
def isControl (c : Char) : Bool := charBetween 0x0000 0x001f c || charBetween 0x007f 0x009f c

/-- `char::is_whitespace`: the property White_Space. -/
def isWhitespace (c : Char) : Bool :=
  charBetween 0x0009 0x000d c || charBetween 0x0020 0x0020 c || charBetween 0x0085 0x0085 c ||
  charBetween 0x00a0 0x00a0 c || charBetween 0x1680 0x1680 c || charBetween 0x2000 0x200a c ||
  charBetween 0x2028 0x2029 c || charBetween 0x202f 0x202f c || charBetween 0x205f 0x205f c ||
  charBetween 0x3000 0x3000 c

/-- `str::trim`. -/
def trim (s : Str) : Str := (s.dropWhile isWhitespace).rdropWhile isWhitespace

/-- `str::split_whitespace`: the nonempty pieces between runs of white space. -/
def splitWhitespace (s : Str) : List Str := (s.splitOnP isWhitespace).filter fun w => !w.isEmpty

/-- The default-ignorable code points, less the three that compose sequences a
person types (ZWJ and the two presentation selectors). -/
def isDefaultIgnorable (c : Char) : Bool :=
  if c.toNat = 0x200d || c.toNat = 0xfe0e || c.toNat = 0xfe0f then false
  else
    charBetween 0x00ad 0x00ad c || charBetween 0x034f 0x034f c ||
    charBetween 0x115f 0x1160 c || charBetween 0x17b4 0x17b5 c ||
    charBetween 0x180b 0x180f c || charBetween 0x200b 0x200f c ||
    charBetween 0x202a 0x202e c || charBetween 0x2060 0x206f c ||
    charBetween 0x3164 0x3164 c || charBetween 0xfe00 0xfe0f c ||
    charBetween 0xfeff 0xfeff c || charBetween 0xffa0 0xffa0 c ||
    charBetween 0xfff0 0xfff8 c || charBetween 0x1bca0 0x1bca3 c ||
    charBetween 0x1d173 0x1d17a c || charBetween 0xe0000 0xe0fff c

/-- Characters that must never survive into a stored title. -/
def isTitleHostile (c : Char) : Bool :=
  isControl c ||
  charBetween 0x2028 0x2029 c ||
  (charBetween 0x202a 0x202e c || charBetween 0x2066 0x2069 c) ||
  (charBetween 0x200e 0x200f c || charBetween 0x061c 0x061c c) ||
  isDefaultIgnorable c

/-- Drop every hostile character, then trim. -/
def sanitizeTitle (raw : Str) : Str := trim (raw.filter fun c => !isTitleHostile c)

/-- The longest title a pane will display. -/
def maxTitleChars : Nat := 64

/-- `sanitizeTitle` with the display clamp of pane titles. -/
def sanitizeTitleClamped (raw : Str) : Str :=
  let cleaned := sanitizeTitle raw
  if cleaned.length ≤ maxTitleChars then cleaned else cleaned.take maxTitleChars

/-- Whether a window selector is a window number. -/
def isWindowNumber (spec : Str) : Bool := !spec.isEmpty && spec.all Char.isDigit

/-- One unit of a path: a scalar value, or bytes that are not UTF-8. -/
inductive PathUnit where
  | char (c : Char)
  | invalid (bytes : List UInt8)
  deriving DecidableEq

/-- A `PathBuf`. -/
abbrev PathBuf := List PathUnit

/-- `Path::to_str`: the text of a path that is all UTF-8. -/
def PathBuf.toStr : PathBuf → Option Str
  | [] => some []
  | .char c :: rest => (PathBuf.toStr rest).map (c :: ·)
  | .invalid _ :: _ => none

/-- `Path::to_string_lossy`: each run of invalid bytes becomes U+FFFD. -/
def PathBuf.toStringLossy (path : PathBuf) : Str :=
  path.map fun unit =>
    match unit with
    | .char c => c
    | .invalid _ => '\uFFFD'

/-- The path a string spells. -/
def PathBuf.ofStr (s : Str) : PathBuf := s.map .char

/-- `Path::file_name`: the last component, unless it is the root or `..`.
Empty components and `.` are not components at all. -/
def PathBuf.fileName (path : PathBuf) : Option PathBuf :=
  let components := (path.splitOnP fun unit => unit = .char '/').filter fun part =>
    !part.isEmpty && part ≠ PathBuf.ofStr ".".toList
  match components.getLast? with
  | none => none
  | some part => if part = PathBuf.ofStr "..".toList then none else some part

/-- The file name inside `path`, or `none` when there is not one. -/
def programName (path : Str) : Option Str :=
  match (PathBuf.ofStr path).fileName.bind PathBuf.toStr with
  | none => none
  | some name => if name.isEmpty then none else some name

instance : LawfulBEq Str := inferInstance

/-- Shells whose `-c` takes a script as one argument. -/
def isShell (program : Str) : Bool :=
  program ∈ ["sh".toList, "bash".toList, "zsh".toList, "dash".toList, "ash".toList, "ksh".toList,
    "ksh93".toList, "mksh".toList, "fish".toList, "busybox".toList]

/-- `-c` and the login and interactive variants that shells accept as one cluster. -/
def isShellCommandFlag (flag : Str) : Bool :=
  match flag with
  | '-' :: letters =>
    !letters.isEmpty && letters.contains 'c' && letters.all fun c => c = 'c' || c = 'l' || c = 'i'
  | _ => false

/-- Characters that end a simple command. -/
def isShellOperator (c : Char) : Bool := c ∈ ['|', '&', ';', '<', '>', '(', ')', '\x60', '\n']

/-- Reserved words that open a compound command. -/
def isShellKeyword (token : Str) : Bool :=
  token ∈ ["if".toList, "then".toList, "else".toList, "elif".toList, "fi".toList, "for".toList,
    "while".toList, "until".toList, "do".toList, "done".toList, "case".toList, "esac".toList,
    "in".toList, "select".toList, "function".toList, "coproc".toList, ":".toList, "\x7b".toList,
    "\x7d".toList, "[[".toList, "]]".toList]

/-- Characters that mean a token is shell syntax rather than a program name. -/
def isShellSyntax (c : Char) : Bool :=
  c ∈ ['$', '\x5c', '\x22', '\x27', '*', '?', '[', ']', '\x7b', '\x7d', '~', '#', '!', '=']

/-- `NAME=value` in the leading position. -/
def isEnvAssignment (token : Str) : Bool :=
  if token.contains '=' then
    let name := token.takeWhile (· ≠ '=')
    let value := (token.dropWhile (· ≠ '=')).drop 1
    let nameOk := !name.isEmpty && (name.head?.any fun c => c.isAlpha || c = '_') &&
      name.all fun c => c.isAlphanum || c = '_'
    nameOk && !(value.any fun c => c ≠ '=' && isShellSyntax c)
  else false

/-- The loop of `scriptLeadingWord` over the tokens of the first simple command. -/
def leadingWord : List Str → Option Str
  | [] => none
  | token :: rest =>
    if token = "exec".toList || token = "time".toList || isEnvAssignment token then
      leadingWord rest
    else if isShellKeyword token || token.any isShellSyntax then none
    else if token.head? = some '-' then none
    else
      match programName token with
      | none => none
      | some name => if name.all Char.isDigit then none else some name

/-- The first word of a shell script that names the program it runs. -/
def scriptLeadingWord (script : Str) : Option Str :=
  leadingWord (splitWhitespace (script.takeWhile fun c => !isShellOperator c))

/-- The program name to show for a pane running `command`. -/
def commandDisplayName (command : List Str) : Option Str :=
  match command with
  | [] => none
  | raw :: args =>
    let program := programName raw
    let word : Option Str :=
      match program, args with
      | some shell, flag :: script :: _ =>
        if isShell shell && isShellCommandFlag flag then scriptLeadingWord script else none
      | _, _ => none
    match word with
    | some w => some w
    | none => program

/-- Text that the sanitizer has nothing to do for. -/
structure IsClean (t : Str) : Prop where
  inert : ∀ c ∈ t, isTitleHostile c = false
  head : ∀ h : t ≠ [], isWhitespace (t.head h) = false
  last : ∀ h : t ≠ [], isWhitespace (t.getLast h) = false

theorem trim_subset (t : Str) : trim t ⊆ t := fun _ hc =>
  (dropWhile_sublist _).subset (( rdropWhile_prefix isWhitespace _).subset hc)

theorem isClean_sanitizeTitle : IsClean (sanitizeTitle raw) where
  inert := by
    intro c hc
    have hmem := trim_subset _ hc
    simpa using (List.mem_filter.mp hmem).2
  head := by
    intro h
    -- The front of a string trimmed at the back is the front it had before.
    have hpre := rdropWhile_prefix isWhitespace
      ((raw.filter fun c => !isTitleHostile c).dropWhile isWhitespace)
    have hne : ((raw.filter fun c => !isTitleHostile c).dropWhile isWhitespace) ≠ [] := by
      intro hnil
      exact h (by rw [sanitizeTitle, trim, hnil, rdropWhile_nil])
    have heq : (sanitizeTitle raw).head h =
        ((raw.filter fun c => !isTitleHostile c).dropWhile isWhitespace).head hne :=
      hpre.head h
    rw [heq]
    exact head_dropWhile_not isWhitespace hne
  last := by
    intro h
    exact Bool.eq_false_iff.mpr (rdropWhile_last_not _ _ h)

/-- Clean text is exactly what the sanitizer leaves as it is. -/
theorem sanitizeTitle_eq_self {t : Str} (h : IsClean t) : sanitizeTitle t = t := by
  have hfilter : (t.filter fun c => !isTitleHostile c) = t := by
    rw [filter_eq_self]
    intro c hc
    simp [h.inert c hc]
  rw [sanitizeTitle, hfilter, trim]
  by_cases hne : t = []
  · simp [hne]
  · have hdrop : t.dropWhile isWhitespace = t := by
      cases t with
      | nil => rfl
      | cons c rest =>
        have hc := h.head hne
        simp only [head_cons] at hc
        simp [dropWhile, hc]
    rw [hdrop, rdropWhile_eq_self_iff]
    intro hl
    simp [h.last hl]

theorem sanitizeTitle_idem : sanitizeTitle (sanitizeTitle raw) = sanitizeTitle raw :=
  sanitizeTitle_eq_self (isClean_sanitizeTitle raw)

theorem toNat_of_isDigit {c : Char} (h : c.isDigit = true) : 48 ≤ c.toNat ∧ c.toNat ≤ 57 := by
  simp only [Char.isDigit, Bool.and_eq_true, decide_eq_true_eq, ge_iff_le,
    UInt32.le_iff_toNat_le] at h
  exact h

/-- Printable ASCII is neither hostile nor white space. -/
theorem inert_of_ascii {c : Char} (hlo : 0x21 ≤ c.toNat) (hhi : c.toNat ≤ 0x7e) :
    isTitleHostile c = false ∧ isWhitespace c = false := by
  simp only [isTitleHostile, isWhitespace, isControl, isDefaultIgnorable, charBetween]
  constructor
  · simp
    omega
  · simp
    omega

/-- A numbered candidate of clean text is clean. -/
theorem IsClean.numbered {base : Str} (h : IsClean base) (hne : base ≠ []) (n : Nat) :
    IsClean (base ++ '-' :: Nat.toDigits 10 n) := by
  have hdash : isTitleHostile '-' = false ∧ isWhitespace '-' = false :=
    inert_of_ascii (by decide) (by decide)
  have hdigit : ∀ c ∈ Nat.toDigits 10 n, isTitleHostile c = false ∧ isWhitespace c = false := by
    intro c hc
    have hc := toNat_of_isDigit (Nat.isDigit_of_mem_toDigits (by decide) (by decide) hc)
    exact inert_of_ascii (by omega) (by omega)
  refine ⟨?_, ?_, ?_⟩
  · intro c hc
    rcases List.mem_append.mp hc with hbase | htail
    · exact h.inert c hbase
    · rcases List.mem_cons.mp htail with rfl | hnum
      · exact hdash.1
      · exact (hdigit c hnum).1
  · intro hnil
    rw [head_append_of_ne_nil hne]
    exact h.head hne
  · intro hnil
    have hnum : Nat.toDigits 10 n ≠ [] := Nat.toDigits_ne_nil
    rw [getLast_append_of_ne_nil _ (cons_ne_nil _ _), getLast_cons hnum]
    exact (hdigit _ (getLast_mem hnum)).2

theorem length_sanitizeTitleClamped : (sanitizeTitleClamped raw).length ≤ maxTitleChars := by
  simp only [sanitizeTitleClamped]
  split_ifs with h
  · exact h
  · simp

theorem length_sanitizeTitle : (sanitizeTitle raw).length ≤ raw.length := by
  have hsub : (sanitizeTitle raw).Sublist raw :=
    (( rdropWhile_prefix isWhitespace _).sublist.trans (dropWhile_sublist _)).trans
      filter_sublist
  exact hsub.length_le

end Shux
