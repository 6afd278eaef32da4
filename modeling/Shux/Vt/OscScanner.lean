/-
# Finding status strings

Programs report their status in OSC 7501 strings and mark prompts and commands with OSC 133.
The parser underneath cannot tell how a string ended, so a scanner of its own finds them
across reads of any length, and notes where each one ended. It drops a sequence past the
limit but keeps enough of it to know that a command started or ended.

The scanner realises an automaton that takes the bytes one at a time, and what that
automaton reports is what a grammar of the stream says, with no state in it.
-/

import Shux.Vt.ApcScanner

namespace Shux.Vt

open List Transducer

/-- Longest sequence on the wire that is acted on, framing included. -/
def maxSequenceBytes : Nat := 4096

/-- Body bytes kept past the limit. -/
def poisonedPrefix : Nat := 24

/-- Largest machine word; lengths saturate there. -/
def usizeMax : Nat := 2 ^ 64 - 1

def saturatingAdd (m n : Nat) : Nat := min (m + n) usizeMax

/-- The number of status reports, `7501`. -/
def oscNumber : List UInt8 := [0x37, 0x35, 0x30, 0x31]

/-- A finished string the status code acts on. -/
inductive CutAction where
  | report (payload : List UInt8) (bel : Bool)
  | promptStart
  | commandStart
  | commandEnd (exitCode : Option Int)
deriving Repr, DecidableEq

/-- A finished string: one past its terminator, and what to do. -/
abbrev StatusCut := Cut CutAction

/-- The value of decimal digits, most significant first. -/
def decimal (digits : List UInt8) : Nat := digits.foldl (fun n d => 10 * n + (d.toNat - 0x30)) 0

/-- A plain decimal number, optionally negative, that fits 32 bits. -/
def parseI32 (field : List UInt8) : Option Int :=
  match field.dropPrefix? [0x2d] with
  | some digits => if decimal digits ≤ 2 ^ 31 then some (-(decimal digits)) else none
  | none => if decimal field < 2 ^ 31 then some (decimal field) else none

def isAsciiDigit (b : UInt8) : Bool := 0x30 ≤ b && b ≤ 0x39

/-- The exit code of a `133;D` body, its first field. A field of a truncated body counts
only if it ended within it. -/
def exitField (body : List UInt8) (truncated : Bool) : Option Int := do
  let rest ← body.dropPrefix? [0x31, 0x33, 0x33, 0x3b, 0x44, 0x3b]
  let stop := rest.findIdx? (· == 0x3b)
  if truncated && stop.isNone then none
  else
    let field := rest.take (stop.getD rest.length)
    let digits := (field.dropPrefix? [0x2d]).getD field
    if digits.isEmpty || !digits.all isAsciiDigit then none else parseI32 field

def classify (body : List UInt8) (bel : Bool) : Option CutAction :=
  match (body.dropPrefix? oscNumber).bind (·.dropPrefix? [0x3b]) with
  | some payload => some (.report payload bel)
  | none => do
    let rest ← body.dropPrefix? [0x31, 0x33, 0x33, 0x3b]
    match rest with
    | [] => none
    | mark :: params =>
      if !(params.isEmpty || [0x3b].isPrefixOf params) then none
      else if mark == 0x41 then some .promptStart
      else if mark == 0x43 then some .commandStart
      else if mark == 0x44 then some (.commandEnd (exitField body false))
      else none

/-- Outside strings, after an ESC there, in a string, after an ESC there. -/
inductive OscStatusScanner.State where
  | ground
  | esc
  | osc
  | oscEsc
deriving Repr, DecidableEq

structure OscStatusScanner where
  state : OscStatusScanner.State
  /-- The body as the parser would retain it. -/
  body : List UInt8
  /-- Length of the sequence on the wire so far. -/
  rawLen : Nat
  /-- Past the limit: followed to its end, most of it forgotten. -/
  poisoned : Bool
deriving Repr, DecidableEq

namespace OscStatusScanner

def default : OscStatusScanner := ⟨.ground, [], 0, false⟩

def reset (_ : OscStatusScanner) (state : State) : OscStatusScanner := ⟨state, [], 0, false⟩

def begin (s : OscStatusScanner) : OscStatusScanner := { s.reset .osc with rawLen := 2 }

/-- Control bytes the parser drops from a string without storing them. -/
def ignored (b : UInt8) : Bool :=
  b ≤ 0x06 || (0x08 ≤ b && b ≤ 0x17) || b == 0x19 || (0x1c ≤ b && b ≤ 0x1f)

/-- Payload bytes between terminators. -/
def takeBody (s : OscStatusScanner) (span : List UInt8) : OscStatusScanner :=
  let rawLen := saturatingAdd s.rawLen span.length
  let kept := span.filter fun b => !ignored b
  if s.poisoned || maxSequenceBytes < rawLen then
    let body := s.body.take poisonedPrefix
    let room := poisonedPrefix - body.length
    { s with rawLen := rawLen, body := body ++ kept.take room, poisoned := true }
  else { s with rawLen := rawLen, body := s.body ++ kept }

/-- What a sequence past the limit still says. -/
def boundaryOnly (body : List UInt8) (bel : Bool) : Option CutAction :=
  match classify body bel with
  | some .commandStart => some .commandStart
  | some (.commandEnd _) => some (.commandEnd (exitField body (poisonedPrefix ≤ body.length)))
  | _ => none

/-- A terminator arrived: the action, if any, and the scanner outside strings again. -/
def finish (s : OscStatusScanner) (stop : Nat) (bel : Bool) : OscStatusScanner × List StatusCut :=
  let action :=
    if s.poisoned || maxSequenceBytes < s.rawLen then boundaryOnly s.body bel
    else classify s.body bel
  (s.reset .ground, (action.map (Cut.mk stop)).toList)

/-- The scanning loop: `i` bytes of the read are behind, `rest` is ahead. -/
def scanFrom (s : OscStatusScanner) (i : Nat) (rest : List UInt8) :
    OscStatusScanner × List StatusCut :=
  match rest with
  | [] => (s, [])
  | b :: tail =>
    match h : s.state with
    | .ground =>
      match memchr (· == 0x1b) (b :: tail) with
      | some off => scanFrom { s with state := .esc } (i + off + 1) ((b :: tail).drop (off + 1))
      | none => (s, [])
    | .esc =>
      if b == 0x5d then scanFrom s.begin (i + 1) tail
      else if staysInEscape b then scanFrom s (i + 1) tail
      else scanFrom { s with state := .ground } (i + 1) tail
    | .osc =>
      -- CAN and SUB are sought only before the first BEL or ESC
      let stop := memchr (fun c => c == 0x07 || c == 0x1b) (b :: tail)
      let window := (b :: tail).take (stop.getD (b :: tail).length)
      match (memchr (fun c => c == 0x18 || c == 0x1a) window).or stop with
      | some off =>
        let s := s.takeBody ((b :: tail).take off)
        let c := (b :: tail).getD off 0
        let s := { s with rawLen := saturatingAdd s.rawLen 1 }
        if c == 0x07 then
          let done := s.finish (i + off + 1) true
          let later := scanFrom done.1 (i + off + 1) ((b :: tail).drop (off + 1))
          (later.1, done.2 ++ later.2)
        else if c == 0x1b then
          scanFrom { s with state := .oscEsc } (i + off + 1) ((b :: tail).drop (off + 1))
        else scanFrom (s.reset .ground) (i + off + 1) ((b :: tail).drop (off + 1))
      | none => (s.takeBody (b :: tail), [])
    | .oscEsc =>
      if b == 0x5c then
        let s := { s with rawLen := saturatingAdd s.rawLen 1 }
        let done := s.finish (i + 1) false
        let later := scanFrom done.1 (i + 1) tail
        (later.1, done.2 ++ later.2)
      -- the byte is still to come, in the escape the string died of
      else scanFrom (s.reset .esc) i (b :: tail)
termination_by (rest.length, if s.state = .oscEsc then 1 else 0)
decreasing_by
  all_goals simp only [Prod.lex_def, length_cons, length_drop]
  all_goals first | (left; omega) | (right; simp [h, reset])

/-- Every relevant string that completes within the read, in stream order. -/
def scan (s : OscStatusScanner) (chunk : List UInt8) : OscStatusScanner × List StatusCut :=
  if s.state = .ground ∧ memchr (· == 0x1b) chunk = none then (s, [])
  else s.scanFrom 0 chunk

end OscStatusScanner

/-- A string body as stored, without the control bytes that are dropped. -/
def storedBody (content : List UInt8) : List UInt8 :=
  content.filter fun b => !OscStatusScanner.ignored b

/-- Length on the wire of a string with its introducer and terminator. -/
def wireLength (content : List UInt8) (bel : Bool) : Nat :=
  2 + content.length + if bel then 1 else 2

/-- What is left of a body when its terminator comes. A string that passes the limit before
that keeps its first bytes only. -/
def retainedBody (content : List UInt8) : List UInt8 :=
  if 2 + content.length ≤ maxSequenceBytes then storedBody content
  else (storedBody content).take poisonedPrefix

/-- The action of a finished string. -/
def finished (content : List UInt8) (bel : Bool) : Option CutAction :=
  if wireLength content bel ≤ maxSequenceBytes then classify (storedBody content) bel
  else OscStatusScanner.boundaryOnly (retainedBody content) bel

/-- Outside strings, in an escape there, in a string, after an ESC there. -/
inductive OscState where
  | ground
  | escape
  | string (content : List UInt8)
  | stringEscape (content : List UInt8)
deriving Repr, DecidableEq

/-- The bytes that end a string, one way or the other. -/
def endsString (b : UInt8) : Bool := b == 0x07 || b == 0x1b || (b == 0x18 || b == 0x1a)

/-- A byte in an escape. -/
def OscState.escaped (b : UInt8) : OscState :=
  if b = 0x5d then .string [] else if staysInEscape b then .escape else .ground

/-- One byte of the stream. -/
def OscState.step : OscState → UInt8 → OscState × Option CutAction
  | .ground, b => (if b = 0x1b then .escape else .ground, none)
  | .escape, b => (escaped b, none)
  | .string content, b =>
    if b = 0x07 then (.ground, finished content true)
    else if b = 0x1b then (.stringEscape content, none)
    else if b = 0x18 ∨ b = 0x1a then (.ground, none)
    else (.string (content ++ [b]), none)
  | .stringEscape content, b =>
    if b = 0x5c then (.ground, finished content false) else (escaped b, none)

/-- OSC strings, byte by byte. -/
def oscAutomaton : Transducer OscState UInt8 CutAction := ⟨OscState.step⟩

/-- How the scanner holds a string, `extra` bytes of a terminator read. -/
def OscStatusScanner.holding (state : State) (content : List UInt8) (extra : Nat) :
    OscStatusScanner where
  state := state
  body := retainedBody content
  rawLen := min (2 + content.length + extra) usizeMax
  poisoned := decide (maxSequenceBytes < 2 + content.length)

/-- How the scanner holds a state of the automaton. -/
def OscState.held : OscState → OscStatusScanner
  | .ground => ⟨.ground, [], 0, false⟩
  | .escape => ⟨.esc, [], 0, false⟩
  | .string content => .holding .osc content 0
  | .stringEscape content => .holding .oscEsc content 1

namespace OscStatusScanner

theorem storedBody_append (xs ys : List UInt8) :
    storedBody (xs ++ ys) = storedBody xs ++ storedBody ys :=
  filter_append ..

theorem take_retainedBody (content : List UInt8) :
    (retainedBody content).take poisonedPrefix = (storedBody content).take poisonedPrefix := by
  unfold retainedBody
  split
  · rfl
  · rw [take_take, Nat.min_self]

/-- A prefix is filled up to its length whatever came first. -/
theorem retainedBody_append {content span : List UInt8}
    (hover : maxSequenceBytes < 2 + (content ++ span).length) :
    retainedBody (content ++ span) =
      (retainedBody content).take poisonedPrefix ++
        (storedBody span).take
          (poisonedPrefix - ((retainedBody content).take poisonedPrefix).length) := by
  rw [take_retainedBody, retainedBody, if_neg (Nat.not_le.mpr hover), storedBody_append,
    take_append, length_take]
  congr 2
  omega

/-- A span is held like its bytes one by one. -/
theorem takeBody_holding (state : State) (content span : List UInt8) :
    (holding state content 0).takeBody span = holding state (content ++ span) 0 := by
  have hmax : maxSequenceBytes < usizeMax := by decide
  have hraw : saturatingAdd (min (2 + content.length + 0) usizeMax) span.length =
      min (2 + (content ++ span).length + 0) usizeMax := by
    unfold saturatingAdd
    rw [length_append]
    omega
  have hlen : content.length ≤ (content ++ span).length := by
    rw [length_append]
    omega
  unfold takeBody holding
  dsimp only
  rw [hraw]
  by_cases hover : maxSequenceBytes < 2 + (content ++ span).length
  · have hwire : maxSequenceBytes < min (2 + (content ++ span).length + 0) usizeMax := by omega
    rw [if_pos (Bool.or_eq_true_iff.mpr (.inr (decide_eq_true hwire))),
      retainedBody_append hover, decide_eq_true hover]
    rfl
  · have hfits : ¬maxSequenceBytes < 2 + content.length := by omega
    have hwire : ¬maxSequenceBytes < min (2 + (content ++ span).length + 0) usizeMax := by omega
    rw [decide_eq_false hfits, decide_eq_false hwire, decide_eq_false hover]
    rw [if_neg (by decide), retainedBody, retainedBody, if_pos (Nat.not_lt.mp hfits),
      if_pos (Nat.not_lt.mp hover),
      storedBody_append]
    rfl

/-- One more byte on the wire, up to a whole terminator. -/
theorem rawLen_holding (state state' : State) (content : List UInt8) (extra : Nat) :
    { holding state content extra with
        state := state', rawLen := saturatingAdd (holding state content extra).rawLen 1 } =
      holding state' content (extra + 1) := by
  have hraw : saturatingAdd (min (2 + content.length + extra) usizeMax) 1 =
      min (2 + content.length + (extra + 1)) usizeMax := by
    unfold saturatingAdd
    omega
  unfold holding
  dsimp only
  rw [hraw]

/-- In a string the loop seeks the first byte that can end it. -/
theorem scanFrom_osc {s : OscStatusScanner} (hs : s.state = .osc) (i : Nat) (b : UInt8)
    (tail : List UInt8) :
    s.scanFrom i (b :: tail) =
      match (b :: tail).findIdx? endsString with
      | some off =>
        let s := s.takeBody ((b :: tail).take off)
        let c := (b :: tail).getD off 0
        let s := { s with rawLen := saturatingAdd s.rawLen 1 }
        if c == 0x07 then
          let done := s.finish (i + off + 1) true
          let later := scanFrom done.1 (i + off + 1) ((b :: tail).drop (off + 1))
          (later.1, done.2 ++ later.2)
        else if c == 0x1b then
          scanFrom { s with state := .oscEsc } (i + off + 1) ((b :: tail).drop (off + 1))
        else scanFrom (s.reset .ground) (i + off + 1) ((b :: tail).drop (off + 1))
      | none => (s.takeBody (b :: tail), []) := by
  have hstop : (memchr (fun c => c == 0x18 || c == 0x1a)
        ((b :: tail).take ((memchr (fun c => c == 0x07 || c == 0x1b) (b :: tail)).getD
          (b :: tail).length))).or (memchr (fun c => c == 0x07 || c == 0x1b) (b :: tail)) =
      (b :: tail).findIdx? endsString :=
    Transducer.findIdx?_window ..
  rw [scanFrom]
  split
  · next hstate => cases hs.symm.trans hstate
  · next hstate => cases hs.symm.trans hstate
  · dsimp only
    rw [hstop]
  · next hstate => cases hs.symm.trans hstate

/-- What is held of a string when it ends decides its action. -/
theorem finish_holding (state : State) (content : List UInt8) (stop : Nat) (bel : Bool) :
    (holding state content (if bel then 1 else 2)).finish stop bel =
      (OscState.ground.held, ((finished content bel).map (Cut.mk stop)).toList) := by
  have hmax : maxSequenceBytes < usizeMax := by decide
  unfold finish finished holding wireLength
  dsimp only
  generalize (if bel then 1 else 2) = extra
  by_cases hfits : 2 + content.length + extra ≤ maxSequenceBytes
  · have hstring : 2 + content.length ≤ maxSequenceBytes := by omega
    have hwire : ¬maxSequenceBytes < min (2 + content.length + extra) usizeMax := by omega
    rw [if_pos hfits, decide_eq_false (Nat.not_lt.mpr hstring), decide_eq_false hwire]
    rw [if_neg (by decide), retainedBody, if_pos hstring]
    rfl
  · have hwire : maxSequenceBytes < min (2 + content.length + extra) usizeMax := by omega
    rw [if_neg hfits, if_pos (Bool.or_eq_true_iff.mpr (.inr (decide_eq_true hwire)))]
    rfl

end OscStatusScanner

namespace OscState

open OscStatusScanner (holding)

variable (content : List UInt8)

/-- Text outside strings is skipped. -/
theorem run_text {bytes : List UInt8} (htext : ∀ b ∈ bytes, (b == 0x1b) = false) (base : Nat) :
    oscAutomaton.run ground base bytes = (ground, []) := by
  apply run_idle
  intro b hb
  show step ground b = (ground, none)
  rw [step, if_neg (by simpa using htext b hb)]

/-- A byte that does not end a string is part of it. -/
theorem step_content {b : UInt8} (hb : endsString b = false) :
    step (string content) b = (string (content ++ [b]), none) := by
  simp only [endsString, Bool.or_eq_false_iff, beq_eq_false_iff_ne] at hb
  rw [step, if_neg hb.1.1, if_neg hb.1.2, if_neg (not_or.mpr hb.2)]

/-- The content of a string is collected. -/
theorem run_content {span : List UInt8} (hspan : ∀ b ∈ span, endsString b = false)
    (content : List UInt8) (base : Nat) :
    oscAutomaton.run (string content) base span = (string (content ++ span), []) := by
  induction span generalizing content base with
  | nil => rw [append_nil]; rfl
  | cons b span ih =>
    have hstep : oscAutomaton.step (string content) b = (string (content ++ [b]), none) :=
      step_content content (hspan b (mem_cons_self ..))
    rw [run_cons, hstep]
    rw [ih (fun c hc => hspan c (mem_cons_of_mem _ hc)), append_assoc]
    rfl

/-- In an escape outside strings the loop takes one byte. -/
theorem scanFrom_escape (i : Nat) (b : UInt8) (tail : List UInt8) :
    escape.held.scanFrom i (b :: tail) = (escaped b).held.scanFrom (i + 1) tail := by
  rw [OscStatusScanner.scanFrom, escaped]
  show (if b == 0x5d then _ else if staysInEscape b then _ else _) = _
  by_cases hopen : b = 0x5d
  · rw [if_pos hopen, if_pos (by simpa using hopen)]
    rfl
  · rw [if_neg hopen, if_neg (by simpa using hopen)]
    cases staysInEscape b <;> rfl

/-- After an ESC in a string the loop ends it, or takes the byte as one in an escape. -/
theorem scanFrom_stringEscape (i : Nat) (b : UInt8) (tail : List UInt8) :
    (stringEscape content).held.scanFrom i (b :: tail) =
      ((((stringEscape content).step b).1.held.scanFrom (i + 1) tail).1,
        (((stringEscape content).step b).2.map (Cut.mk (i + 1))).toList ++
          (((stringEscape content).step b).1.held.scanFrom (i + 1) tail).2) := by
  rw [OscStatusScanner.scanFrom, step]
  show (if b == 0x5c then _ else _) = _
  by_cases hclose : b = 0x5c
  · have hdone : OscStatusScanner.finish { (stringEscape content).held with
          rawLen := saturatingAdd (stringEscape content).held.rawLen 1 } (i + 1) false =
        (ground.held, ((finished content false).map (Cut.mk (i + 1))).toList) :=
      (congrArg (fun s => OscStatusScanner.finish s (i + 1) false)
        (OscStatusScanner.rawLen_holding .oscEsc .oscEsc content 1)).trans
        (OscStatusScanner.finish_holding .oscEsc content (i + 1) false)
    rw [if_pos hclose, if_pos (by simpa using hclose)]
    dsimp only
    rw [hdone]
  · rw [if_neg hclose, if_neg (by simpa using hclose)]
    exact scanFrom_escape i b tail

/-- Outside strings the loop skips to the next escape, or to the end. -/
theorem scanFrom_ground (i : Nat) (b : UInt8) (tail : List UInt8) :
    ((∀ c ∈ b :: tail, (c == 0x1b) = false) ∧
        ground.held.scanFrom i (b :: tail) = (ground.held, [])) ∨
      ∃ before after, b :: tail = before ++ 0x1b :: after ∧ (∀ c ∈ before, (c == 0x1b) = false) ∧
        ground.held.scanFrom i (b :: tail) =
          escape.held.scanFrom (i + before.length + 1) after := by
  rw [OscStatusScanner.scanFrom]
  cases hfind : memchr (· == 0x1b) (b :: tail) with
  | none => exact .inl ⟨findIdx?_eq_none_iff.mp hfind, rfl⟩
  | some off =>
    obtain ⟨before, c, after, hsplit, rfl, hc, hbefore⟩ := split_of_findIdx? hfind
    obtain rfl : c = 0x1b := by simpa using hc
    refine .inr ⟨before, after, hsplit, hbefore, ?_⟩
    show escape.held.scanFrom (i + before.length + 1) ((b :: tail).drop (before.length + 1)) = _
    rw [hsplit, drop_length_add_append]
    rfl

/-- In a string the loop skips to the next byte that can end it, or to the end. -/
theorem scanFrom_string (i : Nat) (b : UInt8) (tail : List UInt8) :
    ((∀ c ∈ b :: tail, endsString c = false) ∧
        (string content).held.scanFrom i (b :: tail) =
          ((string (content ++ b :: tail)).held, [])) ∨
      ∃ before c after, b :: tail = before ++ c :: after ∧ endsString c = true ∧
        (∀ c ∈ before, endsString c = false) ∧
        (string content).held.scanFrom i (b :: tail) =
          ((((string (content ++ before)).step c).1.held.scanFrom (i + before.length + 1) after).1,
            (((string (content ++ before)).step c).2.map
                (Cut.mk (i + before.length + 1))).toList ++
              (((string (content ++ before)).step c).1.held.scanFrom
                (i + before.length + 1) after).2) := by
  cases hfind : (b :: tail).findIdx? endsString with
  | none =>
    refine .inl ⟨findIdx?_eq_none_iff.mp hfind, ?_⟩
    rw [OscStatusScanner.scanFrom_osc rfl, hfind]
    show ((holding .osc content 0).takeBody (b :: tail), []) = _
    rw [OscStatusScanner.takeBody_holding]
    rfl
  | some off =>
    obtain ⟨before, c, after, hsplit, rfl, hc, hbefore⟩ := split_of_findIdx? hfind
    refine .inr ⟨before, c, after, hsplit, hc, hbefore, ?_⟩
    have hread : (b :: tail).getD before.length 0 = c := by
      rw [hsplit, getD_eq_getElem?_getD, getElem?_append_right (le_refl _), Nat.sub_self]
      rfl
    have hheld : (string content).held.takeBody before = holding .osc (content ++ before) 0 :=
      OscStatusScanner.takeBody_holding ..
    have hraw : { holding .osc (content ++ before) 0 with
          rawLen := saturatingAdd (holding .osc (content ++ before) 0).rawLen 1 } =
        holding .osc (content ++ before) 1 :=
      OscStatusScanner.rawLen_holding .osc .osc (content ++ before) 0
    rw [OscStatusScanner.scanFrom_osc rfl, hfind]
    dsimp only
    rw [hread, hsplit, drop_length_add_append, take_left, drop_one, tail_cons, hheld, hraw, step]
    by_cases hbel : c = 0x07
    · rw [if_pos hbel, if_pos (by simpa using hbel)]
      rw [show (holding .osc (content ++ before) 1).finish (i + before.length + 1) true = _ from
        OscStatusScanner.finish_holding .osc (content ++ before) (i + before.length + 1) true]
    · rw [if_neg hbel, if_neg (by simpa using hbel)]
      by_cases hesc : c = 0x1b
      · rw [if_pos hesc, if_pos (by simpa using hesc)]
        exact congrArg (fun s => OscStatusScanner.scanFrom s (i + before.length + 1) after)
          (OscStatusScanner.rawLen_holding .osc .oscEsc (content ++ before) 0)
      · have habort : c = 0x18 ∨ c = 0x1a := by
          simpa [endsString, hbel, hesc] using hc
        rw [if_neg hesc, if_neg (by simpa using hesc), if_pos habort]
        rfl

theorem skips (s : OscState) (i : Nat) (rest : List UInt8) :
    oscAutomaton.Skips held OscStatusScanner.scanFrom s i rest := by
  cases rest with
  | nil => exact .inl ⟨s, rfl, by rw [OscStatusScanner.scanFrom]⟩
  | cons b tail =>
    cases s with
    | ground =>
      rcases scanFrom_ground i b tail with ⟨htext, hscan⟩ | ⟨before, after, hsplit, htext, hscan⟩
      · exact .inl ⟨ground, run_text htext i, hscan⟩
      · exact .inr ⟨before, 0x1b, after, ground, hsplit, run_text htext i, hscan⟩
    | escape =>
      apply skips_one
      exact scanFrom_escape i b tail
    | string content =>
      rcases scanFrom_string content i b tail with
        ⟨hspan, hscan⟩ | ⟨before, c, after, hsplit, -, hspan, hscan⟩
      · exact .inl ⟨_, run_content hspan content i, hscan⟩
      · exact .inr ⟨before, c, after, _, hsplit, run_content hspan content i, hscan⟩
    | stringEscape content =>
      apply skips_one
      exact scanFrom_stringEscape content i b tail

/-- The scanner realises the automaton, fast path included. -/
theorem realises : oscAutomaton.Realises held OscStatusScanner.scan := by
  intro s read
  unfold OscStatusScanner.scan
  split
  · next hfast =>
    have htext := findIdx?_eq_none_iff.mp hfast.2
    cases s with
    | ground => rw [run_text htext]
    | escape | string content | stringEscape content => cases hfast.1
  · exact loop_of_skips _ held OscStatusScanner.scanFrom skips s 0 read

end OscState

end Shux.Vt
