/-
# Finding application strings

Graphics commands travel in APC strings, `ESC _ body ESC \`, which the parser underneath
does not report. A scanner finds where each one ends, so that the parser can be fed up to
that point first. It sees the stream in reads of any length, skips from one interesting
byte to the next and drops a body past 64 KiB.

What it should report is an automaton that takes the bytes one at a time and keeps every
body whole. The scanner realises it.
-/

import Shux.Lib.Transducer

namespace Shux.Vt

open Transducer List

/-- Cap on a single APC body held in flight. -/
def maxApcBodyBytes : Nat := 64 * 1024

/-- Bytes after which the parser underneath is still in its escape state. -/
def staysInEscape (b : UInt8) : Bool := b ≤ 0x17 || b == 0x19 || (0x1b ≤ b && b ≤ 0x1f) || 0x7f ≤ b

/-- The offset of the first byte that satisfies `p`. -/
def memchr (p : UInt8 → Bool) (bytes : List UInt8) : Option Nat := bytes.findIdx? p

/-- A completed APC: one past its terminator, and the body. -/
abbrev ApcCut := Cut (List UInt8)

/-- Where the scanner is: outside any APC, after an ESC there, in a body, after an ESC there. -/
inductive ApcScanner.State where
  | ground
  | groundEsc
  | apc
  | apcEsc
deriving Repr, DecidableEq

structure ApcScanner where
  state : ApcScanner.State
  body : List UInt8
  overflowed : Bool
deriving Repr, DecidableEq

namespace ApcScanner

def default : ApcScanner := ⟨.ground, [], false⟩

def begin (_ : ApcScanner) : ApcScanner := ⟨.apc, [], false⟩

def abort (_ : ApcScanner) : ApcScanner := ⟨.ground, [], false⟩

/-- Append payload; past the cap the whole body is dropped. -/
def pushSpan (s : ApcScanner) (span : List UInt8) : ApcScanner :=
  if s.overflowed then s
  else if maxApcBodyBytes < s.body.length + span.length then
    { s with overflowed := true, body := [] }
  else { s with body := s.body ++ span }

/-- The only bytes that can leave a body: ESC, CAN and SUB. -/
def endsPayload (b : UInt8) : Bool := b == 0x1b || b == 0x18 || b == 0x1a

/-- The scanning loop: `i` bytes of the read are behind, `rest` is ahead. -/
def scanSlow (s : ApcScanner) (i : Nat) (rest : List UInt8) : ApcScanner × List ApcCut :=
  match rest with
  | [] => (s, [])
  | b :: tail =>
    match s.state with
    | .ground =>
      match memchr (· == 0x1b) (b :: tail) with
      | some off =>
        scanSlow { s with state := .groundEsc } (i + off + 1) ((b :: tail).drop (off + 1))
      | none => (s, [])
    | .apc =>
      match memchr endsPayload (b :: tail) with
      | some off =>
        let s := s.pushSpan ((b :: tail).take off)
        let s := if (b :: tail).getD off 0 == 0x1b then { s with state := .apcEsc } else s.abort
        scanSlow s (i + off + 1) ((b :: tail).drop (off + 1))
      | none => (s.pushSpan (b :: tail), [])
    | .groundEsc =>
      if b == 0x5f then scanSlow s.begin (i + 1) tail
      else if staysInEscape b then scanSlow s (i + 1) tail
      else scanSlow { s with state := .ground } (i + 1) tail
    | .apcEsc =>
      if b == 0x5c then
        let later := scanSlow s.abort (i + 1) tail
        (later.1, (if s.overflowed then [] else [⟨i + 1, s.body⟩]) ++ later.2)
      else if b == 0x5f then scanSlow s.begin (i + 1) tail
      else if staysInEscape b then scanSlow s (i + 1) tail
      else scanSlow s.abort (i + 1) tail
termination_by rest.length
decreasing_by all_goals simp only [length_cons, length_drop]; omega

/-- Every APC that completes within the read, in stream order. -/
def scan (s : ApcScanner) (chunk : List UInt8) : ApcScanner × List ApcCut :=
  if s.state = .ground ∧ memchr (· == 0x1b) chunk = none then (s, [])
  else s.scanSlow 0 chunk

end ApcScanner

/-- Outside any string, in an escape there, in a body, in an escape there. -/
inductive ApcState where
  | ground
  | escape
  | body (bytes : List UInt8)
  | bodyEscape (bytes : List UInt8)
deriving Repr, DecidableEq

/-- One byte of the stream. -/
def ApcState.step : ApcState → UInt8 → ApcState × Option (List UInt8)
  | .ground, b => (if b = 0x1b then .escape else .ground, none)
  | .escape, b =>
    if b = 0x5f then (.body [], none)
    else if staysInEscape b then (.escape, none)
    else (.ground, none)
  | .body bytes, b =>
    if b = 0x1b then (.bodyEscape bytes, none)
    else if b = 0x18 ∨ b = 0x1a then (.ground, none)
    else (.body (bytes ++ [b]), none)
  | .bodyEscape bytes, b =>
    if b = 0x5c then (.ground, if bytes.length ≤ maxApcBodyBytes then some bytes else none)
    else if b = 0x5f then (.body [], none)
    else if staysInEscape b then (.bodyEscape bytes, none)
    else (.ground, none)

/-- APC strings, byte by byte. -/
def apcAutomaton : Transducer ApcState UInt8 (List UInt8) := ⟨ApcState.step⟩

/-- How the scanner holds a body: past the cap it is forgotten. -/
def ApcScanner.holding (state : ApcScanner.State) (bytes : List UInt8) : ApcScanner where
  state := state
  body := if bytes.length ≤ maxApcBodyBytes then bytes else []
  overflowed := decide (maxApcBodyBytes < bytes.length)

/-- How the scanner holds a state of the automaton. -/
def ApcState.held : ApcState → ApcScanner
  | .ground => .holding .ground []
  | .escape => .holding .groundEsc []
  | .body bytes => .holding .apc bytes
  | .bodyEscape bytes => .holding .apcEsc bytes

/-- A span is held like its bytes one by one. -/
theorem ApcScanner.pushSpan_holding (state : ApcScanner.State) (bytes span : List UInt8) :
    (holding state bytes).pushSpan span = holding state (bytes ++ span) := by
  unfold pushSpan holding
  dsimp only
  rw [length_append]
  by_cases hover : maxApcBodyBytes < bytes.length
  · rw [if_pos (by simpa using hover), if_neg (by omega), if_neg (by omega)]
    rw [decide_eq_true hover, decide_eq_true (by omega)]
  · have hfits : bytes.length ≤ maxApcBodyBytes := by omega
    rw [if_neg (by simpa using hover), if_pos hfits]
    by_cases hover' : maxApcBodyBytes < bytes.length + span.length
    · rw [if_pos hover', if_neg (by omega), decide_eq_true hover']
    · rw [if_neg hover', if_pos (by omega), decide_eq_false hover, decide_eq_false hover']

open ApcScanner (endsPayload)

namespace ApcState

variable (bytes : List UInt8)

/-- Text outside strings is skipped. -/
theorem run_text {bytes : List UInt8} (htext : ∀ b ∈ bytes, (b == 0x1b) = false) (base : Nat) :
    apcAutomaton.run ground base bytes = (ground, []) := by
  apply run_idle
  intro b hb
  show step ground b = (ground, none)
  rw [step, if_neg (by simpa using htext b hb)]

/-- Payload is collected. -/
theorem run_payload {span : List UInt8} (hpayload : ∀ b ∈ span, endsPayload b = false)
    (bytes : List UInt8) (base : Nat) :
    apcAutomaton.run (body bytes) base span = (body (bytes ++ span), []) := by
  induction span generalizing bytes base with
  | nil => rw [append_nil]; rfl
  | cons b span ih =>
    have hb := hpayload b (mem_cons_self ..)
    have hstep : apcAutomaton.step (body bytes) b = (body (bytes ++ [b]), none) := by
      simp only [ApcScanner.endsPayload, Bool.or_eq_false_iff, beq_eq_false_iff_ne] at hb
      show step (body bytes) b = _
      rw [step, if_neg hb.1.1, if_neg (not_or.mpr ⟨hb.1.2, hb.2⟩)]
    rw [run_cons, hstep]
    rw [ih (fun c hc => hpayload c (mem_cons_of_mem _ hc)), append_assoc]
    rfl

theorem report_escape (b : UInt8) : (escape.step b).2 = none := by
  rw [step]
  split
  · rfl
  · split <;> rfl

theorem report_body (b : UInt8) : ((body bytes).step b).2 = none := by
  rw [step]
  split
  · rfl
  · split <;> rfl

/-- In an escape outside strings the loop takes one byte. -/
theorem scanSlow_escape (i : Nat) (b : UInt8) (tail : List UInt8) :
    escape.held.scanSlow i (b :: tail) = (escape.step b).1.held.scanSlow (i + 1) tail := by
  rw [ApcScanner.scanSlow, step]
  show (if b == 0x5f then _ else if staysInEscape b then _ else _) = _
  by_cases hopen : b = 0x5f
  · rw [if_pos hopen, if_pos (by simpa using hopen)]
    rfl
  · rw [if_neg hopen, if_neg (by simpa using hopen)]
    cases staysInEscape b <;> rfl

/-- In an escape inside a body the loop takes one byte, and may report. -/
theorem scanSlow_bodyEscape (i : Nat) (b : UInt8) (tail : List UInt8) :
    (bodyEscape bytes).held.scanSlow i (b :: tail) =
      ((((bodyEscape bytes).step b).1.held.scanSlow (i + 1) tail).1,
        (((bodyEscape bytes).step b).2.map (Cut.mk (i + 1))).toList ++
          (((bodyEscape bytes).step b).1.held.scanSlow (i + 1) tail).2) := by
  rw [ApcScanner.scanSlow, step]
  show (if b == 0x5c then _ else if b == 0x5f then _ else if staysInEscape b then _ else _) = _
  by_cases hclose : b = 0x5c
  · rw [if_pos hclose, if_pos (by simpa using hclose)]
    by_cases hfits : bytes.length ≤ maxApcBodyBytes
    · rw [if_pos hfits]
      simp only [held, ApcScanner.holding, if_pos hfits, decide_eq_false (Nat.not_lt.mpr hfits)]
      rfl
    · rw [if_neg hfits]
      simp only [held, ApcScanner.holding, decide_eq_true (Nat.not_le.mp hfits)]
      rfl
  · rw [if_neg hclose, if_neg (by simpa using hclose)]
    by_cases hopen : b = 0x5f
    · rw [if_pos hopen, if_pos (by simpa using hopen)]
      rfl
    · rw [if_neg hopen, if_neg (by simpa using hopen)]
      cases staysInEscape b <;> rfl

/-- Outside strings the loop skips to the next escape, or to the end. -/
theorem scanSlow_ground (i : Nat) (b : UInt8) (tail : List UInt8) :
    ((∀ c ∈ b :: tail, (c == 0x1b) = false) ∧
        ground.held.scanSlow i (b :: tail) = (ground.held, [])) ∨
      ∃ before after, b :: tail = before ++ 0x1b :: after ∧ (∀ c ∈ before, (c == 0x1b) = false) ∧
        ground.held.scanSlow i (b :: tail) =
          escape.held.scanSlow (i + before.length + 1) after := by
  rw [ApcScanner.scanSlow]
  cases hfind : memchr (· == 0x1b) (b :: tail) with
  | none => exact .inl ⟨findIdx?_eq_none_iff.mp hfind, rfl⟩
  | some off =>
    obtain ⟨before, c, after, hsplit, rfl, hc, hbefore⟩ := split_of_findIdx? hfind
    obtain rfl : c = 0x1b := by simpa using hc
    refine .inr ⟨before, after, hsplit, hbefore, ?_⟩
    show escape.held.scanSlow (i + before.length + 1) ((b :: tail).drop (before.length + 1)) = _
    rw [hsplit, drop_length_add_append]
    rfl

/-- In a body the loop skips to the next byte that can end it, or to the end. -/
theorem scanSlow_body (i : Nat) (b : UInt8) (tail : List UInt8) :
    ((∀ c ∈ b :: tail, endsPayload c = false) ∧
        (body bytes).held.scanSlow i (b :: tail) = ((body (bytes ++ b :: tail)).held, [])) ∨
      ∃ before c after, b :: tail = before ++ c :: after ∧ endsPayload c = true ∧
        (∀ c ∈ before, endsPayload c = false) ∧
        (body bytes).held.scanSlow i (b :: tail) =
          ((body (bytes ++ before)).step c).1.held.scanSlow (i + before.length + 1) after := by
  rw [ApcScanner.scanSlow]
  cases hfind : memchr endsPayload (b :: tail) with
  | none =>
    refine .inl ⟨findIdx?_eq_none_iff.mp hfind, ?_⟩
    show ((ApcScanner.holding .apc bytes).pushSpan (b :: tail), []) = _
    rw [ApcScanner.pushSpan_holding]
    rfl
  | some off =>
    obtain ⟨before, c, after, hsplit, rfl, hc, hbefore⟩ := split_of_findIdx? hfind
    refine .inr ⟨before, c, after, hsplit, hc, hbefore, ?_⟩
    have hread : (b :: tail).getD before.length 0 = c := by
      rw [hsplit, getD_eq_getElem?_getD, getElem?_append_right (le_refl _), Nat.sub_self]
      rfl
    have hnext : (if c == 0x1b
          then { (ApcScanner.holding .apc bytes).pushSpan before with state := .apcEsc }
          else ((ApcScanner.holding .apc bytes).pushSpan before).abort) =
        ((body (bytes ++ before)).step c).1.held := by
      rw [ApcScanner.pushSpan_holding, step]
      by_cases hesc : c = 0x1b
      · rw [if_pos hesc, if_pos (by simpa using hesc)]
        rfl
      · have habort : c = 0x18 ∨ c = 0x1a := by
          simpa [endsPayload, hesc] using hc
        rw [if_neg hesc, if_pos habort, if_neg (by simpa using hesc)]
        rfl
    rw [← hnext]
    show ApcScanner.scanSlow (if (b :: tail).getD before.length 0 == 0x1b
        then { (ApcScanner.holding .apc bytes).pushSpan ((b :: tail).take before.length) with
          state := .apcEsc }
        else ((ApcScanner.holding .apc bytes).pushSpan ((b :: tail).take before.length)).abort)
      (i + before.length + 1) ((b :: tail).drop (before.length + 1)) = _
    rw [hread, hsplit, drop_length_add_append, take_left]
    rfl

theorem skips (s : ApcState) (i : Nat) (rest : List UInt8) :
    apcAutomaton.Skips held ApcScanner.scanSlow s i rest := by
  cases rest with
  | nil => exact .inl ⟨s, rfl, by rw [ApcScanner.scanSlow]⟩
  | cons b tail =>
    cases s with
    | ground =>
      rcases scanSlow_ground i b tail with ⟨htext, hscan⟩ | ⟨before, after, hsplit, htext, hscan⟩
      · exact .inl ⟨ground, run_text htext i, hscan⟩
      · exact .inr ⟨before, 0x1b, after, ground, hsplit, run_text htext i, hscan⟩
    | escape =>
      apply skips_one
      rw [scanSlow_escape, show (apcAutomaton.step escape b).2 = none from report_escape b]
      rfl
    | body bytes =>
      rcases scanSlow_body bytes i b tail with
        ⟨hpayload, hscan⟩ | ⟨before, c, after, hsplit, -, hpayload, hscan⟩
      · exact .inl ⟨_, run_payload hpayload bytes i, hscan⟩
      · refine .inr ⟨before, c, after, _, hsplit, run_payload hpayload bytes i, ?_⟩
        rw [hscan, show (apcAutomaton.step (body (bytes ++ before)) c).2 = none from
          report_body _ c]
        rfl
    | bodyEscape bytes =>
      apply skips_one
      exact scanSlow_bodyEscape bytes i b tail

/-- The scanner realises the automaton, fast path included. -/
theorem realises : apcAutomaton.Realises held ApcScanner.scan := by
  intro s read
  unfold ApcScanner.scan
  split
  · next hfast =>
    have htext := findIdx?_eq_none_iff.mp hfast.2
    cases s with
    | ground => rw [run_text htext]
    | escape | body bytes | bodyEscape bytes => cases hfast.1
  · exact loop_of_skips _ held ApcScanner.scanSlow skips s 0 read

/-- A report is made on a backslash only. -/
theorem backslash_of_report {s : ApcState} {b : UInt8} {bytes : List UInt8}
    (hreport : (s.step b).2 = some bytes) : b = 0x5c := by
  cases s with
  | ground => cases hreport
  | escape =>
    rw [report_escape] at hreport
    cases hreport
  | body bytes =>
    rw [report_body] at hreport
    cases hreport
  | bodyEscape bytes =>
    by_contra hne
    rw [step, if_neg hne] at hreport
    split at hreport
    · cases hreport
    · split at hreport <;> cases hreport

end ApcState

/-- However a stream is cut into reads, the scanner reports what the automaton reports on the
whole of it, stamped alike, ends holding the automaton's state, and stamps each report one
past a backslash. -/
theorem ApcScanner.reads_exact (stream : List (List UInt8)) :
    reads ApcScanner.scan .default 0 stream =
        ((apcAutomaton.run .ground 0 stream.flatten).1.held,
          (apcAutomaton.run .ground 0 stream.flatten).2) ∧
      ∀ cut ∈ (reads ApcScanner.scan .default 0 stream).2,
        0 < cut.stop ∧ stream.flatten[cut.stop - 1]? = some 0x5c := by
  have hreads := ApcState.realises.reads .ground 0 stream
  refine ⟨hreads, fun cut hcut => ?_⟩
  rw [show ApcScanner.default = ApcState.ground.held from rfl, hreads] at hcut
  obtain ⟨before, b, after, hstream, hstop, hreport⟩ := mem_run _ |>.mp hcut
  rw [ApcState.backslash_of_report hreport] at hstream
  have hlen : cut.stop - 1 = before.length := by omega
  refine ⟨by omega, ?_⟩
  rw [hstream, hlen, getElem?_append_right (le_refl _), Nat.sub_self]
  rfl

end Shux.Vt
