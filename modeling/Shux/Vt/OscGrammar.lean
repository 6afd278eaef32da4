/-
# What a status string is

The grammar of the stream speaks of bytes and not of states. A string opens at a `]` in an
escape, which is an ESC and any bytes the parser underneath lets pass in its escape state.
It runs to the first byte that ends a string and counts if that is BEL, or an ESC with a
backslash at once after it. Nothing is said about what comes before the escape: whatever the
stream was in the middle of, an ESC interrupts it.

What a string says is read off its bytes. Past the limit, only what is retained of it counts,
and only as the start or the end of a command.
-/

import Shux.Vt.OscScanner

namespace Shux.Vt

open Transducer List

variable {body : List UInt8}
variable {bel : Bool} {action : CutAction}

/-- The stream so far ends in an escape. -/
def Escaped (bytes : List UInt8) : Prop :=
  ∃ before middle, bytes = before ++ 0x1b :: middle ∧ ∀ b ∈ middle, staysInEscape b = true

/-- The stream so far ends in an open string with this content. -/
def InString (bytes content : List UInt8) : Prop :=
  ∃ before, bytes = before ++ 0x5d :: content ∧ Escaped before ∧ ∀ b ∈ content, endsString b = false

/-- BEL, or ESC and a backslash. -/
def terminator (bel : Bool) : List UInt8 := if bel then [0x07] else [0x1b, 0x5c]

/-- A string with this content and terminator ends `stop` bytes into the stream. -/
def Framed (stream : List UInt8) (stop : Nat) (content : List UInt8) (bel : Bool) : Prop :=
  ∃ opened after, stream = opened ++ terminator bel ++ after ∧
    stop = (opened ++ terminator bel).length ∧ InString opened content

/-- Further parameters of a mark. -/
def MarkParams (params : List UInt8) : Prop := params = [] ∨ ∃ rest, params = 0x3b :: rest

/-- What a string says: `7501;payload`, and `133;` with `A`, `C` or `D` and parameters. -/
inductive Says (content : List UInt8) (bel : Bool) : CutAction → Prop where
  | report (payload : List UInt8) (hfits : wireLength content bel ≤ maxSequenceBytes)
      (hbody : storedBody content = oscNumber ++ 0x3b :: payload) :
      Says content bel (.report payload bel)
  | promptStart (params : List UInt8) (hfits : wireLength content bel ≤ maxSequenceBytes)
      (hbody : storedBody content = [0x31, 0x33, 0x33, 0x3b, 0x41] ++ params)
      (hparams : MarkParams params) : Says content bel .promptStart
  | commandStart (params : List UInt8)
      (hbody : retainedBody content = [0x31, 0x33, 0x33, 0x3b, 0x43] ++ params)
      (hparams : MarkParams params) : Says content bel .commandStart
  | commandEnd (params : List UInt8)
      (hbody : retainedBody content = [0x31, 0x33, 0x33, 0x3b, 0x44] ++ params)
      (hparams : MarkParams params) :
      Says content bel (.commandEnd (exitField (retainedBody content)
        (decide (maxSequenceBytes < wireLength content bel) &&
          decide (poisonedPrefix ≤ (retainedBody content).length))))

theorem dropPrefix?_iff {bytes first rest : List UInt8} :
    bytes.dropPrefix? first = some rest ↔ bytes = first ++ rest := by
  rw [List.dropPrefix?_eq_some_iff]
  constructor
  · rintro ⟨first', rfl, heq⟩
    rw [eq_of_beq heq]
  · rintro rfl
    exact ⟨first, rfl, beq_self_eq_true first⟩

theorem markParams_iff {params : List UInt8} :
    (params.isEmpty || [0x3b].isPrefixOf params) = true ↔ MarkParams params := by
  cases params with
  | nil => exact ⟨fun _ => .inl rfl, fun _ => rfl⟩
  | cons b params =>
    constructor
    · intro hsep
      obtain rfl : 0x3b = b := by simpa [isPrefixOf] using hsep
      exact .inr ⟨params, rfl⟩
    · rintro (hnil | ⟨rest, hcons⟩)
      · cases hnil
      · cases hcons
        rfl

/-- The body is a mark of OSC 133 with parameters. -/
def Marks (body : List UInt8) (mark : UInt8) : Prop :=
  ∃ params, body = [0x31, 0x33, 0x33, 0x3b, mark] ++ params ∧ MarkParams params

theorem report_iff {payload : List UInt8} :
    (body.dropPrefix? oscNumber).bind (·.dropPrefix? [0x3b]) = some payload ↔
      body = oscNumber ++ 0x3b :: payload := by
  rw [Option.bind_eq_some_iff]
  constructor
  · rintro ⟨rest, hnumber, hsep⟩
    rw [dropPrefix?_iff.mp hnumber, dropPrefix?_iff.mp hsep]
    rfl
  · intro hbody
    exact ⟨0x3b :: payload, dropPrefix?_iff.mpr hbody, dropPrefix?_iff.mpr rfl⟩

theorem Marks.not_report {payload : List UInt8} {mark : UInt8} (h : Marks body mark) :
    body ≠ oscNumber ++ 0x3b :: payload := by
  obtain ⟨params, rfl, -⟩ := h
  intro heq
  cases heq

/-- The mark of a body that is not a status report. -/
theorem classify_of_marks {mark : UInt8} (h : Marks body mark) (bel : Bool) :
    classify body bel =
      if mark = 0x41 then some .promptStart
      else if mark = 0x43 then some .commandStart
      else if mark = 0x44 then some (.commandEnd (exitField body false))
      else none := by
  have hnone : (body.dropPrefix? oscNumber).bind (·.dropPrefix? [0x3b]) = none := by
    apply Option.eq_none_iff_forall_not_mem.mpr
    intro payload hpayload
    exact h.not_report (report_iff.mp hpayload)
  obtain ⟨params, hbody, hparams⟩ := h
  have hrest : body.dropPrefix? [0x31, 0x33, 0x33, 0x3b] = some (mark :: params) :=
    dropPrefix?_iff.mpr hbody
  unfold classify
  rw [hnone]
  dsimp only
  rw [hrest]
  dsimp only [Option.bind_eq_bind, Option.bind_some]
  rw [markParams_iff.mpr hparams]
  simp only [Bool.not_true, Bool.false_eq_true, if_false, beq_iff_eq]

theorem classify_of_report (payload : List UInt8) (bel : Bool) :
    classify (oscNumber ++ 0x3b :: payload) bel = some (.report payload bel) := by
  unfold classify
  rw [report_iff.mpr rfl]

/-- A body that says something is a status report or a mark. -/
theorem report_or_marks (hclassify : classify body bel = some action) :
    (∃ payload, body = oscNumber ++ 0x3b :: payload) ∨ ∃ mark, Marks body mark := by
  unfold classify at hclassify
  split at hclassify
  · next payload hpayload => exact .inl ⟨payload, report_iff.mp hpayload⟩
  · obtain ⟨rest, hrest, haction⟩ := Option.bind_eq_some_iff.mp hclassify
    cases rest with
    | nil => cases haction
    | cons mark params =>
      dsimp only at haction
      split at haction
      · cases haction
      · next hparams =>
        have hbody := dropPrefix?_iff.mp hrest
        refine .inr ⟨mark, params, hbody, markParams_iff.mp ?_⟩
        revert hparams
        cases (params.isEmpty || [0x3b].isPrefixOf params) <;> decide

theorem classify_iff :
    classify body bel = some action ↔
      (∃ payload, body = oscNumber ++ 0x3b :: payload ∧ action = .report payload bel) ∨
      (Marks body 0x41 ∧ action = .promptStart) ∨
      (Marks body 0x43 ∧ action = .commandStart) ∨
      (Marks body 0x44 ∧ action = .commandEnd (exitField body false)) := by
  constructor
  · intro hclassify
    rcases report_or_marks hclassify with ⟨payload, rfl⟩ | ⟨mark, hmarks⟩
    · rw [classify_of_report] at hclassify
      cases hclassify
      exact .inl ⟨payload, rfl, rfl⟩
    · rw [classify_of_marks hmarks] at hclassify
      split at hclassify
      · next hmark =>
        cases hclassify
        exact .inr (.inl ⟨hmark ▸ hmarks, rfl⟩)
      · split at hclassify
        · next hmark =>
          cases hclassify
          exact .inr (.inr (.inl ⟨hmark ▸ hmarks, rfl⟩))
        · split at hclassify
          · next hmark =>
            cases hclassify
            exact .inr (.inr (.inr ⟨hmark ▸ hmarks, rfl⟩))
          · cases hclassify
  · rintro (⟨payload, rfl, rfl⟩ | ⟨hmarks, rfl⟩ | ⟨hmarks, rfl⟩ | ⟨hmarks, rfl⟩)
    · exact classify_of_report payload bel
    · exact classify_of_marks hmarks bel
    · exact classify_of_marks hmarks bel
    · exact classify_of_marks hmarks bel

/-- Past the limit only the start and the end of a command are left. -/
theorem boundaryOnly_iff :
    OscStatusScanner.boundaryOnly body bel = some action ↔
      (Marks body 0x43 ∧ action = .commandStart) ∨
      (Marks body 0x44 ∧
        action = .commandEnd (exitField body (decide (poisonedPrefix ≤ body.length)))) := by
  unfold OscStatusScanner.boundaryOnly
  constructor
  · intro hboundary
    split at hboundary
    · next hclassify =>
      cases hboundary
      obtain ⟨payload, -, heq⟩ | ⟨-, heq⟩ | ⟨hmarks, -⟩ | ⟨-, heq⟩ := classify_iff.mp hclassify
      · cases heq
      · cases heq
      · exact .inl ⟨hmarks, rfl⟩
      · cases heq
    · next hclassify =>
      cases hboundary
      obtain ⟨payload, -, heq⟩ | ⟨-, heq⟩ | ⟨-, heq⟩ | ⟨hmarks, -⟩ := classify_iff.mp hclassify
      · cases heq
      · cases heq
      · cases heq
      · exact .inr ⟨hmarks, rfl⟩
    · cases hboundary
  · rintro (⟨hmarks, rfl⟩ | ⟨hmarks, rfl⟩)
    · rw [classify_of_marks hmarks]
      rfl
    · rw [classify_of_marks hmarks]
      rfl

/-- The action of a finished string is what the string says. -/
theorem finished_iff {content : List UInt8} :
    finished content bel = some action ↔ Says content bel action := by
  unfold finished
  by_cases hfits : wireLength content bel ≤ maxSequenceBytes
  · have hretained : retainedBody content = storedBody content := by
      rw [retainedBody, if_pos]
      unfold wireLength at hfits
      omega
    have htruncated : (decide (maxSequenceBytes < wireLength content bel) &&
        decide (poisonedPrefix ≤ (retainedBody content).length)) = false := by
      rw [decide_eq_false (Nat.not_lt.mpr hfits), Bool.false_and]
    rw [if_pos hfits, classify_iff]
    constructor
    · rintro (⟨payload, hbody, rfl⟩ | ⟨⟨params, hbody, hparams⟩, rfl⟩ |
        ⟨⟨params, hbody, hparams⟩, rfl⟩ | ⟨⟨params, hbody, hparams⟩, rfl⟩)
      · exact .report payload hfits hbody
      · exact .promptStart params hfits hbody hparams
      · exact .commandStart params (hretained.trans hbody) hparams
      · have hsays : Says content bel _ := .commandEnd params (hretained.trans hbody) hparams
        rwa [htruncated, hretained] at hsays
    · rintro (⟨payload, -, hbody⟩ | ⟨params, -, hbody, hparams⟩ | ⟨params, hbody, hparams⟩ |
        ⟨params, hbody, hparams⟩)
      · exact .inl ⟨payload, hbody, rfl⟩
      · exact .inr (.inl ⟨⟨params, hbody, hparams⟩, rfl⟩)
      · exact .inr (.inr (.inl ⟨⟨params, hretained.symm.trans hbody, hparams⟩, rfl⟩))
      · rw [htruncated, hretained]
        exact .inr (.inr (.inr ⟨⟨params, hretained.symm.trans hbody, hparams⟩, rfl⟩))
  · have htruncated : (decide (maxSequenceBytes < wireLength content bel) &&
        decide (poisonedPrefix ≤ (retainedBody content).length)) =
          decide (poisonedPrefix ≤ (retainedBody content).length) := by
      rw [decide_eq_true (Nat.not_le.mp hfits), Bool.true_and]
    rw [if_neg hfits, boundaryOnly_iff]
    constructor
    · rintro (⟨⟨params, hbody, hparams⟩, rfl⟩ | ⟨⟨params, hbody, hparams⟩, rfl⟩)
      · exact .commandStart params hbody hparams
      · rw [← htruncated]
        exact .commandEnd params hbody hparams
    · rintro (⟨payload, hfits', -⟩ | ⟨params, hfits', -, -⟩ | ⟨params, hbody, hparams⟩ |
        ⟨params, hbody, hparams⟩)
      · exact absurd hfits' hfits
      · exact absurd hfits' hfits
      · exact .inl ⟨⟨params, hbody, hparams⟩, rfl⟩
      · rw [htruncated]
        exact .inr ⟨⟨params, hbody, hparams⟩, rfl⟩

namespace OscState

variable {bytes : List UInt8} {s : OscState}

/-- The state after a stream. -/
def after (bytes : List UInt8) : OscState := (oscAutomaton.run ground 0 bytes).1

theorem after_append (xs ys : List UInt8) :
    after (xs ++ ys) = (oscAutomaton.run (after xs) 0 ys).1 := by
  unfold after
  rw [run_append, state_run]

theorem after_concat (bytes : List UInt8) (b : UInt8) :
    after (bytes ++ [b]) = ((after bytes).step b).1 := by
  rw [after_append]
  rfl

/-- What a state says about the stream before it. -/
def Describes (bytes : List UInt8) : OscState → Prop
  | ground => True
  | escape => Escaped bytes
  | string content => InString bytes content
  | stringEscape content => ∃ opened, bytes = opened ++ [0x1b] ∧ InString opened content

theorem escaped_esc (bytes : List UInt8) : Escaped (bytes ++ [0x1b]) := ⟨bytes, [], rfl, nofun⟩

theorem describes_escaped (h : Escaped bytes) (b : UInt8) :
    Describes (bytes ++ [b]) (escaped b) := by
  unfold escaped
  split
  · next hopen =>
    rw [hopen]
    exact ⟨bytes, rfl, h, nofun⟩
  · split
    · next hstays =>
      obtain ⟨before, middle, rfl, hmiddle⟩ := h
      refine ⟨before, middle ++ [b], append_assoc .., fun c hc => ?_⟩
      rcases List.mem_append.mp hc with hc | hc
      · exact hmiddle c hc
      · rw [List.mem_singleton.mp hc]
        exact hstays
    · trivial

/-- One byte. -/
theorem describes_step (h : Describes bytes s) (b : UInt8) :
    Describes (bytes ++ [b]) (s.step b).1 := by
  cases s with
  | ground =>
    rw [step]
    dsimp only
    split
    · next hesc =>
      rw [hesc]
      exact escaped_esc bytes
    · trivial
  | escape => exact describes_escaped h b
  | string content =>
    rw [step]
    split
    · trivial
    · split
      · next hesc => exact ⟨bytes, hesc ▸ rfl, h⟩
      · split
        · trivial
        · next hbel hesc habort =>
          obtain ⟨before, rfl, hescaped, hcontent⟩ := h
          refine ⟨before, append_assoc .., hescaped, fun c hc => ?_⟩
          rcases List.mem_append.mp hc with hc | hc
          · exact hcontent c hc
          · rw [List.mem_singleton.mp hc]
            simpa [endsString, hbel, hesc] using habort
  | stringEscape content =>
    obtain ⟨opened, rfl, -⟩ := h
    rw [step]
    split
    · trivial
    · exact describes_escaped (escaped_esc opened) b

/-- A whole stream. -/
theorem describes_after (bytes : List UInt8) : Describes bytes (after bytes) := by
  induction bytes using reverseRecOn with
  | nil => trivial
  | append_singleton bytes b ih =>
    rw [after_concat]
    exact describes_step ih b

/-- The states of an escape. -/
def InEscape : OscState → Prop
  | ground => False
  | escape => True
  | string _ => False
  | stringEscape _ => True

/-- An ESC leads into an escape from anywhere. -/
theorem inEscape_esc (s : OscState) : InEscape (s.step 0x1b).1 := by cases s <;> trivial

theorem step_of_inEscape (h : InEscape s) {b : UInt8} (hb : b ≠ 0x5c) :
    s.step b = (escaped b, none) := by
  cases s with
  | ground => exact h.elim
  | escape => rfl
  | string content => exact h.elim
  | stringEscape content => rw [step, if_neg hb]

theorem inEscape_run {middle : List UInt8} (hmiddle : ∀ b ∈ middle, staysInEscape b = true)
    (h : InEscape s) (base : Nat) : InEscape (oscAutomaton.run s base middle).1 := by
  induction middle generalizing s base with
  | nil => exact h
  | cons b middle ih =>
    have hb := hmiddle b (mem_cons_self ..)
    have hne : ∀ c : UInt8, staysInEscape c = false → b ≠ c := by
      rintro c hc rfl
      exact absurd hb (hc ▸ Bool.false_ne_true)
    have hstep : oscAutomaton.step s b = (escape, none) := by
      rw [show oscAutomaton.step s b = s.step b from rfl, step_of_inEscape h (hne 0x5c rfl),
        escaped, if_neg (hne 0x5d rfl), if_pos hb]
    rw [run_cons, hstep]
    have hescape : InEscape escape := trivial
    exact ih (fun c hc => hmiddle c (mem_cons_of_mem _ hc)) hescape (base + 1)

theorem inEscape_after (h : Escaped bytes) : InEscape (after bytes) := by
  obtain ⟨before, middle, rfl, hmiddle⟩ := h
  rw [after_append]
  exact inEscape_run hmiddle (inEscape_esc (after before)) 1

theorem after_inString {content : List UInt8} (h : InString bytes content) :
    after bytes = string content := by
  obtain ⟨before, rfl, hescaped, hcontent⟩ := h
  have hopen : oscAutomaton.step (after before) 0x5d = (string [], none) :=
    step_of_inEscape (inEscape_after hescaped) (by decide)
  rw [after_append, run_cons, hopen, run_content hcontent]
  rfl

/-- A report is made at the end of a string. -/
theorem of_report {b : UInt8} (hreport : (s.step b).2 = some action) :
    (∃ content, s = string content ∧ b = 0x07 ∧ finished content true = some action) ∨
      ∃ content, s = stringEscape content ∧ b = 0x5c ∧ finished content false = some action := by
  cases s with
  | ground => cases hreport
  | escape => cases hreport
  | string content =>
    rw [step] at hreport
    split at hreport
    · next hbel => exact .inl ⟨content, rfl, hbel, hreport⟩
    · split at hreport
      · cases hreport
      · split at hreport <;> cases hreport
  | stringEscape content =>
    rw [step] at hreport
    split at hreport
    · next hclose => exact .inr ⟨content, rfl, hclose, hreport⟩
    · cases hreport

/-- Reports are made where a string ends, and say what it says. -/
theorem report_iff_framed {stream : List UInt8} {stop : Nat} :
    (⟨stop, action⟩ : StatusCut) ∈ (oscAutomaton.run ground 0 stream).2 ↔
      ∃ content bel, Framed stream stop content bel ∧ Says content bel action := by
  rw [mem_run]
  constructor
  · rintro ⟨before, b, rest, rfl, hstop, hreport⟩
    have hdescribes := describes_after before
    rcases of_report hreport with ⟨content, hstate, rfl, haction⟩ | ⟨content, hstate, rfl, haction⟩
    · rw [show after before = string content from hstate] at hdescribes
      refine ⟨content, true, ⟨before, rest, ?_, ?_, hdescribes⟩, finished_iff.mp haction⟩
      · rw [append_assoc]
        rfl
      · rw [length_append]
        exact hstop.trans (by rw [Nat.zero_add]; rfl)
    · rw [show after before = stringEscape content from hstate] at hdescribes
      obtain ⟨opened, rfl, hopened⟩ := hdescribes
      refine ⟨content, false, ⟨opened, rest, ?_, ?_, hopened⟩, finished_iff.mp haction⟩
      · rw [append_assoc, append_assoc]
        rfl
      · rw [length_append] at hstop ⊢
        exact hstop.trans (by rw [Nat.zero_add]; rfl)
  · rintro ⟨content, bel, ⟨opened, rest, rfl, rfl, hopened⟩, hsays⟩
    have hstate := after_inString hopened
    cases bel with
    | true =>
      refine ⟨opened, 0x07, rest, append_assoc .., ?_, ?_⟩
      · rw [length_append, Nat.zero_add]
        rfl
      · rw [show (oscAutomaton.run ground 0 opened).1 = string content from hstate]
        exact finished_iff.mpr hsays
    | false =>
      have hesc : after (opened ++ [0x1b]) = stringEscape content := by
        rw [after_concat, hstate]
        rfl
      refine ⟨opened ++ [0x1b], 0x5c, rest, ?_, ?_, ?_⟩
      · rw [append_assoc, append_assoc]
        rfl
      · rw [length_append, length_append, Nat.zero_add]
        rfl
      · rw [show (oscAutomaton.run ground 0 (opened ++ [0x1b])).1 = stringEscape content from hesc]
        exact finished_iff.mpr hsays

end OscState

/-- However a stream is cut into reads, the scanner reports and ends as if it had read it at
once; what it reports, in order, are the strings of the grammar with what they say. -/
theorem OscStatusScanner.reads_grammar (stream : List (List UInt8)) :
    reads scan .default 0 stream = scan .default stream.flatten ∧
      (∀ stop action, ⟨stop, action⟩ ∈ (reads scan .default 0 stream).2 ↔
        ∃ content bel, Framed stream.flatten stop content bel ∧ Says content bel action) ∧
      (reads scan .default 0 stream).2.Pairwise
        fun earlier later => earlier.stop < later.stop := by
  have hreads := OscState.realises.reads .ground 0 stream
  have hwhole := OscState.realises .ground stream.flatten
  rw [show OscStatusScanner.default = OscState.ground.held from rfl, hreads]
  refine ⟨hwhole.symm, fun stop action => OscState.report_iff_framed, ?_⟩
  exact sorted_run ..

end Shux.Vt
