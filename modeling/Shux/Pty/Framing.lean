/-
# Framing

What is read of a command's output does not depend on how the output is cut into reads. The
stream is some noise, the BEGIN line, the payload, the END marker and a rest. However it
arrives, the command completes at the read that brings the last byte of the END marker, with
the code that stands there, and what was captured is the payload up to the limit.

Both markers have their first letter again only where another letter than theirs follows, so
that neither can begin inside the other or inside itself.
-/

import Shux.Pty.Lifecycle

namespace Shux.Pty

open Search List TrackedCommand FinMap Apart

/-- The letter both markers begin with. -/
def letterS : UInt8 := 83

theorem mem_toDigits_hex (n : Nat) : ∀ c ∈ Nat.toDigits 16 n, UInt8.ofNat c.toNat ≠ letterS := by
  have hdigit : ∀ d < 16, UInt8.ofNat d.digitChar.toNat ≠ letterS := by decide
  induction n using Nat.strong_induction_on with
  | _ n ih =>
    intro c hc
    rw [Nat.toDigits_eq_if (by decide)] at hc
    split_ifs at hc with hlt
    · rw [mem_singleton] at hc
      rw [hc]
      exact hdigit n hlt
    · obtain hc | hc := mem_append.mp hc
      · exact ih (n / 16) (by omega) c hc
      · rw [mem_singleton] at hc
        rw [hc]
        exact hdigit (n % 16) (Nat.mod_lt _ (by decide))

theorem letterS_notMem_simple (id : Uuid) : letterS ∉ asciiBytes id.simple := by
  intro hmem
  obtain ⟨c, hc, heq⟩ := mem_map.mp hmem
  unfold Uuid.simple List.leftpad at hc
  obtain hc | hc := mem_append.mp hc
  · rw [eq_of_mem_replicate hc] at heq
    exact absurd heq (by decide)
  · exact mem_toDigits_hex id.value c hc heq

theorem asciiBytes_append (a b : Str) : asciiBytes (a ++ b) = asciiBytes a ++ asciiBytes b :=
  map_append

/-- A marker's own text, up to where the id stands, keeps the letter apart from any other than
the one that follows it there. -/
theorem apart_marker {b : UInt8} (hb : (67 : UInt8) ≠ b) (id : Uuid) {text : List UInt8}
    (h : Apart letterS b 5 text) : Apart letterS b 5 (asciiBytes (markerOf id) ++ text) := by
  have hsplit : asciiBytes (markerOf id) = asciiBytes "__".toList ++ letterS ::
      (asciiBytes "HUX_CMD_".toList ++ (asciiBytes id.simple ++ asciiBytes "__".toList)) := by
    unfold markerOf
    rw [asciiBytes_append, asciiBytes_append, append_assoc]
    rfl
  rw [hsplit, append_assoc, cons_append, append_assoc, append_assoc]
  refine append (by decide) (Apart.cons (d := 67) rfl hb ?_)
  refine append (by decide) (append (letterS_notMem_simple id) ?_)
  exact append (by decide) h

section Texts

variable {cmd : TrackedCommand} {id : Uuid}

theorem beginText_eq (hmarker : cmd.marker = markerOf id) :
    cmd.beginText = letterS :: (asciiBytes "HUX_BEGIN".toList ++ asciiBytes (markerOf id)) := by
  unfold beginText
  rw [asciiBytes_append, hmarker]
  rfl

theorem endText_eq (hmarker : cmd.marker = markerOf id) :
    cmd.endText = letterS :: (asciiBytes "HUX_MARKER".toList ++
      (asciiBytes (markerOf id) ++ asciiBytes "EXIT".toList)) := by
  unfold endText
  rw [asciiBytes_append, asciiBytes_append, hmarker, append_assoc]
  rfl

theorem beginText_ne_nil (cmd : TrackedCommand) : cmd.beginText ≠ [] := by
  unfold beginText
  rw [asciiBytes_append]
  exact append_ne_nil_of_left_ne_nil (by decide) _

section

variable (hmarker : cmd.marker = markerOf id)
include hmarker

theorem beginText_letters : cmd.beginText[0]? = some letterS ∧ cmd.beginText[5]? = some 66 := by
  rw [beginText_eq hmarker]
  exact ⟨rfl, rfl⟩

theorem endText_letters : cmd.endText[0]? = some letterS ∧ cmd.endText[5]? = some 77 := by
  rw [endText_eq hmarker]
  exact ⟨rfl, rfl⟩

theorem apart_beginText : Apart letterS 66 5 cmd.beginText.tail := by
  rw [beginText_eq hmarker, tail_cons]
  refine append (by decide) ?_
  have h := apart_marker (b := 66) (by decide) id apart_nil
  rwa [append_nil] at h

theorem apart_endText {text : List UInt8}
    (h : Apart letterS 77 5 text) : Apart letterS 77 5 (cmd.endText ++ text).tail := by
  rw [endText_eq hmarker, cons_append, tail_cons, append_assoc, append_assoc]
  refine append (by decide) (apart_marker (by decide) id ?_)
  exact append (by decide) h

/-- No END prefix begins inside another. -/
theorem not_at_inside {buf : List UInt8} {start j : Nat}
    (hat : At cmd.endText buf start) (hlt : start < j) (hle : j < start + cmd.endText.length) :
    ¬At cmd.endText buf j := by
  obtain ⟨h0, h5⟩ := endText_letters hmarker
  have hapart := apart_endText hmarker apart_nil
  rw [append_nil] at hapart
  refine hapart.not_at h0 h5 hat.tail (by omega) ?_
  rw [length_tail]
  omega

end

end Texts

section EndMarker

variable {rest : List UInt8}

/-- Between one and three digits. -/
structure IsCode (digits : List UInt8) : Prop where
  ne_nil : digits ≠ []
  length_le : digits.length ≤ 3
  digit : ∀ b ∈ digits, isAsciiDigit b = true

theorem endMarker_of_code {digits : List UInt8} (h : IsCode digits) (more : List UInt8) :
    endMarker (digits ++ endSuffix ++ more) = .exit (codeOf digits) := by
  have htake : (digits ++ endSuffix ++ more).takeWhile isAsciiDigit = digits := by
    rw [append_assoc, takeWhile_append_of_pos h.digit]
    exact append_nil _
  have hdrop : (digits ++ endSuffix ++ more).dropWhile isAsciiDigit = endSuffix ++ more := by
    rw [append_assoc, dropWhile_append_of_pos h.digit]
    rfl
  unfold endMarker
  dsimp only
  rw [htake, hdrop, if_neg (by have := h.length_le; omega),
    if_neg (by rw [length_append]; omega), if_neg]
  rw [Bool.or_eq_true, not_or, Bool.not_eq_true, Bool.not_eq_true, Bool.not_eq_false',
    isPrefixOf_iff_prefix, isEmpty_eq_false_iff]
  exact ⟨h.ne_nil, prefix_append _ _⟩

theorem exists_code_of_exit {code : Nat} (h : endMarker rest = .exit code) :
    ∃ digits more, IsCode digits ∧ rest = digits ++ endSuffix ++ more ∧ code = codeOf digits := by
  obtain ⟨digits, more, hne, hlen, hdigits, hrest, hcode⟩ := CommandEngine.endMarker_eq_exit h
  exact ⟨digits, more, ⟨hne, hlen, all_eq_true.mp hdigits⟩, hrest, hcode⟩

theorem endMarker_exit_append {code : Nat} (h : endMarker rest = .exit code) (more : List UInt8) :
    endMarker (rest ++ more) = .exit code := by
  obtain ⟨digits, tail, hcode, rfl, rfl⟩ := exists_code_of_exit h
  rw [append_assoc (digits ++ endSuffix)]
  exact endMarker_of_code hcode _

theorem length_of_incomplete (h : endMarker rest = .incomplete) : rest.length ≤ 10 := by
  have hsplit : rest.length =
      (rest.takeWhile isAsciiDigit).length + (rest.dropWhile isAsciiDigit).length := by
    rw [← length_append, takeWhile_append_dropWhile]
  have hsuffix : endSuffix.length = 8 := rfl
  unfold endMarker at h
  dsimp only at h
  split_ifs at h with hlong hshort
  omega

/-- Once it is not the END marker, nothing that follows makes it one. -/
theorem endMarker_not_append (h : endMarker rest = .not) (more : List UInt8) :
    endMarker (rest ++ more) = .not := by
  have hsuffix : endSuffix.length = 8 := rfl
  by_cases htail : rest.dropWhile isAsciiDigit = []
  · -- Digits only: there must be too many.
    have htake : rest.takeWhile isAsciiDigit = rest := by
      have hsplit := takeWhile_append_dropWhile (p := isAsciiDigit) (l := rest)
      rwa [htail, append_nil] at hsplit
    have hlong : 3 < rest.length := by
      by_contra hlong
      unfold endMarker at h
      dsimp only at h
      rw [htake, htail, if_neg hlong] at h
      cases h
    unfold endMarker
    dsimp only
    rw [if_pos]
    rw [takeWhile_append, htake, if_pos rfl, length_append]
    omega
  · have htake : (rest ++ more).takeWhile isAsciiDigit = rest.takeWhile isAsciiDigit := by
      rw [takeWhile_append, if_neg]
      intro hlen
      have hsplit := congrArg List.length
        (takeWhile_append_dropWhile (p := isAsciiDigit) (l := rest))
      rw [length_append, hlen] at hsplit
      exact htail (length_eq_zero_iff.mp (by omega))
    have hdrop : (rest ++ more).dropWhile isAsciiDigit = rest.dropWhile isAsciiDigit ++ more := by
      rw [dropWhile_append, if_neg]
      rw [List.isEmpty_iff]
      exact htail
    unfold endMarker at h ⊢
    dsimp only at h ⊢
    rw [htake, hdrop]
    generalize rest.takeWhile isAsciiDigit = digits at h ⊢
    generalize rest.dropWhile isAsciiDigit = tail at h htail ⊢
    by_cases hlong : 3 < digits.length
    · rw [if_pos hlong]
    rw [if_neg hlong] at h ⊢
    by_cases hshort : tail.length < endSuffix.length
    · rw [if_pos hshort] at h
      have hno : digits ≠ [] → ¬tail <+: endSuffix := by
        intro hne hpre
        rw [if_pos] at h
        · cases h
        · simp [hne, hpre]
      split_ifs with hshort' hpart hend
      · rw [Bool.or_eq_true, List.isEmpty_iff, Bool.and_eq_true, isPrefixOf_iff_prefix,
          Bool.not_eq_true', isEmpty_eq_false_iff] at hpart
        obtain hnil | ⟨hne, hpre⟩ := hpart
        · exact absurd (append_eq_nil_iff.mp hnil).1 htail
        · exact absurd ((prefix_append tail more).trans hpre) (hno hne)
      · rfl
      · rfl
      · rw [Bool.or_eq_true, not_or, Bool.not_eq_true, Bool.not_eq_true, Bool.not_eq_false',
          isPrefixOf_iff_prefix, isEmpty_eq_false_iff] at hend
        refine absurd ?_ (hno hend.1)
        exact prefix_of_prefix_length_le (prefix_append tail more) hend.2 (by omega)
    · rw [if_neg hshort] at h
      rw [if_neg (by rw [length_append]; omega)]
      split_ifs with hend
      · rfl
      · rw [Bool.or_eq_true, not_or, Bool.not_eq_true, Bool.not_eq_true, Bool.not_eq_false',
          isPrefixOf_iff_prefix] at hend
        have hpre : endSuffix <+: tail :=
          prefix_of_prefix_length_le hend.2 (prefix_append tail more) (by omega)
        rw [if_neg] at h
        · cases h
        · simp [hend.1, hpre]

end EndMarker

/-- A complete END marker with a code stands at a place of a text. -/
structure EndAt (text whole : List UInt8) (i code : Nat) : Prop where
  at_text : At text whole i
  marker : endMarker (whole.drop (i + text.length)) = .exit code

section EndAt

variable {text whole : List UInt8} {i code : Nat}

theorem EndAt.append (h : EndAt text whole i code) (hne : text ≠ []) (more : List UInt8) :
    EndAt text (whole ++ more) i code := by
  refine ⟨h.at_text.append more, ?_⟩
  rw [drop_append_of_le_length (h.at_text.le_length hne)]
  exact endMarker_exit_append h.marker more

theorem endAt_append_right (front : List UInt8) :
    EndAt text (front ++ whole) (front.length + i) code ↔ EndAt text whole i code := by
  have hdrop : (front ++ whole).drop (front.length + i + text.length) =
      whole.drop (i + text.length) := by
    rw [Nat.add_assoc, drop_append, drop_eq_nil_of_le (by omega),
      Nat.add_sub_cancel_left, nil_append]
  constructor
  · rintro ⟨hat, hmarker⟩
    exact ⟨(at_append_right front).mp hat, hdrop ▸ hmarker⟩
  · rintro ⟨hat, hmarker⟩
    exact ⟨(at_append_right front).mpr hat, hdrop ▸ hmarker⟩

end EndAt

section Scan

variable {cmd : TrackedCommand} {id : Uuid}
variable {buf : List UInt8}

theorem endText_keep (cmd : TrackedCommand) (payload : List UInt8) :
    (cmd.keep payload).endText = cmd.endText := by
  unfold endText
  rw [(CommandEngine.sameFrame_keep cmd payload).marker]

/-- Keeping in two pieces is keeping both at once. -/
theorem keep_keep (cmd : TrackedCommand) (a b : List UInt8) :
    (cmd.keep a).keep b = cmd.keep (a ++ b) := by
  by_cases hresult : cmd.result.isSome = true
  · unfold keep
    simp only [hresult, if_true]
  · unfold keep
    simp only [hresult, Bool.false_eq_true, if_false, TrackedCommand.mk.injEq, true_and, and_true]
    generalize captureLimit = limit
    have hlen : (cmd.capture ++ a.take (limit - cmd.capture.length)).length =
        cmd.capture.length + min (limit - cmd.capture.length) a.length := by
      rw [length_append, length_take]
    rw [hlen, append_assoc, take_append]
    refine ⟨?_, ?_⟩
    · congr 3
      omega
    · rw [Bool.or_assoc, ← Bool.decide_or, length_append]
      congr 1
      rw [decide_eq_decide]
      omega

/-- What a scan that goes on has decided: no END marker begins in what it kept, whatever
follows, and none is complete in what it was given. -/
theorem scanEnd_more (hmarker : cmd.marker = markerOf id) {held : List UInt8}
    {cmd' : TrackedCommand} (h : cmd.scanEnd buf = .more cmd' held) :
    ∃ n ≤ buf.length, cmd' = cmd.keep (buf.take n) ∧ held = buf.drop n ∧
      (∀ more j code, j < n → ¬EndAt cmd.endText (buf ++ more) j code) ∧
      ∀ j code, ¬EndAt cmd.endText buf j code := by
  fun_induction scanEnd cmd buf with
  | case1 cmd buf hfind take =>
    cases h
    have hnone := find_eq_none cmd.endText_ne_nil hfind
    refine ⟨take, Nat.sub_le _ _, rfl, rfl, ?_, fun j code hend => hnone j hend.at_text⟩
    intro more j code hj hend
    -- The window at such a place is complete.
    refine hnone j ((at_append_iff ?_).mp hend.at_text)
    have hpos := length_pos_iff.mpr cmd.endText_ne_nil
    omega
  | case2 cmd buf start hfind hincomplete =>
    cases h
    obtain ⟨hat, hbefore⟩ := find_eq_some hfind
    have hle := hat.le_length cmd.endText_ne_nil
    refine ⟨start, by omega, rfl, rfl, ?_, ?_⟩
    · intro more j code hj hend
      exact hbefore j hj ((at_append_iff (by omega)).mp hend.at_text)
    · intro j code hend
      have hshort := length_of_incomplete hincomplete
      rw [length_drop] at hshort
      have hj := hend.at_text.le_length cmd.endText_ne_nil
      have hlong : 11 ≤ cmd.endText.length := by
        rw [endText_eq hmarker, length_cons, length_append]
        show 11 ≤ 10 + _ + 1
        omega
      rcases Nat.lt_trichotomy j start with hlt | rfl | hgt
      · exact hbefore j hlt hend.at_text
      · have hexit := hend.marker
        rw [hincomplete] at hexit
        cases hexit
      · exact not_at_inside hmarker hat hgt (by omega) hend.at_text
  | case3 cmd buf start hfind hnot ih =>
    obtain ⟨hat, hbefore⟩ := find_eq_some hfind
    have hle := hat.le_length cmd.endText_ne_nil
    obtain ⟨n, hn, hcmd', hheld, hkept, hrest⟩ :=
      ih ((CommandEngine.sameFrame_keep cmd _).marker.trans hmarker) h
    rw [endText_keep] at hkept hrest
    rw [length_drop] at hn
    -- Up to the end of this prefix nothing can be the END marker.
    have hhead : ∀ more j code, j < start + cmd.endText.length →
        ¬EndAt cmd.endText (buf ++ more) j code := by
      intro more j code hj hend
      rcases Nat.lt_trichotomy j start with hlt | rfl | hgt
      · exact hbefore j hlt ((at_append_iff (by omega)).mp hend.at_text)
      · have hexit := hend.marker
        rw [drop_append_of_le_length hle, endMarker_not_append hnot] at hexit
        cases hexit
      · exact not_at_inside hmarker (hat.append more) hgt hj hend.at_text
    have hlen : (buf.take (start + cmd.endText.length)).length = start + cmd.endText.length := by
      rw [length_take]
      omega
    -- From there on it is as the rest of the scan has it.
    have hshift : ∀ more j code, start + cmd.endText.length ≤ j →
        EndAt cmd.endText (buf ++ more) j code →
        EndAt cmd.endText (buf.drop (start + cmd.endText.length) ++ more)
          (j - (start + cmd.endText.length)) code := by
      intro more j code hj hend
      rw [← endAt_append_right (buf.take (start + cmd.endText.length)), hlen,
        Nat.add_sub_cancel' hj, ← append_assoc, take_append_drop]
      exact hend
    refine ⟨start + cmd.endText.length + n, by omega, ?_, ?_, ?_, ?_⟩
    · rw [hcmd', keep_keep, ← take_add]
    · rw [hheld, drop_drop]
    · intro more j code hj hend
      by_cases hin : j < start + cmd.endText.length
      · exact hhead more j code hin hend
      · exact hkept more _ code (by omega) (hshift more j code (by omega) hend)
    · intro j code hend
      by_cases hin : j < start + cmd.endText.length
      · refine hhead [] j code hin ?_
        rwa [append_nil]
      · have hend' := hshift [] j code (by omega) (by rwa [append_nil])
        rw [append_nil] at hend'
        exact hrest _ code hend'
  | case4 => cases h

/-- Where a scan that finds the end finds it: at the first complete END marker. -/
theorem scanEnd_exit (hmarker : cmd.marker = markerOf id)
    {cmd' : TrackedCommand} {code : Nat} (h : cmd.scanEnd buf = .exit cmd' code) :
    ∃ n, cmd' = cmd.keep (buf.take n) ∧ EndAt cmd.endText buf n code ∧
      ∀ j code', j < n → ¬EndAt cmd.endText buf j code' := by
  fun_induction scanEnd cmd buf with
  | case1 => cases h
  | case2 => cases h
  | case3 cmd buf start hfind hnot ih =>
    obtain ⟨hat, hbefore⟩ := find_eq_some hfind
    have hle := hat.le_length cmd.endText_ne_nil
    obtain ⟨n, hcmd', hend, hfirst⟩ :=
      ih ((CommandEngine.sameFrame_keep cmd _).marker.trans hmarker) h
    rw [endText_keep] at hend hfirst
    have hlen : (buf.take (start + cmd.endText.length)).length = start + cmd.endText.length := by
      rw [length_take]
      omega
    have hshift : ∀ j code, EndAt cmd.endText (buf.drop (start + cmd.endText.length)) j code ↔
        EndAt cmd.endText buf (start + cmd.endText.length + j) code := by
      intro j code
      rw [← endAt_append_right (buf.take (start + cmd.endText.length)), hlen, take_append_drop]
    refine ⟨start + cmd.endText.length + n, ?_, (hshift n code).mp hend, ?_⟩
    · rw [hcmd', keep_keep, ← take_add]
    · intro j code' hj hend'
      by_cases hin : j < start + cmd.endText.length
      · rcases Nat.lt_trichotomy j start with hlt | rfl | hgt
        · exact hbefore j hlt hend'.at_text
        · have hexit := hend'.marker
          rw [hnot] at hexit
          cases hexit
        · exact not_at_inside hmarker hat hgt hin hend'.at_text
      · refine hfirst (j - (start + cmd.endText.length)) code' (by omega) ?_
        rw [hshift, Nat.add_sub_cancel' (by omega)]
        exact hend'
  | case4 cmd buf start hfind found hexit =>
    cases h
    obtain ⟨hat, hbefore⟩ := find_eq_some hfind
    exact ⟨start, rfl, ⟨hat, hexit⟩, fun j code' hj hend => hbefore j hj hend.at_text⟩

/-- What a scan for the BEGIN line that goes on has decided. -/
theorem scanBegin_waiting {held : List UInt8} (h : cmd.scanBegin buf = .waiting held) :
    ∃ n ≤ buf.length, held = buf.drop n ∧
      (∀ more j, j < n → ¬At cmd.beginText (buf ++ more) j) ∧
      ∀ j, At cmd.beginText buf j → (∀ i < j, ¬At cmd.beginText buf i) →
        (10 : UInt8) ∉ buf.drop (j + cmd.beginText.length) := by
  have hpos := length_pos_iff.mpr (beginText_ne_nil cmd)
  unfold scanBegin at h
  split at h
  · cases h
  · split at h
    · next hfind =>
      cases h
      have hnone := find_eq_none (beginText_ne_nil cmd) hfind
      refine ⟨_, Nat.sub_le _ _, rfl, ?_, fun j hat => absurd hat (hnone j)⟩
      intro more j hj hat
      exact hnone j ((at_append_iff (by omega)).mp hat)
    · next start hfind =>
      obtain ⟨hat, hbefore⟩ := find_eq_some hfind
      have hle := hat.le_length (beginText_ne_nil cmd)
      split at h
      · next hnl =>
        cases h
        refine ⟨start, by omega, rfl, ?_, ?_⟩
        · intro more j hj hat'
          exact hbefore j hj ((at_append_iff (by omega)).mp hat')
        · intro j hatj hfirst
          rw [find_of_first (beginText_ne_nil cmd) hatj hfirst] at hfind
          cases hfind
          intro hmem
          have hnone := List.findIdx?_eq_none_iff.mp hnl 10 hmem
          cases hnone
      · cases h

/-- Where a scan finds the BEGIN line: the first there is, up to the end of its line. -/
theorem scanBegin_begun {rest : List UInt8} (hbegun : cmd.begun = false)
    (h : cmd.scanBegin buf = .begun rest) :
    ∃ start nl, At cmd.beginText buf start ∧ (∀ i < start, ¬At cmd.beginText buf i) ∧
      (buf.drop (start + cmd.beginText.length)).findIdx? (· == 10) = some nl ∧
      rest = buf.drop (start + cmd.beginText.length + nl + 1) := by
  unfold scanBegin at h
  rw [hbegun, if_neg Bool.false_ne_true] at h
  split at h
  · cases h
  · next start hfind =>
    obtain ⟨hat, hbefore⟩ := find_eq_some hfind
    split at h
    · cases h
    · next nl hnl =>
      cases h
      exact ⟨start, nl, hat, hbefore, hnl, rfl⟩

end Scan

/-- The parts of what a shell sends for one command, besides the markers. -/
structure Stream where
  noise : List UInt8
  /-- What stands between the BEGIN text and the end of its line. -/
  eol : List UInt8
  payload : List UInt8
  digits : List UInt8
  rest : List UInt8

namespace Stream

variable (s : Stream) (cmd : TrackedCommand)

/-- Up to the end of the BEGIN line. -/
def head : List UInt8 := s.noise ++ (cmd.beginText ++ (s.eol ++ [10]))

/-- The END marker. -/
def endMarker : List UInt8 := cmd.endText ++ (s.digits ++ endSuffix)

/-- From the end of the BEGIN line on. -/
def body : List UInt8 := s.payload ++ (s.endMarker cmd ++ s.rest)

def bytes : List UInt8 := s.head cmd ++ s.body cmd

/-- The noise does not have the BEGIN text, and the payload has no complete END marker. -/
structure Framed : Prop where
  noise : ¬cmd.beginText <:+: s.noise
  eol : (10 : UInt8) ∉ s.eol
  payload : ∀ digits, IsCode digits → ¬cmd.endText ++ (digits ++ endSuffix) <:+: s.payload
  digits : IsCode s.digits

variable {s cmd} {id : Uuid}

/-- The BEGIN text stands where the noise ends, and nowhere before. -/
theorem Framed.first_begin (h : s.Framed cmd) (hmarker : cmd.marker = markerOf id) :
    At cmd.beginText (s.bytes cmd) s.noise.length ∧
      ∀ j < s.noise.length, ¬At cmd.beginText (s.bytes cmd) j := by
  have hat : At cmd.beginText (s.bytes cmd) s.noise.length := by
    refine ⟨s.eol ++ [10] ++ s.body cmd, ?_⟩
    simp only [bytes, head, append_assoc, drop_left]
  refine ⟨hat, fun j hj hatj => ?_⟩
  by_cases hin : j + cmd.beginText.length ≤ s.noise.length
  · apply h.noise
    have hinf := hatj.isInfix
    unfold bytes head at hinf
    rw [append_assoc, take_append_of_le_length hin] at hinf
    exact hinf.trans ( take_prefix _ _).isInfix
  · -- It would reach into the BEGIN text that follows.
    obtain ⟨h0, h5⟩ := beginText_letters hmarker
    refine (apart_beginText hmarker).not_at h0 h5 hatj.tail (by omega) ?_ hat
    rw [length_tail]
    omega

theorem apart_endMarker {digits : List UInt8} (hmarker : cmd.marker = markerOf id)
    (h : IsCode digits) :
    Apart letterS 77 5 (cmd.endText ++ (digits ++ endSuffix)).tail := by
  refine apart_endText hmarker (append ?_ ?_)
  · intro hmem
    exact absurd (h.digit letterS hmem) (by decide)
  · exact Apart.cons (d := 69) rfl (by decide)
      (append (show letterS ∉ asciiBytes "HUX_END".toList by decide) apart_nil)

/-- The END marker stands where the payload ends, and none is complete before. -/
theorem Framed.first_end (h : s.Framed cmd) (hmarker : cmd.marker = markerOf id) :
    EndAt cmd.endText (s.body cmd) s.payload.length (codeOf s.digits) ∧
      ∀ j code, j < s.payload.length → ¬EndAt cmd.endText (s.body cmd) j code := by
  have hdrop : (s.body cmd).drop (s.payload.length + cmd.endText.length) =
      s.digits ++ endSuffix ++ s.rest := by
    unfold body endMarker
    rw [← drop_drop, drop_left, append_assoc, drop_left]
  have hend : EndAt cmd.endText (s.body cmd) s.payload.length (codeOf s.digits) := by
    refine ⟨⟨s.digits ++ endSuffix ++ s.rest, ?_⟩, ?_⟩
    · simp only [body, endMarker, append_assoc, drop_left]
    · rw [hdrop]
      exact endMarker_of_code h.digits s.rest
  refine ⟨hend, fun j code hj hendj => ?_⟩
  obtain ⟨digits, more, hcode, hrest, -⟩ := exists_code_of_exit hendj.marker
  have hat : At (cmd.endText ++ (digits ++ endSuffix)) (s.body cmd) j := by
    obtain ⟨tail, htail⟩ := hendj.at_text
    refine ⟨more, ?_⟩
    rw [← drop_drop, ← htail, drop_left] at hrest
    rw [← htail, hrest, append_assoc]
  by_cases hin : j + (cmd.endText ++ (digits ++ endSuffix)).length ≤ s.payload.length
  · apply h.payload digits hcode
    have hinf := hat.isInfix
    unfold body at hinf
    rw [take_append_of_le_length hin] at hinf
    exact hinf.trans ( take_prefix _ _).isInfix
  · obtain ⟨h0, h5⟩ := endText_letters hmarker
    refine (apart_endMarker hmarker hcode).not_at h0 h5 hat.tail (by omega) ?_ hend.at_text
    rw [length_tail]
    omega

/-! ## Reads of a stream -/

section Arrives

variable {cmd : TrackedCommand} {id : Uuid} {s : Stream}

/-- What has arrived so far is a start of the stream, of which `seen` is decided and `held`
is not: the BEGIN text does not begin in what is decided. -/
structure Waits (s : Stream) (cmd : TrackedCommand) (seen held : List UInt8) : Prop where
  short : (seen ++ held).length < (s.head cmd).length
  free : ∀ more j, j < seen.length → ¬At cmd.beginText (seen ++ held ++ more) j

/-- What has arrived behind the BEGIN line, of which `kept` was the payload's and `held` is not
decided: no END marker begins in what was kept, and none is complete. -/
structure Reads (s : Stream) (cmd : TrackedCommand) (kept held : List UInt8) : Prop where
  short : (kept ++ held).length < (s.payload ++ s.endMarker cmd).length
  free : ∀ more j code, j < kept.length → ¬EndAt cmd.endText (kept ++ held ++ more) j code

/-- The first newline behind the BEGIN text ends its line. -/
theorem findIdx?_eol {eol row more : List UInt8} (heol : (10 : UInt8) ∉ eol)
    (hrow : row <+: eol ++ 10 :: more) {nl : Nat} (h : row.findIdx? (· == 10) = some nl) :
    nl = eol.length := by
  rw [List.findIdx?_eq_some_iff_getElem] at h
  obtain ⟨hlt, hnl, hbefore⟩ := h
  have hget : ∀ k (hk : k < row.length), (eol ++ 10 :: more)[k]? = some row[k] := by
    intro k hk
    obtain ⟨tail, htail⟩ := hrow
    rw [← htail, List.getElem?_append_left hk, List.getElem?_eq_getElem hk]
  rcases Nat.lt_trichotomy nl eol.length with hshort | heq | hlong
  · have hmem := hget nl hlt
    rw [List.getElem?_append_left hshort, beq_iff_eq.mp hnl] at hmem
    exact absurd (mem_of_getElem? hmem) heol
  · exact heq
  · have hmid := hget eol.length (by omega)
    rw [List.getElem?_append_right le_rfl, Nat.sub_self, List.getElem?_cons_zero,
      Option.some.injEq] at hmid
    exact absurd hmid.symm (by simpa using hbefore eol.length hlong)

section Waits

variable {seen held chunk more : List UInt8} (h : Waits s cmd seen held)
  (hframed : s.Framed cmd) (hmarker : cmd.marker = markerOf id)
  (hbytes : seen ++ held ++ chunk ++ more = s.bytes cmd)
include h hframed hmarker hbytes

/-- Only noise is decided. -/
theorem Waits.seen_le : seen.length ≤ s.noise.length := by
  by_contra hlt
  refine h.free (chunk ++ more) s.noise.length (by omega) ?_
  rw [← append_assoc, hbytes]
  exact (hframed.first_begin hmarker).1

omit h in
/-- The BEGIN text is not found in the noise. -/
theorem noise_le_of_at {j : Nat} (hat : At cmd.beginText (held ++ chunk) j) :
    s.noise.length ≤ seen.length + j := by
  by_contra hlt
  refine (hframed.first_begin hmarker).2 (seen.length + j) (by omega) ?_
  rw [← hbytes, append_assoc, append_assoc, ← append_assoc held, at_append_right]
  exact hat.append more

/-- A read that does not complete the BEGIN line. -/
theorem Waits.waiting {held' : List UInt8}
    (hscan : cmd.scanBegin (held ++ chunk) = .waiting held') :
    ∃ seen', seen' ++ held' = seen ++ held ++ chunk ∧ Waits s cmd seen' held' := by
  obtain ⟨n, hn, rfl, hfree, hnl⟩ := scanBegin_waiting hscan
  have hwhole :
      seen ++ (held ++ chunk).take n ++ (held ++ chunk).drop n = seen ++ held ++ chunk := by
    rw [append_assoc, take_append_drop, append_assoc]
  refine ⟨seen ++ (held ++ chunk).take n, hwhole, ?_, ?_⟩
  · rw [hwhole]
    by_contra hlong
    -- The whole BEGIN line has arrived, so that the scan would have seen it.
    have hhead : s.head cmd <+: seen ++ held ++ chunk := by
      refine prefix_of_prefix_length_le ?_ ⟨more, hbytes⟩ (by omega)
      exact prefix_append _ _
    obtain ⟨tail, htail⟩ := hhead
    obtain ⟨k, hk⟩ := Nat.exists_eq_add_of_le (h.seen_le hframed hmarker hbytes)
    have hatk : At cmd.beginText (held ++ chunk) k := by
      rw [← at_append_right seen, ← hk, ← append_assoc, ← htail]
      refine ⟨s.eol ++ [10] ++ tail, ?_⟩
      simp only [Stream.head, append_assoc, drop_left]
    have hfirst : ∀ i < k, ¬At cmd.beginText (held ++ chunk) i := by
      intro i hi hati
      have hle := noise_le_of_at hframed hmarker hbytes hati
      omega
    have hdrop : (held ++ chunk).drop (k + cmd.beginText.length) = s.eol ++ 10 :: tail := by
      have hfront : (seen ++ held ++ chunk).drop (s.noise.length + cmd.beginText.length) =
          s.eol ++ 10 :: tail := by
        rw [← htail]
        simp only [Stream.head, append_assoc, ← drop_drop, drop_left]
        rfl
      rw [← hfront, hk, append_assoc, Nat.add_assoc, drop_length_add_append]
    refine hnl k hatk hfirst ?_
    rw [hdrop]
    exact mem_append_right _ mem_cons_self
  · intro more' j hj hatj
    rw [hwhole] at hatj
    by_cases hin : j < seen.length
    · refine h.free (chunk ++ more') j hin ?_
      rwa [← append_assoc]
    · obtain ⟨i, rfl⟩ := Nat.exists_eq_add_of_le (Nat.not_lt.mp hin)
      rw [length_append, length_take] at hj
      refine hfree more' i (by omega) ?_
      rw [append_assoc, append_assoc, ← append_assoc held, at_append_right] at hatj
      exact hatj

/-- A read that completes the BEGIN line: what is left is all that came behind it. -/
theorem Waits.begun {rest : List UInt8} (hbegun : cmd.begun = false)
    (hscan : cmd.scanBegin (held ++ chunk) = .begun rest) :
    s.head cmd ++ rest = seen ++ held ++ chunk := by
  obtain ⟨start, nl, hat, hfirst, hnl, rfl⟩ := scanBegin_begun hbegun hscan
  have hle := hat.le_length (beginText_ne_nil cmd)
  have hseen := h.seen_le hframed hmarker hbytes
  have hnoise := noise_le_of_at hframed hmarker hbytes hat
  -- It is the BEGIN text behind the noise, which is complete too.
  have hstart : s.noise.length = seen.length + start := by
    by_contra hne
    obtain ⟨k, hk⟩ := Nat.exists_eq_add_of_le hseen
    refine hfirst k (by omega) ?_
    rw [← at_append_right seen, ← hk, ← append_assoc, ← at_append_iff, hbytes]
    · exact (hframed.first_begin hmarker).1
    · rw [append_assoc, length_append]
      omega
  have hfront : (held ++ chunk).drop (start + cmd.beginText.length) <+:
      s.eol ++ 10 :: s.body cmd := by
    have hsplit : (s.bytes cmd).drop (s.noise.length + cmd.beginText.length) =
        s.eol ++ 10 :: s.body cmd := by
      simp only [Stream.bytes, Stream.head, append_assoc, ← drop_drop, drop_left]
      rfl
    rw [← hsplit, ← hbytes, hstart, Nat.add_assoc, append_assoc, append_assoc,
      drop_length_add_append, ← append_assoc, drop_append_of_le_length hle]
    exact prefix_append _ _
  have heol := findIdx?_eol hframed.eol hfront hnl
  have hlt := (List.findIdx?_eq_some_iff_getElem.mp hnl).1
  rw [length_drop] at hlt
  have hhead : (s.head cmd).length = seen.length + (start + cmd.beginText.length + nl + 1) := by
    simp only [Stream.head, length_append, length_cons, length_nil]
    omega
  have htake : (seen ++ (held ++ chunk)).take (s.head cmd).length = s.head cmd := by
    have hpre : seen ++ (held ++ chunk) <+: s.bytes cmd :=
      ⟨more, by rw [← hbytes, ← append_assoc seen]⟩
    rw [prefix_iff_eq_take.mp hpre, take_take, min_eq_left]
    · exact take_left
    · rw [hhead, length_append]
      omega
  have hdrop : (held ++ chunk).drop (start + cmd.beginText.length + nl + 1) =
      (seen ++ (held ++ chunk)).drop (s.head cmd).length := by
    rw [hhead, drop_length_add_append]
  rw [hdrop]
  nth_rewrite 1 [← htake]
  rw [take_append_drop, append_assoc]

end Waits

section Reads

variable {kept held chunk more : List UInt8} (h : Reads s cmd kept held)
  (hframed : s.Framed cmd) (hmarker : cmd.marker = markerOf id)
  (hbody : kept ++ held ++ chunk ++ more = s.body cmd)
include h hframed hmarker hbody

omit hmarker in
/-- A complete END marker has arrived as soon as all of it has. -/
theorem Reads.complete
    (hlong : (s.payload ++ s.endMarker cmd).length ≤ (kept ++ held ++ chunk).length) :
    ∃ i, kept.length + i = s.payload.length ∧
      EndAt cmd.endText (held ++ chunk) i (codeOf s.digits) := by
  obtain ⟨tail, htail⟩ : s.payload ++ s.endMarker cmd <+: kept ++ held ++ chunk := by
    refine prefix_of_prefix_length_le ?_ ⟨more, hbody⟩ hlong
    exact ⟨s.rest, append_assoc _ _ _⟩
  have hend : EndAt cmd.endText (kept ++ held ++ chunk) s.payload.length (codeOf s.digits) := by
    rw [← htail]
    refine ⟨⟨s.digits ++ endSuffix ++ tail, ?_⟩, ?_⟩
    · simp only [Stream.endMarker, append_assoc, drop_left]
    · simp only [Stream.endMarker, append_assoc, ← drop_drop, drop_left]
      rw [← append_assoc]
      exact endMarker_of_code hframed.digits tail
  have hkept : kept.length ≤ s.payload.length := by
    by_contra hlt
    exact h.free chunk s.payload.length _ (by omega) hend
  obtain ⟨i, hi⟩ := Nat.exists_eq_add_of_le hkept
  refine ⟨i, hi.symm, ?_⟩
  rw [← endAt_append_right kept, ← hi, ← append_assoc]
  exact hend

/-- A read that does not complete the END marker. -/
theorem Reads.goesOn {cmd₁ cmd' : TrackedCommand} {held' : List UInt8}
    (hcmd₁ : cmd₁.marker = cmd.marker) (hscan : cmd₁.scanEnd (held ++ chunk) = .more cmd' held') :
    ∃ kept', kept' ++ held' = kept ++ held ++ chunk ∧
      cmd' = cmd₁.keep (kept'.drop kept.length) ∧ kept <+: kept' ∧ Reads s cmd kept' held' := by
  have htext : cmd₁.endText = cmd.endText := by
    unfold endText
    rw [hcmd₁]
  obtain ⟨n, hn, rfl, rfl, hfree, hnone⟩ := scanEnd_more (hcmd₁.trans hmarker) hscan
  rw [htext] at hfree hnone
  have hwhole :
      kept ++ (held ++ chunk).take n ++ (held ++ chunk).drop n = kept ++ held ++ chunk := by
    rw [append_assoc, take_append_drop, append_assoc]
  refine ⟨kept ++ (held ++ chunk).take n, hwhole, by rw [drop_left], prefix_append _ _, ?_, ?_⟩
  · rw [hwhole]
    by_contra hlong
    obtain ⟨i, -, hend⟩ := h.complete hframed hbody (by omega)
    exact hnone i _ hend
  · intro more' j code hj hend
    rw [hwhole] at hend
    by_cases hin : j < kept.length
    · refine h.free (chunk ++ more') j code hin ?_
      rwa [← append_assoc]
    · obtain ⟨i, rfl⟩ := Nat.exists_eq_add_of_le (Nat.not_lt.mp hin)
      rw [length_append, length_take] at hj
      refine hfree more' i code (by omega) ?_
      rw [append_assoc, append_assoc, ← append_assoc held, endAt_append_right] at hend
      exact hend

/-- A read that completes the END marker: all of the payload is kept, and the code is read. -/
theorem Reads.exit {cmd₁ cmd' : TrackedCommand} {code : Nat} (hcmd₁ : cmd₁.marker = cmd.marker)
    (hscan : cmd₁.scanEnd (held ++ chunk) = .exit cmd' code) :
    (s.payload ++ s.endMarker cmd).length ≤ (kept ++ held ++ chunk).length ∧
      kept <+: s.payload ∧ cmd' = cmd₁.keep (s.payload.drop kept.length) ∧
      code = codeOf s.digits := by
  have htext : cmd₁.endText = cmd.endText := by
    unfold endText
    rw [hcmd₁]
  obtain ⟨n, rfl, hend, hfirst⟩ := scanEnd_exit (hcmd₁.trans hmarker) hscan
  rw [htext] at hend hfirst
  obtain ⟨hpayload, hbefore⟩ := hframed.first_end hmarker
  have hne := cmd.endText_ne_nil
  have hbody' : kept ++ (held ++ chunk) ++ more = s.body cmd := by
    rw [← hbody, append_assoc kept held]
  have hwhole : EndAt cmd.endText (s.body cmd) (kept.length + n) code := by
    rw [← hbody', append_assoc, endAt_append_right]
    exact hend.append hne more
  have hge : s.payload.length ≤ kept.length + n := by
    by_contra hlt
    exact hbefore _ code (by omega) hwhole
  have hlen := hend.at_text.le_length hne
  have hlong : 11 ≤ cmd.endText.length := by
    rw [endText_eq hmarker, length_cons, length_append]
    show 11 ≤ 10 + _ + 1
    omega
  have hcodes := hframed.digits.length_le
  have hmarkerLen : (s.payload ++ s.endMarker cmd).length =
      s.payload.length + (cmd.endText.length + (s.digits.length + 8)) := by
    simp only [Stream.endMarker, length_append]
    rfl
  have hG : (kept ++ held ++ chunk).length = kept.length + (held ++ chunk).length := by
    rw [append_assoc, length_append]
  -- A later END marker would leave the first one complete.
  have heq : s.payload.length = kept.length + n := by
    by_contra hne'
    have hfar : s.payload.length + cmd.endText.length ≤ kept.length + n := by
      by_contra hnear
      exact not_at_inside hmarker hpayload.at_text (by omega) (by omega) hwhole.at_text
    obtain ⟨i, hi, hendi⟩ := h.complete hframed hbody (by omega)
    exact hfirst i _ (by omega) hendi
  have hkept : kept ++ (held ++ chunk).take n = s.payload := by
    have htake : (s.body cmd).take (kept.length + n) = s.payload := by
      rw [← heq, Stream.body, take_left]
    have hle : n ≤ (held ++ chunk).length := by omega
    rw [← htake, ← hbody', append_assoc, take_length_add_append]
    exact congrArg (kept ++ ·) (take_append_of_le_length hle).symm
  have hcode : code = codeOf s.digits := by
    have hsame := hwhole.marker
    rw [← heq, hpayload.marker] at hsame
    cases hsame
    rfl
  refine ⟨?_, ⟨_, hkept⟩, by rw [← hkept, drop_left], hcode⟩
  -- The digits that were read are the digits of the marker.
  obtain ⟨digits, tail, hdigits, hrest, -⟩ := exists_code_of_exit hend.marker
  have hdrop : digits ++ endSuffix ++ tail ++ more = s.digits ++ endSuffix ++ s.rest := by
    have hbodyDrop : (s.body cmd).drop (s.payload.length + cmd.endText.length) =
        s.digits ++ endSuffix ++ s.rest := by
      simp only [Stream.body, Stream.endMarker, ← drop_drop, drop_left, append_assoc]
    rw [← hbodyDrop, ← hrest, ← hbody', heq, Nat.add_assoc, append_assoc,
      drop_length_add_append, drop_append_of_le_length hlen]
  have hsame : digits = s.digits := by
    have htake : ∀ (ds more : List UInt8), IsCode ds →
        (ds ++ (endSuffix ++ more)).takeWhile isAsciiDigit = ds := by
      intro ds more hds
      rw [takeWhile_append_of_pos hds.digit]
      exact append_nil _
    have hleft := htake digits (tail ++ more) hdigits
    have hright := htake s.digits s.rest hframed.digits
    simp only [append_assoc] at hdrop
    rw [hdrop] at hleft
    exact hleft.symm.trans hright
  have hdropLen := congrArg List.length hrest
  rw [length_drop] at hdropLen
  simp only [length_append, hsame] at hdropLen
  have hsuffix : endSuffix.length = 8 := rfl
  have hbuf : (held ++ chunk).length = held.length + chunk.length := length_append
  omega

end Reads

end Arrives

end Stream

namespace CommandEngine

section Feed

variable [Transcript]

/-- Feed a pane's output in pieces, each at its instant. -/
def feed (e : CommandEngine) (p : Uuid) :
    List (Nat × List UInt8) → CommandEngine × List (List CommandResult)
  | [] => (e, [])
  | (now, output) :: chunks =>
    let (e, completed) := e.processOutput now p output
    let (e, later) := feed e p chunks
    (e, completed :: later)

/-- How far the engine is with a command of which some bytes have arrived. -/
inductive Progress (s : Stream) (cmd : TrackedCommand) (e : CommandEngine) (arrived : List UInt8) :
    Prop where
  | waits (seen held : List UInt8) (hactive : e.active.get cmd.paneId = some cmd.id)
      (hcmd : e.commands.get cmd.id = some cmd)
      (hheld : (e.pending.get cmd.paneId).getD [] = held) (harrived : seen ++ held = arrived)
      (h : s.Waits cmd seen held)
  | reads (kept held : List UInt8) (hactive : e.active.get cmd.paneId = some cmd.id)
      (hcmd : e.commands.get cmd.id = some (keep { cmd with begun := true } kept))
      (hheld : (e.pending.get cmd.paneId).getD [] = held)
      (harrived : s.head cmd ++ (kept ++ held) = arrived) (h : s.Reads cmd kept held)

/-- What a command that was just registered completes with. -/
def resultOf (s : Stream) (cmd : TrackedCommand) (now : Nat) : CommandResult where
  commandId := cmd.id
  state := CommandState.completed.asStr
  exitCode := some (codeOf s.digits)
  stdout := Transcript.render (s.payload.take captureLimit)
  truncated := decide (captureLimit < s.payload.length)
  runtimeMs := runtimeMs cmd.startedAt now

/-- Up to the last byte of the END marker. -/
def upToEnd (s : Stream) (cmd : TrackedCommand) : List UInt8 :=
  s.head cmd ++ (s.payload ++ s.endMarker cmd)

/-- A command that was just registered. -/
structure Starts (cmd : TrackedCommand) : Prop where
  marker : cmd.marker = markerOf cmd.id
  state : cmd.state = .running
  begun : cmd.begun = false
  capture : cmd.capture = []
  truncated : cmd.truncated = false
  result : cmd.result = none

variable {s : Stream} {cmd : TrackedCommand} {e : CommandEngine} {arrived chunk more : List UInt8}

/-- What a read does that reaches the payload, in which some of it was kept before. -/
theorem processOutput_reads (hstarts : Starts cmd) (hframed : s.Framed cmd) (now : Nat)
    {kept held : List UInt8} (hactive : e.active.get cmd.paneId = some cmd.id)
    (h : s.Reads cmd kept held) (hbody : kept ++ held ++ chunk ++ more = s.body cmd) :
    let e₁ : CommandEngine := { e with pending := e.pending.remove cmd.paneId }
    let out : CommandEngine × List CommandResult :=
      match scanEnd (keep { cmd with begun := true } kept)
          (held ++ chunk) with
      | .more cmd' held' =>
        ({ e₁ with
            commands := e₁.commands.insert cmd.id cmd'
            pending := e₁.pending.insert cmd.paneId held' }, [])
      | .exit cmd' code =>
        let (e, result) := finish { e₁ with commands := e₁.commands.insert cmd.id cmd' } now cmd.id
          .completed (some code)
        (e.release cmd.id, result.toList)
    ((upToEnd s cmd).length ≤ (s.head cmd ++ (kept ++ held) ++ chunk).length ∧
        out.2 = [resultOf s cmd now] ∧ out.1.active.get cmd.paneId = none) ∨
      ((s.head cmd ++ (kept ++ held) ++ chunk).length < (upToEnd s cmd).length ∧ out.2 = [] ∧
        Progress s cmd out.1 (s.head cmd ++ (kept ++ held) ++ chunk)) := by
  intro e₁ out
  have hbase : (keep { cmd with begun := true } kept).marker = cmd.marker :=
    (sameFrame_keep _ _).marker
  have hlen : ∀ l : List UInt8, (s.head cmd ++ l).length = (s.head cmd).length + l.length :=
    fun l => length_append
  cases hscan : scanEnd (keep { cmd with begun := true } kept)
      (held ++ chunk) with
  | more cmd' held' =>
    right
    obtain ⟨kept', hkept', hcmd', ⟨added, hadded⟩, hreads⟩ :=
      h.goesOn hframed hstarts.marker hbody hbase hscan
    have hout : out = ({ e₁ with
        commands := e₁.commands.insert cmd.id cmd'
        pending := e₁.pending.insert cmd.paneId held' }, []) := by
      simp only [out, hscan]
    rw [hout]
    rw [append_assoc, ← hkept']
    refine ⟨?_, rfl, .reads kept' held' hactive ?_ ?_ rfl hreads⟩
    · rw [upToEnd, hlen, hlen]
      have hshort := hreads.short
      omega
    · show (e.commands.insert cmd.id cmd').get cmd.id = _
      rw [get_insert_self, hcmd', keep_keep, ← hadded, drop_left]
    · show ((e₁.pending.insert cmd.paneId held').get cmd.paneId).getD [] = held'
      rw [get_insert_self]
      rfl
  | exit cmd' code =>
    left
    obtain ⟨hlong, ⟨added, hadded⟩, hcmd', hcode⟩ := h.exit hframed hstarts.marker hbody hbase hscan
    have hkeep : cmd' = keep { cmd with begun := true } s.payload := by
      rw [hcmd', keep_keep, ← hadded, drop_left]
    have hcmd'' : cmd' = { cmd with
        begun := true
        capture := s.payload.take captureLimit
        truncated := decide (captureLimit < s.payload.length) } := by
      rw [hkeep]
      unfold keep
      simp [hstarts.result, hstarts.capture, hstarts.truncated]
    have hfinish : finish { e₁ with commands := e₁.commands.insert cmd.id cmd' } now cmd.id
        .completed (some code) = ({ e₁ with
          commands := (e₁.commands.insert cmd.id cmd').insert cmd.id { cmd' with
            state := .completed, capture := [], result := some (resultOf s cmd now),
            completionTx := false }
          sent := if cmd'.completionTx then e₁.sent ++ [resultOf s cmd now] else e₁.sent },
          some (resultOf s cmd now)) := by
      unfold finish
      dsimp only
      rw [get_insert_self]
      dsimp only
      rw [if_neg (by rw [hcmd'']; exact not_not.mpr hstarts.state), if_neg (fun hnot => hnot.1 rfl)]
      simp only [hcmd'', hcode, resultOf]
    have hout : out = ((finish { e₁ with commands := e₁.commands.insert cmd.id cmd' } now cmd.id
        .completed (some code)).1.release cmd.id, [resultOf s cmd now]) := by
      simp only [out, hscan, hfinish]
      rfl
    rw [hout, hfinish]
    refine ⟨?_, rfl, ?_⟩
    · rw [upToEnd, append_assoc, hlen, hlen]
      omega
    · have hpane : cmd'.paneId = cmd.paneId := by rw [hcmd'']
      unfold release
      dsimp only
      rw [get_insert_self]
      dsimp only
      rw [hpane, if_neg (not_not.mpr hactive)]
      show (e.active.remove cmd.paneId).get cmd.paneId = none
      rw [get_remove, if_pos rfl]

omit [Transcript] in
theorem Progress.length_lt (h : Progress s cmd e arrived) :
    arrived.length < (upToEnd s cmd).length := by
  have hend : (upToEnd s cmd).length =
      (s.head cmd).length + (s.payload ++ s.endMarker cmd).length := length_append
  cases h with
  | waits seen held hactive hcmd hheld harrived h =>
    have hshort := h.short
    rw [harrived] at hshort
    omega
  | reads kept held hactive hcmd hheld harrived h =>
    have hshort := h.short
    rw [← harrived, hend, length_append]
    omega

/-- One read: it completes the command exactly when it brings the end of the END marker. -/
theorem processOutput_progress (hstarts : Starts cmd) (hframed : s.Framed cmd)
    (h : Progress s cmd e arrived) (hbytes : arrived ++ chunk ++ more = s.bytes cmd) (now : Nat) :
    ((upToEnd s cmd).length ≤ (arrived ++ chunk).length ∧
        (e.processOutput now cmd.paneId chunk).2 = [resultOf s cmd now] ∧
        (e.processOutput now cmd.paneId chunk).1.active.get cmd.paneId = none) ∨
      ((arrived ++ chunk).length < (upToEnd s cmd).length ∧
        (e.processOutput now cmd.paneId chunk).2 = [] ∧
        Progress s cmd (e.processOutput now cmd.paneId chunk).1 (arrived ++ chunk)) := by
  cases h with
  | waits seen held hactive hcmd hheld harrived h =>
    subst harrived
    unfold processOutput
    rw [hactive]
    dsimp only
    rw [hcmd, hheld]
    dsimp only
    cases hscan : cmd.scanBegin (held ++ chunk) with
    | waiting held' =>
      right
      obtain ⟨seen', hseen', hwaits⟩ := h.waiting hframed hstarts.marker hbytes hscan
      have hprogress : Progress s cmd
          { e with pending := (e.pending.remove cmd.paneId).insert cmd.paneId held' }
          (seen ++ held ++ chunk) := by
        refine .waits seen' held' hactive hcmd ?_ hseen' hwaits
        show (((e.pending.remove cmd.paneId).insert cmd.paneId held').get cmd.paneId).getD [] = _
        rw [get_insert_self]
        rfl
      exact ⟨hprogress.length_lt, rfl, hprogress⟩
    | begun rest =>
      have harrived := h.begun hframed hstarts.marker hbytes hstarts.begun hscan
      have hreads : s.Reads cmd [] [] := by
        refine ⟨?_, nofun⟩
        have hpos := length_pos_iff.mpr cmd.endText_ne_nil
        simp only [Stream.endMarker, length_append, length_nil]
        omega
      have hbody : [] ++ [] ++ rest ++ more = s.body cmd := by
        rw [← harrived, append_assoc] at hbytes
        exact append_cancel_left hbytes
      have hkeep : keep { cmd with begun := true } [] =
          { cmd with begun := true } := by
        unfold keep
        simp
      have hread := processOutput_reads hstarts hframed now hactive hreads hbody
      rw [hkeep, nil_append, nil_append, append_nil, harrived] at hread
      exact hread
  | reads kept held hactive hcmd hheld harrived h =>
    subst harrived
    have hbody : kept ++ held ++ chunk ++ more = s.body cmd := by
      rw [append_assoc, append_assoc] at hbytes
      rw [append_assoc]
      exact append_cancel_left hbytes
    have hbegun : keep { cmd with begun := true } kept =
        { keep { cmd with begun := true } kept with begun := true } := by
      unfold keep
      split <;> rfl
    have hread := processOutput_reads hstarts hframed now hactive h hbody
    unfold processOutput
    rw [hactive]
    dsimp only
    rw [hcmd, hheld]
    dsimp only
    have hscan : (keep { cmd with begun := true } kept).scanBegin
        (held ++ chunk) = .begun (held ++ chunk) := by
      unfold scanBegin
      rw [hbegun]
      rfl
    rw [hscan]
    dsimp only
    rw [← hbegun]
    exact hread

/-- Output of a pane with no command. -/
theorem feed_idle (p : Uuid) (hidle : e.active.get p = none) (chunks : List (Nat × List UInt8)) :
    (e.feed p chunks).2 = List.replicate chunks.length [] := by
  induction chunks with
  | nil => rfl
  | cons chunk chunks ih =>
    obtain ⟨now, output⟩ := chunk
    have hnone : e.processOutput now p output = (e, []) := by
      unfold processOutput
      rw [hidle]
    unfold feed
    rw [hnone]
    dsimp only
    rw [ih]
    rfl

/-- The reads that bring a stream: all but one say nothing, and the one that brings the end of
the END marker completes the command. -/
theorem feed_progress (hstarts : Starts cmd) (hframed : s.Framed cmd)
    (h : Progress s cmd e arrived) {chunks : List (Nat × List UInt8)}
    (hbytes : arrived ++ (chunks.map Prod.snd).flatten = s.bytes cmd) :
    ∃ before now output after, chunks = before ++ (now, output) :: after ∧
      (arrived ++ (before.map Prod.snd).flatten).length < (upToEnd s cmd).length ∧
      (upToEnd s cmd).length ≤ (arrived ++ (before.map Prod.snd).flatten ++ output).length ∧
      (e.feed cmd.paneId chunks).2 =
        List.replicate before.length [] ++ [resultOf s cmd now] ::
          List.replicate after.length [] := by
  induction chunks generalizing e arrived with
  | nil =>
    -- The stream is longer than what has arrived.
    exfalso
    have hlt := h.length_lt
    rw [map_nil, flatten_nil, append_nil] at hbytes
    rw [hbytes] at hlt
    simp only [upToEnd, Stream.bytes, Stream.body, length_append] at hlt
    omega
  | cons chunk chunks ih =>
    obtain ⟨now, output⟩ := chunk
    rw [map_cons, flatten_cons, ← append_assoc] at hbytes
    obtain ⟨hlong, hout, hidle⟩ | ⟨hshort, hout, hprogress⟩ :=
      processOutput_progress hstarts hframed h hbytes now
    · refine ⟨[], now, output, chunks, rfl, ?_, ?_, ?_⟩
      · rw [map_nil, flatten_nil, append_nil]
        exact h.length_lt
      · rw [map_nil, flatten_nil, append_nil]
        exact hlong
      · unfold feed
        dsimp only
        rw [hout, feed_idle cmd.paneId hidle]
        rfl
    · obtain ⟨before, now', output', after, rfl, hlt, hle, hfeed⟩ := ih hprogress hbytes
      refine ⟨(now, output) :: before, now', output', after, rfl, ?_, ?_, ?_⟩
      · rw [map_cons, flatten_cons, ← append_assoc]
        exact hlt
      · rw [map_cons, flatten_cons, ← append_assoc]
        exact hle
      · unfold feed
        dsimp only
        rw [hout, hfeed]
        rfl

/-- A command registered in an idle pane, at any point of a run, whose stream arrives cut in
any way: one completion, at the read that brings the last byte of the END marker, with the code
that stands there and with the payload, up to the limit, as what was captured. -/
theorem feed_framed (ops : List Op) (hfresh : (registered ops).Nodup) (started : Nat) (p : Uuid)
    (prepared : PreparedCommand) (timeout : Nat) (completionTx : Bool)
    (hidle : (new.run ops).active.get p = none) (s : Stream)
    (hframed : s.Framed (prepared.track started p timeout completionTx))
    (chunks : List (Nat × List UInt8))
    (hbytes : (chunks.map Prod.snd).flatten =
      s.bytes (prepared.track started p timeout completionTx)) :
    let cmd := prepared.track started p timeout completionTx
    let e := ((new.run ops).register started p prepared timeout completionTx).1
    ∃ before now output after, chunks = before ++ (now, output) :: after ∧
      (before.map Prod.snd).flatten.length < (upToEnd s cmd).length ∧
      (upToEnd s cmd).length ≤ ((before.map Prod.snd).flatten ++ output).length ∧
      (e.feed p chunks).2 =
        List.replicate before.length [] ++ [resultOf s cmd now] ::
          List.replicate after.length [] := by
  intro cmd e
  obtain ⟨htidy, -⟩ := run_new_keep hfresh
  have hstarts : Starts cmd := ⟨prepared.marker_eq, rfl, rfl, rfl, rfl, rfl⟩
  have he : e = { new.run ops with
      commands := (new.run ops).commands.insert prepared.id cmd
      active := (new.run ops).active.insert p prepared.id } := by
    simp only [e, register, hidle, cmd]
  -- An idle pane has no bytes held back.
  have hpending : (new.run ops).pending.get p = none := by
    rw [Option.eq_none_iff_forall_ne_some]
    intro held hheld
    obtain ⟨id, hid⟩ := htidy.pending p held hheld
    rw [hidle] at hid
    cases hid
  have hprogress : Progress s cmd e [] := by
    refine .waits [] [] ?_ ?_ ?_ rfl ⟨?_, by simp⟩
    · rw [he]
      exact get_insert_self _ _ _
    · rw [he]
      exact get_insert_self _ _ _
    · rw [he]
      show ((new.run ops).pending.get p).getD [] = []
      rw [hpending]
      rfl
    · have hpos := length_pos_iff.mpr (beginText_ne_nil cmd)
      simp only [Stream.head, length_append, length_nil]
      omega
  exact feed_progress hstarts hframed hprogress hbytes

end Feed

namespace Sample

/-- A command that prints two letters, typed at a prompt. -/
def stream : Stream where
  noise := asciiBytes "$ ls".toList
  eol := [13]
  payload := asciiBytes "hi".toList
  digits := asciiBytes "10".toList
  rest := asciiBytes "$".toList

def command : PreparedCommand := prepare ⟨7⟩ "ls".toList []

theorem length_endText_sample : (command.track 0 ⟨1⟩ 9 true).endText.length = 60 := by
  with_unfolding_all decide

theorem stream_framed : stream.Framed (command.track 0 ⟨1⟩ 9 true) where
  noise := by with_unfolding_all decide
  eol := by decide
  payload := by
    intro digits _ hinf
    have hle := hinf.length_le
    rw [length_append, length_append] at hle
    have hlong := length_endText_sample
    have hshort : stream.payload.length = 2 := rfl
    omega
  digits := ⟨by decide, by decide, all_eq_true.mp (by decide)⟩

/-- Two reads, cut inside the END marker: the second one completes the command. -/
theorem feed_framed_cut :
    let cmd := command.track 0 ⟨1⟩ 9 true
    let e := (new.register 0 ⟨1⟩ command 9 true).1
    ∃ before now output after,
      [(1, (stream.bytes cmd).take 110), (2, (stream.bytes cmd).drop 110)] =
        before ++ (now, output) :: after ∧
      (before.map Prod.snd).flatten.length < (upToEnd stream cmd).length ∧
      (upToEnd stream cmd).length ≤ ((before.map Prod.snd).flatten ++ output).length ∧
      (e.feed ⟨1⟩ [(1, (stream.bytes cmd).take 110), (2, (stream.bytes cmd).drop 110)]).2 =
        List.replicate before.length [] ++ [resultOf stream cmd now] ::
          List.replicate after.length [] :=
  feed_framed [] .nil 0 ⟨1⟩ command 9 true rfl stream stream_framed _ (by
    rw [map_cons, map_cons, map_nil, flatten_cons, flatten_cons,
      flatten_nil, append_nil, take_append_drop])

end Sample

end CommandEngine

end Shux.Pty
