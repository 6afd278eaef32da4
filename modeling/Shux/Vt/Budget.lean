/-
# The reply budget

Replies of a batch are queued from three places. The handler and the program status ask for
room in the budget first; a graphics query is answered whether there is room or not. A batch
stays within the budget exactly when each of its graphics queries finds room.
-/

import Shux.Vt.Geometry

namespace Shux.Vt

open Checked List

namespace Terminal

open Handler

variable {t u t₁ : Terminal}
variable {c : Call} {calls : List Call}

theorem responses_freezeForSwitch (t : Terminal) : t.freezeForSwitch.responses = t.responses := by
  rw [freezeForSwitch, freezeForSwap, freezeAltFlag_eq, freeze_eq]

theorem responses_entered (t : Terminal) (parks : Bool) :
    (t.entered parks).responses = t.responses := by
  rw [entered, swapEnter_eq]

theorem responses_left {primary : Grid} (hprimary : t.altGrid = some primary) (parks : Bool) :
    (t.left parks).responses = t.responses := by
  rw [left, swapLeave_eq hprimary]

theorem responses_releaseSyncPresentation (t : Terminal) :
    t.releaseSyncPresentation.responses = t.responses := rfl

theorem responses_setSynchronizedOutput (t : Terminal) (enable : Bool) :
    (t.setSynchronizedOutput enable).responses = t.responses := by
  unfold setSynchronizedOutput
  cases enable with
  | false =>
    show ((t.setSyncMode false).releaseSyncPresentation).responses = t.responses
    rw [responses_releaseSyncPresentation]
    rfl
  | true =>
    rw [if_pos rfl]
    split
    · rfl
    · dsimp only
      split
      · unfold freezeWholePresentation
        rw [freezeAltFlag_eq, freeze_eq]
        rfl
      · rfl

theorem Ok.responses_rewind (h : t.Ok) : t.rewind.responses = t.responses := by
  unfold Terminal.rewind
  dsimp only
  split
  · next halt =>
    obtain ⟨primary, hprimary⟩ := h.releaseSyncPresentation.exists_parked halt
    rw [responses_left hprimary, responses_releaseSyncPresentation]
  · exact responses_releaseSyncPresentation t

theorem responses_recordBatch (before after : Terminal) :
    (recordBatch before after).responses = after.responses := by
  unfold recordBatch
  dsimp only
  split
  · split
    · split <;> rfl
    · split <;> rfl
  · split <;> rfl

theorem responses_stampSync (t : Terminal) (len now : Nat) :
    (t.stampSync len now).responses = t.responses := by
  unfold stampSync
  split <;> rfl

/-- Whatever a call is made of queues its replies within the budget. -/
theorem echoes_replied (base : List String) :
    Echoes (fun _ => True) fun t u => u = t ∧ t.Ok ∧ Replied base t.responses where
  same h := by
    obtain ⟨rfl, -⟩ := h
    exact ⟨rfl, rfl⟩
  ok h := h.2.1.screen
  balanced h := h.2.1.balanced
  parked h := by
    obtain ⟨rfl, h, -⟩ := h
    exact ⟨h.parked, h.parked⟩
  commit h hadv := by
    obtain ⟨rfl, h, hreplied⟩ := h
    exact ⟨rfl, h.commit hadv.toAdvances, hreplied.trans hadv.replies⟩
  sink h hsink := by
    obtain ⟨rfl, h, hreplied⟩ := h
    exact ⟨rfl, h.sink hsink, hreplied⟩
  enter {t u} parks _ _ h := by
    obtain ⟨rfl, h, hreplied⟩ := h
    refine ⟨rfl, (h.freeze _).freezeAltFlag.entered parks, ?_⟩
    rwa [responses_entered, responses_freezeForSwitch]
  leave {t u} parks _ halt h := by
    obtain ⟨rfl, h, hreplied⟩ := h
    have hok : u.freezeForSwitch.Ok := (h.freeze _).freezeAltFlag
    have halt' := u.alternate_freezeForSwitch.trans halt
    obtain ⟨primary, hprimary⟩ := hok.exists_parked halt'
    refine ⟨rfl, hok.left halt' parks, ?_⟩
    rwa [responses_left hprimary, responses_freezeForSwitch]
  hold _ h := by
    obtain ⟨rfl, h, hreplied⟩ := h
    exact ⟨rfl, h.hold, by rwa [responses_setSynchronizedOutput]⟩
  release _ h := by
    obtain ⟨rfl, h, hreplied⟩ := h
    exact ⟨rfl, h.release, by rwa [responses_setSynchronizedOutput]⟩
  rewind _ h := by
    obtain ⟨rfl, h, hreplied⟩ := h
    exact ⟨rfl, h.rewind, by rwa [h.responses_rewind]⟩

variable [Crates]

/-- A call queues its replies within the budget, unless it is a graphics query. -/
theorem Ok.call_replied (h : t.Ok) (hc : c.asks = false) :
    Runs (t.call c) fun t' => t'.Ok ∧ Replied t.responses t'.responses := by
  have hcall := (echoes_replied t.responses).call ⟨rfl, h, .refl _⟩ c hc fun _ _ => trivial
  refine hcall.left.mono ?_
  rintro t' ⟨_, -, -, hok, hreplied⟩
  exact ⟨hok, hreplied⟩

/-- A graphics query is answered. -/
theorem Ok.call_asks (h : t.Ok) (hc : c.asks = true) :
    Runs (t.call c) fun t' => t'.Ok ∧ ∃ reply, t'.responses = t.responses ++ [reply] := by
  cases c with
  | graphics cmd payload =>
    obtain ⟨cmd, rfl, haction, hid⟩ := Call.asks_iff.mp hc
    have hanswer := preserves_ok.mirrors.answer (t := t) ⟨rfl, h⟩
      ("\x1b_Gi=" ++ toString cmd.imageId ++ ";OK\x1b\\")
    refine ⟨_, ?_, hanswer.2, _, rfl⟩
    show t.dispatchGraphics (some cmd) payload = _
    unfold dispatchGraphics
    dsimp only
    rw [haction]
    dsimp only
    rw [if_neg hid]
    rfl
  | _ => cases hc

/-- Each graphics query of a batch comes while there is room in the budget. -/
def FindsRoom (t : Terminal) (calls : List Call) : Prop :=
  ∀ before call after mid, calls = before ++ call :: after → call.asks = true →
    each before t Terminal.call = some mid → mid.responses.length < maxResponsesPerBatch

theorem each_cons (hcall : t.call c = some t₁) :
    each (c :: calls) t Terminal.call = each calls t₁ Terminal.call := by
  unfold each
  rw [foldlM_cons, hcall]
  rfl

theorem findsRoom_cons (hcall : t.call c = some t₁) :
    FindsRoom t (c :: calls) ↔
      (c.asks = true → t.responses.length < maxResponsesPerBatch) ∧ FindsRoom t₁ calls := by
  constructor
  · intro h
    refine ⟨fun hc => h [] c calls t rfl hc rfl, ?_⟩
    rintro before call after mid rfl hasks hmid
    exact h (c :: before) call after mid rfl hasks ((each_cons hcall).trans hmid)
  · rintro ⟨hfirst, hrest⟩ before call after mid hsplit hasks hmid
    cases before with
    | nil =>
      cases hsplit
      cases hmid
      exact hfirst hasks
    | cons c' before =>
      cases hsplit
      exact hrest before call after mid rfl hasks ((each_cons hcall).symm.trans hmid)

/-- A batch queues replies behind those there are, within the budget exactly when each
graphics query finds room. -/
theorem Ok.calls_replied (h : t.Ok) (calls : List Call) :
    Runs (each calls t Terminal.call) fun t' => t.responses <+: t'.responses ∧
      (t.responses.length ≤ maxResponsesPerBatch →
        (t'.responses.length ≤ maxResponsesPerBatch ↔ FindsRoom t calls)) := by
  induction calls generalizing t with
  | nil =>
    refine .pure ⟨prefix_refl _, fun hlen => ⟨fun _ => ?_, fun _ => hlen⟩⟩
    intro before call after mid hsplit
    exact absurd hsplit (by simp)
  | cons c calls ih =>
    cases hc : c.asks with
    | false =>
      obtain ⟨t₁, hcall, hok, hreplied⟩ := h.call_replied hc
      rw [each_cons hcall]
      refine (ih hok).mono fun t' hrest => ⟨hreplied.queued.trans hrest.1, fun hlen => ?_⟩
      have hbudget := hreplied.budget
      rw [hrest.2 (by omega), findsRoom_cons hcall]
      exact ⟨fun hroom => ⟨fun hasks => absurd (hc.symm.trans hasks) Bool.false_ne_true, hroom⟩,
        fun hroom => hroom.2⟩
    | true =>
      obtain ⟨t₁, hcall, hok, reply, hreply⟩ := h.call_asks hc
      have hgrown : t₁.responses.length = t.responses.length + 1 := by
        rw [hreply, length_append, length_singleton]
      rw [each_cons hcall]
      refine (ih hok).mono fun t' hrest => ?_
      refine ⟨(hreply ▸ prefix_append _ _).trans hrest.1, fun hlen => ?_⟩
      rw [findsRoom_cons hcall]
      by_cases hroom : t.responses.length < maxResponsesPerBatch
      · rw [hrest.2 (by omega)]
        exact ⟨fun hlater => ⟨fun _ => hroom, hlater⟩, fun hlater => hlater.2⟩
      · -- past the budget there is no way back
        have hlonger := hrest.1.length_le
        exact ⟨fun hshort => absurd hshort (by omega), fun hlater => absurd (hlater.1 hc) hroom⟩

/-- From every state a terminal can be in, a batch returns no more replies than the budget
exactly when each of its graphics queries finds room. -/
theorem run_replies (rows cols : Nat) (config : GridConfig) (events : List Event) (len now : Nat)
    (calls : List Call) :
    ∃ t, (withConfig rows cols config).run events = some t ∧
      ∃ t' replies, t.processWithResponses len now calls = some (t', replies) ∧
        (replies.length ≤ maxResponsesPerBatch ↔
          FindsRoom { t.releaseOverfull with responses := [] } calls) := by
  obtain ⟨t, hrun, hok⟩ := (ok_withConfig rows cols config).run events
  obtain ⟨after, hafter, -, hreplies⟩ := hok.releaseOverfull.clearResponses.calls_replied calls
  refine ⟨t, hrun, (recordBatch t.releaseOverfull after).stampSync len now, after.responses, ?_,
    hreplies (Nat.zero_le _)⟩
  unfold processWithResponses
  dsimp only
  rw [hafter]
  show some (_, ((recordBatch t.releaseOverfull after).stampSync len now).responses) = _
  rw [responses_stampSync, responses_recordBatch]

/-- Graphics queries are all answered. -/
theorem Ok.calls_asks (h : t.Ok) (hasks : ∀ c ∈ calls, c.asks = true) :
    Runs (each calls t Terminal.call) fun t' =>
      t'.responses.length = t.responses.length + calls.length := by
  induction calls generalizing t with
  | nil => exact .pure rfl
  | cons c calls ih =>
    obtain ⟨t₁, hcall, hok, reply, hreply⟩ := h.call_asks (hasks c mem_cons_self)
    rw [each_cons hcall]
    refine (ih hok fun c hc => hasks c (mem_cons_of_mem _ hc)).mono fun t' hlen => ?_
    rw [hlen, hreply, length_append, length_singleton, length_cons]
    omega

/-- A query for an image, of thirteen bytes. -/
def probe : Call := .graphics (some { Command.default with action := .query, imageId := 1 }) []

omit [Crates] in
/-- A batch of one query more than the budget is answered in full. -/
theorem replies_probes : ∃ t' replies, @processWithResponses plainCrates (withConfig 1 1 .default)
        (13 * (maxResponsesPerBatch + 1)) 0 (replicate (maxResponsesPerBatch + 1) probe) =
        some (t', replies) ∧ ¬replies.length ≤ maxResponsesPerBatch := by
  have hok : ({ (withConfig 1 1 .default).releaseOverfull with responses := [] } : Terminal).Ok :=
    (ok_withConfig 1 1 .default).releaseOverfull.clearResponses
  obtain ⟨after, hafter, hlen⟩ := @Ok.calls_asks _
    (replicate (maxResponsesPerBatch + 1) probe) plainCrates hok fun c hc =>
      eq_of_mem_replicate hc ▸ rfl
  rw [length_replicate] at hlen
  refine ⟨(recordBatch (withConfig 1 1 .default).releaseOverfull after).stampSync
    (13 * (maxResponsesPerBatch + 1)) 0, after.responses, ?_, ?_⟩
  · unfold processWithResponses
    dsimp only
    rw [hafter]
    show some (_, ((recordBatch (withConfig 1 1 .default).releaseOverfull after).stampSync
      (13 * (maxResponsesPerBatch + 1)) 0).responses) = _
    rw [responses_stampSync, responses_recordBatch]
  · rw [hlen]
    show ¬0 + (maxResponsesPerBatch + 1) ≤ maxResponsesPerBatch
    omega

end Terminal

end Shux.Vt
