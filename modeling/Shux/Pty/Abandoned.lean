/-
# Commands that end another way

A command may run out of time, be cancelled, or lose its pane between two reads of its stream.
Its output is then what was kept of the payload and what was held back in case it began the END
marker, up to an END prefix in it. While only a part of that prefix has been read, that part
counts as output: it is the start of no marker yet. Before the prefix begins, once it has been
read whole, and where the limit of what is kept cuts it off, the output is the payload's.
-/

import Shux.Pty.Framing

namespace Shux.Pty

open Search List FinMap

/-- What a command's result is made of when it ends other than by its END marker. -/
def TrackedCommand.frozen (cmd : TrackedCommand) (held : List UInt8) : List UInt8 :=
  if cmd.begun = true then
    (cmd.keep (held.take ((find held cmd.endText).getD held.length))).capture
  else cmd.capture

/-- What is kept as output of a stream of which so many bytes have arrived. -/
def Stream.kept (s : Stream) (cmd : TrackedCommand) (arrived : Nat) : List UInt8 :=
  (if arrived < (s.head cmd ++ (s.payload ++ cmd.endText)).length then
    (s.body cmd).take (arrived - (s.head cmd).length)
  else s.payload).take captureLimit

namespace CommandEngine

/-- How a command ends when its END marker does not come. -/
inductive Ending where
  | timeout (now : Nat) (listing : Listing)
  | cancel (now : Nat)
  | forget (now : Nat)

namespace Ending

/-- A timeout comes when the command's time is over. -/
def Due (cmd : TrackedCommand) : Ending → Prop
  | timeout now _ => cmd.timeout ≤ now - cmd.startedAt
  | cancel _ => True
  | forget _ => True

def op (cmd : TrackedCommand) : Ending → Op
  | timeout now listing => .checkTimeouts now listing
  | cancel now => .cancelCommand now cmd.id
  | forget now => .forgetPane now cmd.paneId

end Ending

section Result

variable [Transcript] {e : CommandEngine} {id : Uuid} {cmd : TrackedCommand}
variable {captured : List UInt8}

/-- A command that ended with a result of a captured text. -/
def EndsWith (e : CommandEngine) (id : Uuid) (captured : List UInt8) : Prop :=
  ∃ cmd r, e.commands.get id = some cmd ∧ cmd.state ≠ .running ∧ cmd.result = some r ∧
    r.stdout = Transcript.render captured

/-- A command that ends has the result of what was frozen. -/
theorem finish_frozen (hcmd : e.commands.get id = some cmd) (hrunning : cmd.state = .running)
    (now : Nat) (state : CommandState) (hstate : state ≠ .completed) (hended : state ≠ .running) :
    (e.finish now id state none).1.EndsWith id
      (cmd.frozen ((e.pending.get cmd.paneId).getD [])) := by
  unfold finish
  rw [hcmd]
  dsimp only
  rw [if_neg (not_not.mpr hrunning)]
  refine ⟨_, _, get_insert_self _ _ _, hended, rfl, congrArg Transcript.render ?_⟩
  unfold TrackedCommand.frozen
  by_cases hbegun : cmd.begun = true
  · rw [if_pos ⟨hstate, hbegun⟩, if_pos hbegun]
  · rw [if_neg (fun h => hbegun h.2), if_neg hbegun]

omit [Transcript] in
/-- A command that was not among the finished ones is not the oldest of them. -/
theorem get_release (hnew : id ∉ e.finished) :
    (e.release id).commands.get id = e.commands.get id := by
  unfold release
  cases hcmd : e.commands.get id with
  | none => exact hcmd
  | some cmd =>
    dsimp only
    by_cases hactive : e.active.get cmd.paneId ≠ some id
    · rw [if_pos hactive]
      exact hcmd
    · rw [if_neg hactive]
      unfold evict
      dsimp only
      rw [get_removeAll, if_neg, hcmd]
      intro hmem
      rw [length_append, length_singleton, take_append_of_le_length] at hmem
      · exact hnew (mem_of_mem_take hmem)
      · have hpos : 0 < keepFinished := by decide
        omega

theorem finished_finish (e : CommandEngine) (now : Nat) (id : Uuid) (state : CommandState)
    (exitCode : Option Nat) : (e.finish now id state exitCode).1.finished = e.finished := by
  unfold finish
  split
  · rfl
  · split
    · rfl
    · rfl

theorem EndsWith.release (h : e.EndsWith id captured)
    (hnew : id ∉ e.finished) : (e.release id).EndsWith id captured := by
  obtain ⟨cmd', r, hcmd', h⟩ := h
  exact ⟨cmd', r, (get_release hnew).trans hcmd', h⟩

/-- A command that has its result is left alone, and so are the others. -/
theorem timeOut_other (now : Nat) (k : Uuid) (hcmd : e.commands.get id = some cmd)
    (h : k ≠ id ∨ cmd.state ≠ .running) : (e.timeOut now k).1.commands.get id = some cmd := by
  unfold timeOut
  cases hk : e.commands.get k with
  | none => exact hcmd
  | some other =>
    dsimp only
    unfold finish
    rw [hk]
    dsimp only
    by_cases hstate : other.state ≠ .running
    · rw [if_pos hstate]
      exact hcmd
    · rw [if_neg hstate]
      show (e.commands.insert k _).get id = some cmd
      rw [get_insert, if_neg, hcmd]
      rintro rfl
      rw [hcmd] at hk
      obtain rfl := Option.some.inj hk
      exact hstate (h.resolve_left fun h => h rfl)

theorem timeOut_pending (e : CommandEngine) (now : Nat) (k : Uuid) :
    (e.timeOut now k).1.pending = e.pending := by
  unfold timeOut
  cases e.commands.get k with
  | none => rfl
  | some other =>
    dsimp only
    unfold finish
    split
    · rfl
    · split
      · rfl
      · rfl

/-- The loop over the commands that are due. -/
def timeOuts (e : CommandEngine) (now : Nat) (ids : List Uuid) : CommandEngine :=
  ids.foldl (fun e id => (e.timeOut now id).1) e

theorem checkTimeouts_eq (e : CommandEngine) (now : Nat) (listing : Listing) :
    (e.checkTimeouts now listing).1 = e.timeOuts now (listing.order (e.due now)) := by
  have hloop : ∀ (ids : List Uuid) (e : CommandEngine) (out : List (Uuid × CommandResult)),
      (ids.foldl (fun s id =>
        ((s.1.timeOut now id).1, s.2 ++ (s.1.timeOut now id).2.toList)) (e, out)).1 =
          e.timeOuts now ids := by
    intro ids
    induction ids with
    | nil => exact fun _ _ => rfl
    | cons id ids ih => exact fun e out => ih _ _
  exact hloop _ e []

theorem EndsWith.timeOuts (h : e.EndsWith id captured) (now : Nat)
    (ids : List Uuid) : (e.timeOuts now ids).EndsWith id captured := by
  induction ids generalizing e with
  | nil => exact h
  | cons k ids ih =>
    obtain ⟨cmd', r, hcmd', hstate, h⟩ := h
    exact ih ⟨cmd', r, timeOut_other now k hcmd' (.inr hstate), hstate, h⟩

theorem timeOuts_frozen (now : Nat) {ids : List Uuid} (hmem : id ∈ ids)
    (hcmd : e.commands.get id = some cmd) (hrunning : cmd.state = .running) :
    (e.timeOuts now ids).EndsWith id
      (cmd.frozen ((e.pending.get cmd.paneId).getD [])) := by
  induction ids generalizing e with
  | nil => cases hmem
  | cons k ids ih =>
    by_cases hk : k = id
    · subst hk
      have hended := finish_frozen hcmd hrunning now .timedOut (by decide) (by decide)
      have htimeOut : (e.timeOut now k).1 = (e.finish now k .timedOut none).1 := by
        unfold timeOut
        rw [hcmd]
      rw [← htimeOut] at hended
      exact hended.timeOuts now ids
    · rw [← timeOut_pending e now k]
      exact ih ((mem_cons.mp hmem).resolve_left fun h => hk h.symm)
        (timeOut_other now k hcmd (.inl hk))

/-- Whichever way a running command ends, its result is of what was frozen. -/
theorem step_frozen (htidy : Tidy e) (hid : cmd.id = id) (hcmd : e.commands.get id = some cmd)
    (hactive : e.active.get cmd.paneId = some id) (hrunning : cmd.state = .running)
    {ending : Ending} (hdue : ending.Due cmd) :
    (e.step (ending.op cmd)).EndsWith id
      (cmd.frozen ((e.pending.get cmd.paneId).getD [])) := by
  subst hid
  have hnew : cmd.id ∉ e.finished := by
    intro hmem
    obtain ⟨cmd', hcmd', hresult, -⟩ := htidy.finished cmd.id hmem
    rw [hcmd] at hcmd'
    obtain rfl := Option.some.inj hcmd'
    rw [(htidy.running cmd.id cmd hcmd).mp hrunning] at hresult
    cases hresult
  cases ending with
  | timeout now listing =>
    show (e.checkTimeouts now listing).1.EndsWith cmd.id _
    rw [checkTimeouts_eq]
    refine timeOuts_frozen now ((listing.perm _).mem_iff.mpr ?_) hcmd hrunning
    refine mem_map.mpr ⟨cmd, mem_filter.mpr ⟨?_, decide_eq_true ⟨hrunning, hdue⟩⟩, rfl⟩
    exact (mem_values_iff _ _).mpr ⟨cmd.id, hcmd⟩
  | cancel now =>
    show (e.cancelCommand now cmd.id).1.EndsWith cmd.id _
    unfold cancelCommand
    rw [hcmd]
    dsimp only
    rw [if_neg (not_not.mpr hactive)]
    refine (finish_frozen hcmd hrunning now _ (by decide) (by decide)).release ?_
    rw [finished_finish]
    exact hnew
  | forget now =>
    show (e.forgetPane now cmd.paneId).EndsWith cmd.id _
    unfold forgetPane
    rw [hactive]
    have hended := (finish_frozen hcmd hrunning now .paneGone (by decide)
      (by decide)).release (by rw [finished_finish]; exact hnew)
    exact hended

theorem finish_result {now : Nat} {state : CommandState} {exitCode : Option Nat}
    (hended : state ≠ .running) {r : CommandResult}
    (h : (e.finish now id state exitCode).2 = some r) :
    ∃ cmd, (e.finish now id state exitCode).1.commands.get id = some cmd ∧
      cmd.state ≠ .running ∧ cmd.result = some r := by
  unfold finish at h ⊢
  cases hcmd : e.commands.get id with
  | none =>
    rw [hcmd] at h
    cases h
  | some cmd =>
    rw [hcmd] at h
    dsimp only at h ⊢
    by_cases hstate : cmd.state ≠ .running
    · rw [if_pos hstate] at h
      cases h
    · rw [if_neg hstate] at h ⊢
      obtain rfl := Option.some.inj h
      exact ⟨_, get_insert_self _ _ _, hended, rfl⟩

/-- A read that completes a command leaves it with its result. -/
theorem processOutput_completed (htidy : Tidy e) {p : Uuid} (hactive : e.active.get p = some id)
    {now : Nat} {output : List UInt8} {r : CommandResult} (captured : List UInt8)
    (h : (e.processOutput now p output).2 = [r]) (hr : r.stdout = Transcript.render captured) :
    (e.processOutput now p output).1.EndsWith id captured := by
  obtain ⟨cmd, hcmd, hpane⟩ := htidy.active p id hactive
  have hnew : id ∉ e.finished := by
    intro hmem
    obtain ⟨cmd', hcmd', -, hfree⟩ := htidy.finished id hmem
    rw [hcmd] at hcmd'
    obtain rfl := Option.some.inj hcmd'
    rw [hpane] at hfree
    exact hfree hactive
  unfold processOutput at h ⊢
  rw [hactive] at h ⊢
  dsimp only at h ⊢
  rw [hcmd] at h ⊢
  dsimp only at h ⊢
  cases hbegin : cmd.scanBegin ((e.pending.get p).getD [] ++ output) with
  | waiting held =>
    rw [hbegin] at h
    cases h
  | begun rest =>
    rw [hbegin] at h
    dsimp only at h ⊢
    cases hend : TrackedCommand.scanEnd { cmd with begun := true } rest with
    | more cmd' held =>
      rw [hend] at h
      cases h
    | exit cmd' code =>
      rw [hend] at h
      dsimp only at h ⊢
      have hresult := Option.toList_eq_singleton_iff.mp h
      obtain ⟨done, hdone, hstate, hdoneResult⟩ := finish_result (by decide) hresult
      refine EndsWith.release ⟨done, r, hdone, hstate, hdoneResult, hr⟩ ?_
      rw [finished_finish]
      exact hnew

/-- The end of a command that has its result already changes nothing about it. -/
theorem EndsWith.step (htidy : Tidy e) (h : e.EndsWith id captured)
    (hid : cmd.id = id) (hidle : e.active.get cmd.paneId = none) (ending : Ending) :
    (e.step (ending.op cmd)).EndsWith id captured := by
  subst hid
  cases ending with
  | timeout now listing =>
    show (e.checkTimeouts now listing).1.EndsWith cmd.id _
    rw [checkTimeouts_eq]
    exact h.timeOuts now _
  | cancel now =>
    show (e.cancelCommand now cmd.id).1.EndsWith cmd.id _
    obtain ⟨done, r, hdone, hstate, hresult⟩ := h
    unfold cancelCommand
    rw [hdone]
    dsimp only
    by_cases hactive : e.active.get done.paneId ≠ some cmd.id
    · rw [if_pos hactive]
      exact ⟨done, r, hdone, hstate, hresult⟩
    · rw [if_neg hactive]
      have hsame : (e.finish now cmd.id .cancelled none).1 = e := by
        unfold finish
        rw [hdone]
        dsimp only
        rw [if_pos hstate]
      rw [hsame]
      refine EndsWith.release ⟨done, r, hdone, hstate, hresult⟩ fun hmem => ?_
      obtain ⟨cmd', hcmd', -, hfree⟩ := htidy.finished cmd.id hmem
      rw [hdone] at hcmd'
      obtain rfl := Option.some.inj hcmd'
      exact hactive hfree
  | forget now =>
    show (e.forgetPane now cmd.paneId).EndsWith cmd.id _
    unfold forgetPane
    rw [hidle]
    exact h

end Result

section Read

variable [Transcript] {s : Stream} {cmd : TrackedCommand} {e : CommandEngine}
  {arrived more : List UInt8}
variable {prepared : PreparedCommand}

theorem feed_idle_fst (p : Uuid) (hidle : e.active.get p = none)
    (chunks : List (Nat × List UInt8)) : (e.feed p chunks).1 = e := by
  induction chunks with
  | nil => rfl
  | cons chunk chunks ih =>
    obtain ⟨now, output⟩ := chunk
    have hnone : e.processOutput now p output = (e, []) := by
      unfold processOutput
      rw [hidle]
    unfold feed
    rw [hnone]
    exact ih

/-- After a part of the stream the command goes on, or has completed. -/
inductive Fed (s : Stream) (cmd : TrackedCommand) (e : CommandEngine) (arrived : List UInt8) :
    Prop where
  | running (h : Progress s cmd e arrived)
  | completed (hlong : (upToEnd s cmd).length ≤ arrived.length)
      (hidle : e.active.get cmd.paneId = none)
      (h : e.EndsWith cmd.id (s.payload.take captureLimit))

omit [Transcript] in
theorem Progress.active (h : Progress s cmd e arrived) : e.active.get cmd.paneId = some cmd.id := by
  cases h with
  | waits _ _ hactive => exact hactive
  | reads _ _ hactive => exact hactive

theorem feed_fed (hstarts : Starts cmd) (hframed : s.Framed cmd) (htidy : Tidy e)
    (h : Progress s cmd e arrived) {chunks : List (Nat × List UInt8)}
    (hbytes : arrived ++ (chunks.map Prod.snd).flatten ++ more = s.bytes cmd) :
    Tidy (e.feed cmd.paneId chunks).1 ∧
      Fed s cmd (e.feed cmd.paneId chunks).1 (arrived ++ (chunks.map Prod.snd).flatten) := by
  induction chunks generalizing e arrived with
  | nil =>
    rw [map_nil, flatten_nil, append_nil]
    exact ⟨htidy, .running h⟩
  | cons chunk chunks ih =>
    obtain ⟨now, output⟩ := chunk
    rw [map_cons, flatten_cons, ← append_assoc] at hbytes ⊢
    have htidy' := ((processOutput_moves htidy now cmd.paneId output).keep htidy).1
    have hchunk := hbytes
    rw [append_assoc] at hchunk
    obtain ⟨hlong, hout, hidle⟩ | ⟨-, -, hprogress⟩ :=
      processOutput_progress hstarts hframed h hchunk now
    · have hended := processOutput_completed htidy h.active
        (s.payload.take captureLimit) hout rfl
      have hrest := feed_idle_fst cmd.paneId hidle chunks
      show Tidy ((e.processOutput now cmd.paneId output).1.feed cmd.paneId chunks).1 ∧
        Fed s cmd ((e.processOutput now cmd.paneId output).1.feed cmd.paneId chunks).1 _
      rw [hrest]
      refine ⟨htidy', .completed ?_ hidle hended⟩
      rw [length_append]
      omega
    · exact ih htidy' hprogress hbytes

section

omit [Transcript]

/-- The END prefix stands where the payload ends, and nowhere before. -/
theorem first_endText (hframed : s.Framed cmd) (hplain : ¬cmd.endText <:+: s.payload) {id : Uuid}
    (hmarker : cmd.marker = markerOf id) :
    At cmd.endText (s.body cmd) s.payload.length ∧
      ∀ j < s.payload.length, ¬At cmd.endText (s.body cmd) j := by
  have hat := (hframed.first_end hmarker).1.at_text
  refine ⟨hat, fun j hj hatj => ?_⟩
  by_cases hin : j + cmd.endText.length ≤ s.payload.length
  · apply hplain
    have hinf := hatj.isInfix
    unfold Stream.body at hinf
    rw [take_append_of_le_length hin] at hinf
    exact hinf.trans ( take_prefix _ _).isInfix
  · exact not_at_inside hmarker hatj hj (by omega) hat

/-- What a command has captured of a payload. -/
theorem keep_capture (hstarts : Starts cmd) (payload : List UInt8) :
    (TrackedCommand.keep { cmd with begun := true } payload).capture =
      payload.take captureLimit := by
  unfold TrackedCommand.keep
  simp [hstarts.result, hstarts.capture]

theorem keep_begun (payload : List UInt8) :
    (TrackedCommand.keep { cmd with begun := true } payload).begun = true := by
  unfold TrackedCommand.keep
  split
  · rfl
  · rfl

/-- While the command reads its payload, what would be frozen is what has arrived of it. -/
theorem reads_frozen (hstarts : Starts cmd) (hframed : s.Framed cmd)
    (hplain : ¬cmd.endText <:+: s.payload) {kept held : List UInt8} (h : s.Reads cmd kept held)
    (hbody : kept ++ held ++ more = s.body cmd) :
    (TrackedCommand.keep { cmd with begun := true } kept).frozen held =
      s.kept cmd ((s.head cmd).length + (kept ++ held).length) := by
  obtain ⟨hat, hfirst⟩ := first_endText hframed hplain hstarts.marker
  have hend := (hframed.first_end hstarts.marker).1
  have htext : (TrackedCommand.keep { cmd with begun := true } kept).endText = cmd.endText :=
    endText_keep { cmd with begun := true } kept
  have hlength : (s.head cmd ++ (s.payload ++ cmd.endText)).length =
      (s.head cmd).length + (s.payload.length + cmd.endText.length) := by
    rw [length_append, length_append]
  have hbuf : (kept ++ held).length = kept.length + held.length := length_append
  unfold TrackedCommand.frozen Stream.kept
  rw [if_pos (keep_begun kept), keep_keep, keep_capture hstarts, htext]
  by_cases hpart : (s.head cmd).length + (kept ++ held).length <
      (s.head cmd ++ (s.payload ++ cmd.endText)).length
  · have hnone : find held cmd.endText = none := by
      refine find_of_none fun j hj => ?_
      have hle := hj.le_length cmd.endText_ne_nil
      refine hfirst (kept.length + j) (by omega) ?_
      rw [← hbody]
      exact ((at_append_right kept).mpr hj).append more
    rw [if_pos hpart, hnone, Option.getD_none, take_length, Nat.add_sub_cancel_left, ← hbody,
      take_left]
  · have hkept : kept.length ≤ s.payload.length := by
      by_contra hlt
      refine h.free more s.payload.length (codeOf s.digits) (by omega) ?_
      rw [hbody]
      exact hend
    obtain ⟨i, hi⟩ := Nat.exists_eq_add_of_le hkept
    have hfound : find held cmd.endText = some i := by
      refine find_of_first cmd.endText_ne_nil ?_ fun j hj hatj => ?_
      · rw [← hbody, at_append_iff (by omega), hi, at_append_right] at hat
        exact hat
      · refine hfirst (kept.length + j) (by omega) ?_
        rw [← hbody]
        exact ((at_append_right kept).mpr hatj).append more
    have hpayload : kept ++ held.take i = s.payload := by
      have htake : (s.body cmd).take (kept.length + i) = s.payload := by
        rw [← hi, Stream.body, take_left]
      rw [← htake, ← hbody, append_assoc, take_length_add_append,
        take_append_of_le_length (by omega)]
    rw [if_neg hpart, hfound, Option.getD_some, hpayload]

end

/-- Wherever the command is in its stream, its end freezes what has arrived of the payload. -/
theorem Progress.ends (hstarts : Starts cmd) (hframed : s.Framed cmd)
    (hplain : ¬cmd.endText <:+: s.payload) (htidy : Tidy e) (h : Progress s cmd e arrived)
    (hbytes : arrived ++ more = s.bytes cmd) {ending : Ending} (hdue : ending.Due cmd) :
    (e.step (ending.op cmd)).EndsWith cmd.id (s.kept cmd arrived.length) := by
  cases h with
  | waits seen held hactive hcmd hheld harrived h =>
    have hended := step_frozen htidy rfl hcmd hactive hstarts.state hdue
    have hshort := h.short
    rw [harrived] at hshort
    have hnone : s.kept cmd arrived.length = cmd.frozen held := by
      unfold TrackedCommand.frozen Stream.kept
      rw [hstarts.begun, if_neg Bool.false_ne_true, hstarts.capture, if_pos,
        Nat.sub_eq_zero_of_le hshort.le, take_zero, take_nil]
      rw [length_append]
      omega
    rw [hheld, ← hnone] at hended
    exact hended
  | reads kept held hactive hcmd hheld harrived h =>
    have hframe := sameFrame_keep { cmd with begun := true } kept
    have hdue' : ending.Due (TrackedCommand.keep { cmd with begun := true } kept) := by
      have htimes : (TrackedCommand.keep { cmd with begun := true } kept).timeout = cmd.timeout ∧
          (TrackedCommand.keep { cmd with begun := true } kept).startedAt = cmd.startedAt := by
        unfold TrackedCommand.keep
        split
        · exact ⟨rfl, rfl⟩
        · exact ⟨rfl, rfl⟩
      cases ending with
      | timeout now listing =>
        show TrackedCommand.timeout _ ≤ now - TrackedCommand.startedAt _
        rw [htimes.1, htimes.2]
        exact hdue
      | cancel now => trivial
      | forget now => trivial
    have hop : ending.op (TrackedCommand.keep { cmd with begun := true } kept) =
        ending.op cmd := by
      cases ending with
      | timeout now listing => rfl
      | cancel now => exact congrArg (Op.cancelCommand now) hframe.id
      | forget now => exact congrArg (Op.forgetPane now) hframe.paneId
    have hended := step_frozen htidy hframe.id hcmd (by rw [hframe.paneId]; exact hactive)
      (hframe.state.trans hstarts.state) hdue'
    have hbody : kept ++ held ++ more = s.body cmd := by
      rw [← harrived, append_assoc] at hbytes
      exact append_cancel_left hbytes
    rw [hop, hframe.paneId, hheld, reads_frozen hstarts hframed hplain h hbody,
      ← length_append, harrived] at hended
    exact hended

omit [Transcript] in
/-- What is kept is of the payload unless a part of the END prefix is the last that arrived. -/
theorem kept_prefix_iff {n : Nat} (hn : n ≤ (s.bytes cmd).length) :
    s.kept cmd n <+: s.payload ↔ n ≤ (s.head cmd ++ s.payload).length ∨
      (s.head cmd ++ (s.payload ++ cmd.endText)).length ≤ n ∨
      captureLimit ≤ s.payload.length := by
  have hbytes : (s.bytes cmd).length = (s.head cmd).length + (s.body cmd).length := length_append
  have hbody : s.payload <+: s.body cmd := prefix_append _ _
  have hpayload : (s.head cmd ++ s.payload).length = (s.head cmd).length + s.payload.length :=
    length_append
  unfold Stream.kept
  rw [hpayload]
  by_cases hpart : n < (s.head cmd ++ (s.payload ++ cmd.endText)).length
  · rw [if_pos hpart, take_take]
    constructor
    · intro hprefix
      have hle := hprefix.length_le
      rw [length_take] at hle
      omega
    · intro h
      exact prefix_of_prefix_length_le ( take_prefix _ _) hbody (by
        rw [length_take]
        omega)
  · rw [if_neg hpart]
    exact ⟨fun _ => .inr (.inl (Nat.not_lt.mp hpart)), fun _ => take_prefix _ _⟩

/-- The result stays what it is, as long as it is there, whatever is read later. -/
theorem EndsWith.feed (htidy : Tidy e) {id : Uuid} {captured : List UInt8}
    (h : e.EndsWith id captured) (p : Uuid) (later : List (Nat × List UInt8)) :
    (e.feed p later).1.commands.get id = none ∨ (e.feed p later).1.EndsWith id captured := by
  have hmoves : Moves e (e.feed p later).1 := by
    clear h
    induction later generalizing e with
    | nil => exact .refl
    | cons chunk later ih =>
      have hchunk := processOutput_moves htidy chunk.1 p chunk.2
      exact hchunk.trans (ih (hchunk.keep htidy).1)
  obtain ⟨htidy', hages, -⟩ := hmoves.keep htidy
  obtain ⟨done, r, hdone, -, hresult, hr⟩ := h
  have hphase : e.phase id = some (some r) := by
    unfold phase
    rw [hdone, Option.map_some, hresult]
  rcases (hages id).frozen r hphase with hsame | hgone
  · obtain ⟨done', hdone', hresult'⟩ := Option.map_eq_some_iff.mp hsame
    refine .inr ⟨done', r, hdone', fun hrunning => ?_, hresult', hr⟩
    rw [(htidy'.running id done' hdone').mp hrunning] at hresult'
    cases hresult'
  · exact .inl (Option.map_eq_none_iff.mp hgone)

omit [Transcript] in
theorem starts_track (prepared : PreparedCommand) (started : Nat) (p : Uuid) (timeout : Nat)
    (completionTx : Bool) : Starts (prepared.track started p timeout completionTx) :=
  ⟨prepared.marker_eq, rfl, rfl, rfl, rfl, rfl⟩

/-- A command that was registered in an idle pane waits for its stream. -/
theorem progress_register {ops : List Op}
    (hfresh : (prepared.id :: registered ops).Nodup) (started : Nat) {p : Uuid} (timeout : Nat)
    (completionTx : Bool) (hidle : (new.run ops).active.get p = none) (s : Stream) :
    Tidy ((new.run ops).register started p prepared timeout completionTx).1 ∧
      Progress s (prepared.track started p timeout completionTx)
        ((new.run ops).register started p prepared timeout completionTx).1 [] := by
  have hregistered : registered (ops ++ [.register started p prepared timeout completionTx]) =
      registered ops ++ [prepared.id] := filterMap_append
  have hnodup : (registered (ops ++
      [.register started p prepared timeout completionTx])).Nodup := by
    rw [hregistered]
    exact (perm_append_singleton _ _).nodup_iff.mpr hfresh
  obtain ⟨htidy, -⟩ := run_new_keep (nodup_cons.mp hfresh).2
  obtain ⟨htidy', -⟩ := run_new_keep hnodup
  have hrun : new.run (ops ++ [.register started p prepared timeout completionTx]) =
      ((new.run ops).register started p prepared timeout completionTx).1 := by
    unfold run
    rw [foldl_append]
    rfl
  rw [hrun] at htidy'
  refine ⟨htidy', ?_⟩
  -- An idle pane has no bytes held back.
  have hpending : (new.run ops).pending.get p = none := by
    rw [Option.eq_none_iff_forall_ne_some]
    intro held hheld
    obtain ⟨id, hid⟩ := htidy.pending p held hheld
    rw [hidle] at hid
    cases hid
  have hregister : ((new.run ops).register started p prepared timeout completionTx).1 =
      { new.run ops with
        commands := (new.run ops).commands.insert prepared.id
          (prepared.track started p timeout completionTx)
        active := (new.run ops).active.insert p prepared.id } := by
    unfold register
    rw [hidle]
  rw [hregister]
  refine .waits [] [] (get_insert_self _ _ _) (get_insert_self _ _ _) ?_ rfl
    ⟨?_, nofun⟩
  · show ((new.run ops).pending.get p).getD [] = []
    rw [hpending]
    rfl
  · have hpos := length_pos_iff.mpr
      (beginText_ne_nil (prepared.track started p timeout completionTx))
    simp only [Stream.head, length_append, length_nil]
    omega

/-- A command registered in an idle pane, some of whose stream has been read, cut in any way,
when it runs out of time, is cancelled or loses its pane: its result is of what was kept. -/
theorem ends_kept {ops : List Op}
    (hfresh : (prepared.id :: registered ops).Nodup) (started : Nat) {p : Uuid} (timeout : Nat)
    (completionTx : Bool) (hidle : (new.run ops).active.get p = none) {s : Stream}
    (hframed : s.Framed (prepared.track started p timeout completionTx))
    (hplain : ¬(prepared.track started p timeout completionTx).endText <:+: s.payload)
    (chunks : List (Nat × List UInt8))
    (hbytes : (chunks.map Prod.snd).flatten ++ more =
      s.bytes (prepared.track started p timeout completionTx)) {ending : Ending}
    (hdue : ending.Due (prepared.track started p timeout completionTx)) :
    let cmd := prepared.track started p timeout completionTx
    let e := (((new.run ops).register started p prepared timeout completionTx).1.feed p chunks).1
    Tidy (e.step (ending.op cmd)) ∧ (e.step (ending.op cmd)).EndsWith prepared.id
      (s.kept cmd (chunks.map Prod.snd).flatten.length) := by
  intro cmd e
  have hstarts : Starts cmd := starts_track prepared started p timeout completionTx
  obtain ⟨htidy, hprogress⟩ := progress_register hfresh started timeout completionTx hidle s
  obtain ⟨htidy', hfed⟩ := feed_fed hstarts hframed htidy hprogress
    (by rw [nil_append]; exact hbytes)
  rw [nil_append] at hfed
  constructor
  · have hmoves : Moves e (e.step (ending.op cmd)) := by
      cases ending with
      | timeout now listing => exact checkTimeouts_moves htidy' now listing
      | cancel now => exact cancelCommand_moves htidy' now cmd.id
      | forget now => exact forgetPane_moves htidy' now cmd.paneId
    exact (hmoves.keep htidy').1
  · cases hfed with
    | running h => exact h.ends hstarts hframed hplain htidy' hbytes hdue
    | completed hlong hdone h =>
      have hended := h.step htidy' rfl hdone ending
      have hall : s.kept cmd (chunks.map Prod.snd).flatten.length =
          s.payload.take captureLimit := by
        unfold Stream.kept
        rw [if_neg]
        simp only [upToEnd, Stream.endMarker, length_append] at hlong ⊢
        omega
      rw [hall]
      exact hended

/-- The output of a command that ends other than by its END marker is a start of its payload,
exactly when no part of the END prefix is the last that was read, or the payload fills all that
is kept; and what is read later changes nothing. -/
theorem ended_output (ops : List Op) (prepared : PreparedCommand)
    (hfresh : (prepared.id :: registered ops).Nodup) (started : Nat) (p : Uuid) (timeout : Nat)
    (completionTx : Bool) (hidle : (new.run ops).active.get p = none) (s : Stream)
    (hframed : s.Framed (prepared.track started p timeout completionTx))
    (hplain : ¬(prepared.track started p timeout completionTx).endText <:+: s.payload)
    (chunks : List (Nat × List UInt8)) (more : List UInt8)
    (hbytes : (chunks.map Prod.snd).flatten ++ more =
      s.bytes (prepared.track started p timeout completionTx)) (ending : Ending)
    (hdue : ending.Due (prepared.track started p timeout completionTx)) :
    let cmd := prepared.track started p timeout completionTx
    let e := (((new.run ops).register started p prepared timeout completionTx).1.feed p chunks).1
    let n := (chunks.map Prod.snd).flatten.length
    (e.step (ending.op cmd)).EndsWith prepared.id (s.kept cmd n) ∧
      (∀ later, ((e.step (ending.op cmd)).feed p later).1.commands.get prepared.id = none ∨
        ((e.step (ending.op cmd)).feed p later).1.EndsWith prepared.id (s.kept cmd n)) ∧
      (s.kept cmd n <+: s.payload ↔ n ≤ (s.head cmd ++ s.payload).length ∨
        (s.head cmd ++ (s.payload ++ cmd.endText)).length ≤ n ∨
        captureLimit ≤ s.payload.length) := by
  intro cmd e n
  obtain ⟨htidy, hended⟩ := ends_kept hfresh started timeout completionTx hidle hframed hplain
    chunks hbytes hdue
  refine ⟨hended, fun later => hended.feed htidy p later, kept_prefix_iff ?_⟩
  rw [← hbytes, length_append]
  exact Nat.le_add_right _ _

end Read

namespace Sample

theorem stream_plain : ¬(command.track 0 ⟨1⟩ 9 true).endText <:+: stream.payload := by
  intro hinf
  have hle := hinf.length_le
  have hlong := length_endText_sample
  have hshort : stream.payload.length = 2 := rfl
  omega

/-- The stream up to the payload's last byte. -/
def read : List UInt8 := stream.head (command.track 0 ⟨1⟩ 9 true) ++ stream.payload

theorem ended_output_cut :
    ((((new.register 0 ⟨1⟩ command 9 true).1.feed ⟨1⟩ [(1, read)]).1.cancelCommand 2
      command.id).1).EndsWith command.id
        (stream.kept (command.track 0 ⟨1⟩ 9 true) read.length) ∧
      stream.kept (command.track 0 ⟨1⟩ 9 true) read.length <+: stream.payload := by
  have h := ended_output [] command (by decide) 0 ⟨1⟩ 9 true rfl stream stream_framed stream_plain
    [(1, read)] (stream.endMarker (command.track 0 ⟨1⟩ 9 true) ++ stream.rest) (by
      simp only [read, Stream.bytes, Stream.body, map_cons, map_nil, flatten_cons,
        flatten_nil, append_nil, append_assoc]) (.cancel 2) trivial
  simp only [map_cons, map_nil, flatten_cons, flatten_nil, append_nil] at h
  exact ⟨h.1, h.2.2.mpr (.inl le_rfl)⟩

/-- A command that is cancelled when one letter of its END marker has been read. -/
def cancelled : CommandEngine :=
  (((new.register 0 ⟨1⟩ command 9 true).1.feed ⟨1⟩ [(1, read ++ [letterS])]).1.cancelCommand 2
    command.id).1

/-- That letter is in its output, and the payload does not go on with it. -/
theorem cancelled_leaks :
    stream.Framed (command.track 0 ⟨1⟩ 9 true) ∧
      ¬(command.track 0 ⟨1⟩ 9 true).endText <:+: stream.payload ∧
      read ++ [letterS] <+: stream.bytes (command.track 0 ⟨1⟩ 9 true) ∧
      ∃ r, cancelled.phase command.id = some (some r) ∧
        ∀ captured, captured <+: stream.payload → r.stdout ≠ Transcript.render captured := by
  have hphase : (cancelled.phase command.id).map (Option.map CommandResult.stdout) =
      some (some "hiS".toList) := by with_unfolding_all decide
  have hread : read ++ [letterS] <+: stream.bytes (command.track 0 ⟨1⟩ 9 true) :=
    isPrefixOf_iff_prefix.mp (by with_unfolding_all decide)
  refine ⟨stream_framed, stream_plain, hread, ?_⟩
  obtain ⟨result, hresult, hstdout⟩ := Option.map_eq_some_iff.mp hphase
  obtain ⟨r, rfl, hr⟩ := Option.map_eq_some_iff.mp hstdout
  refine ⟨r, hresult, fun captured hprefix hsame => ?_⟩
  have hlength : r.stdout.length = captured.length := by
    rw [hsame]
    exact length_map _
  have hle : captured.length ≤ 2 := hprefix.length_le
  rw [hr] at hlength
  have hthree : "hiS".toList.length = 3 := rfl
  omega

end Sample

end CommandEngine

end Shux.Pty
