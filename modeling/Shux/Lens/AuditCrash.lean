/-
# Crashes of the audit log

An append is a few file operations one after another: the renames of a rotation, the header of
the fresh live file, the entry. The daemon can stop between any two of them, and the next one
opens the log on the files that are there.

A rotation that was stopped half way leaves a gap in the numbers of the files, and the next one
goes over it: what is left is still the end of the log, in order. The one exception is a stop
after the live file was moved away and before the header was written. The head of the chain is
then in no live file, the next daemon starts from the genesis hash, and verification breaks.
-/

import Shux.Lens.AuditChain

namespace Shux.Lens

open Shux.Plugin (Json)
open List Function Option Codec
open HashChain

/-- Move `.n` to `.n+1`, when it is there. -/
def shiftFile (n : Nat) (files : Files) : Files :=
  if (files n).isSome then rename files n (n + 1) else files

/-- The renames of a rotation. -/
def renames : List (Files → Files) :=
  ((List.range' 1 (auditKeepRotations - 1)).reverse.map shiftFile) ++
    [fun files => rename files 0 1]

theorem rotateAudit_eq (files : Files) :
    rotateAudit files = renames.foldl (fun files op => op files) files := rfl

namespace LensAuditLog

variable (c : Codec)

/-- The values written and the files there are after so many operations of an append. A number
past the last one stands for all of them. -/
def stopped (log : LensAuditLog) (entry : Json) (ts : Str) (operations : Nat) :
    List Json × Files :=
  let (values, after) := log.appendBlocking c entry ts
  if log.oversized then
    if operations ≤ renames.length then
      ([], (renames.take operations).foldl (fun files op => op files) log.files)
    else if operations = renames.length + 1 then
      let (header, rotated) := appendLocked c { log with files := rotateAudit log.files }
        (.object (rotateHeader ts))
      ([header], rotated.files)
    else (values, after.files)
  else if operations = 0 then ([], log.files)
  else (values, after.files)

end LensAuditLog

/-- What happens to a log: an entry is appended, or the daemon stops after some of the
operations of an append and the log is opened again. -/
inductive CrashEvent where
  | append (entry : Entry) (ts : Str)
  | stop (entry : Entry) (ts : Str) (operations : Nat)

namespace Honest

variable (c : Codec)

def crashStep (honest : Honest) : CrashEvent → Honest
  | .append entry ts => honest.step c (.append entry ts)
  | .stop entry ts operations =>
    let (values, files) := honest.log.stopped c entry.value ts operations
    ⟨.open c files, honest.written ++ values⟩

def crashRun (events : List CrashEvent) : Honest := events.foldl (crashStep c) (fresh c)

/-- A stop after the live file was moved away and before the header was written. -/
def Beheads (honest : Honest) : CrashEvent → Prop
  | .append _ _ => False
  | .stop _ _ operations => honest.log.oversized = true ∧ operations = renames.length

end Honest

/-- The numbers of a set, oldest first. -/
def setNumbers : List Nat := [5, 4, 3, 2, 1, 0]

/-- The files hold the end of what was written, the older lines under the higher numbers. -/
structure Holds (c : Codec) (files : Files) (written : List Json)
    (held : Nat → Option (List Json)) : Prop where
  text : ∀ n ≤ auditKeepRotations, files n = (held n).map c.textOf
  suffix : inOrder held setNumbers <:+ written
  opens : ∀ n segment, held n = some segment → ∃ value rest, segment = value :: rest ∧
    (prevOf value = genesisHash ∨ IsRotate value)
  few : ∀ n, auditKeepRotations < n → held n = none

/-- Numbers without a file hold nothing. -/
theorem inOrder_filter (held : Nat → Option (List Json)) (numbers : List Nat) :
    inOrder held (numbers.filter fun n => (held n).isSome) = inOrder held numbers := by
  induction numbers with
  | nil => rfl
  | cons n rest ih =>
    cases hheld : held n with
    | none | some segment => simpa [inOrder, hheld] using ih

namespace Holds

variable {c : Codec} {files : Files} {written : List Json} {held : Nat → Option (List Json)}

section

variable (h : Holds c files written held)
include h

theorem subset {n : Nat} (hn : n ≤ auditKeepRotations)
    {segment : List Json} (hheld : held n = some segment) : segment ⊆ written := by
  intro value hvalue
  refine h.suffix.subset (mem_flatMap.2 ⟨n, ?_, by simpa [hheld] using hvalue⟩)
  unfold auditKeepRotations at hn
  simp only [setNumbers, mem_cons, not_mem_nil, or_false]
  omega

/-- A file is moved to a number that is free, or to the last one. -/
theorem shift {n : Nat} (hlow : 1 ≤ n) (hhigh : n ≤ 4) (hfree : n = 4 ∨ held (n + 1) = none) :
    ∃ held', Holds c (shiftFile n files) written held' ∧ held' n = none ∧ held' 0 = held 0 := by
  have hsome : (files n).isSome = (held n).isSome := by
    rw [h.text n (by unfold auditKeepRotations; omega), isSome_map]
  cases hheld : held n with
  | none =>
    refine ⟨held, ?_, hheld, rfl⟩
    rw [shiftFile, hsome, hheld]
    exact h
  | some segment =>
    have hmoved : shiftFile n files = rename files n (n + 1) := by
      rw [shiftFile, hsome, hheld]
      rfl
    refine ⟨update (update held (n + 1) (some segment)) n none, ⟨?_, ?_, ?_, ?_⟩,
      by simp, by rw [update_of_ne (by omega), update_of_ne (by omega)]⟩
    · intro m hm
      have htext := h.text n (by unfold auditKeepRotations; omega)
      rw [hheld] at htext
      rw [hmoved, rename]
      by_cases hmn : m = n
      · simp [hmn]
      · by_cases hmn' : m = n + 1
        · simp [hmn', htext]
        · simp [hmn, hmn', h.text m hm]
    · refine List.IsSuffix.trans ?_ h.suffix
      rcases hfree with rfl | hfree
      · exact ⟨(held 5).getD [], by simp [inOrder, setNumbers, hheld]⟩
      · refine ⟨[], ?_⟩
        interval_cases n <;> simp_all [inOrder, setNumbers]
    · intro m seg hm
      by_cases hmn : m = n
      · simp [hmn] at hm
      · by_cases hmn' : m = n + 1
        · simp only [hmn', ne_eq, Nat.add_eq_left, one_ne_zero, not_false_eq_true,
            update_of_ne, update_self, Option.some.injEq] at hm
          exact h.opens n seg (hm ▸ hheld)
        · rw [update_of_ne hmn, update_of_ne hmn'] at hm
          exact h.opens m seg hm
    · intro m hm
      unfold auditKeepRotations at hm
      rw [update_of_ne (by omega), update_of_ne (by omega)]
      exact h.few m hm

/-- The live file is moved to `.1` when that is free. -/
theorem moveLive (hfree : held 1 = none) :
    ∃ held', Holds c (rename files 0 1) written held' ∧ held' 0 = none := by
  refine ⟨update (update held 1 (held 0)) 0 none, ⟨?_, ?_, ?_, ?_⟩, by simp⟩
  · intro m hm
    rw [rename]
    by_cases hzero : m = 0
    · simp [hzero]
    · by_cases hone : m = 1
      · simp [hone, h.text 0 (Nat.zero_le _)]
      · simp [hzero, hone, h.text m hm]
  · refine List.IsSuffix.trans ⟨[], ?_⟩ h.suffix
    simp [inOrder, setNumbers, hfree]
  · intro m segment hm
    by_cases hzero : m = 0
    · simp [hzero] at hm
    · by_cases hone : m = 1
      · subst hone
        rw [update_of_ne (by decide), update_self] at hm
        exact h.opens 0 segment hm
      · rw [update_of_ne hzero, update_of_ne hone] at hm
        exact h.opens m segment hm
  · intro m hm
    unfold auditKeepRotations at hm
    rw [update_of_ne (by omega), update_of_ne (by omega)]
    exact h.few m hm

/-- However many of the first renames are done, the live file stays, and the number moved last
is free. -/
theorem shifted {k : Nat} (hk : k ≤ 4) :
    ∃ held', Holds c ((renames.take k).foldl (fun files op => op files) files) written held' ∧
      held' 0 = held 0 ∧ (k = 0 ∨ held' (5 - k) = none) := by
  induction k with
  | zero => exact ⟨held, h, rfl, .inl rfl⟩
  | succ k ih =>
    obtain ⟨before, hbefore, hlive, hfree⟩ := ih (by omega)
    have hstep : (renames.take (k + 1)).foldl (fun files op => op files) files =
        shiftFile (4 - k) ((renames.take k).foldl (fun files op => op files) files) := by
      have hlt : k < 4 := by omega
      interval_cases k <;> rfl
    have hindex : 4 - k + 1 = 5 - k := by omega
    obtain ⟨held', hheld', hgone, hlive'⟩ := hbefore.shift (n := 4 - k) (by omega) (by omega)
      (hfree.imp (by omega) fun hfree => by rwa [hindex])
    refine ⟨held', hstep ▸ hheld', hlive'.trans hlive, .inr ?_⟩
    rwa [show 5 - (k + 1) = 4 - k by omega]

/-- A whole rotation leaves no live file. -/
theorem rotate : ∃ held', Holds c (rotateAudit files) written held' ∧ held' 0 = none := by
  obtain ⟨before, hbefore, -, hfree⟩ := h.shifted (k := 4) le_rfl
  exact hbefore.moveLive (hfree.resolve_left (by decide))

/-- A further line, in the live file or in a fresh one that it justifies. -/
theorem write {value : Json} (hjust : held 0 = none → prevOf value = genesisHash ∨ IsRotate value) :
    ∃ held', Holds c (update files 0
        (some ((files 0).getD [] ++ (c.toVec value ++ ['\n'])))) (written ++ [value]) held' ∧
      held' 0 ≠ none := by
  refine ⟨update held 0 (some ((held 0).getD [] ++ [value])), ⟨?_, ?_, ?_, ?_⟩, by simp⟩
  · intro m hm
    by_cases hzero : m = 0
    · subst hzero
      have hlive := h.text 0 (Nat.zero_le _)
      cases hheld : held 0 with
      | none => simp [hlive, hheld, textOf, fileOf]
      | some segment => simp [hlive, hheld, textOf_concat]
    · simp [hzero, h.text m hm]
  · obtain ⟨gone, hgone⟩ := h.suffix
    refine ⟨gone, ?_⟩
    rw [← hgone]
    simp [inOrder, setNumbers]
  · intro m segment hm
    by_cases hzero : m = 0
    · subst hzero
      rw [update_self, Option.some.injEq] at hm
      subst hm
      cases hheld : held 0 with
      | none => exact ⟨value, [], rfl, hjust hheld⟩
      | some live =>
        obtain ⟨first, rest, rfl, hfirst⟩ := h.opens 0 live hheld
        exact ⟨first, rest ++ [value], rfl, hfirst⟩
    · rw [update_of_ne hzero] at hm
      exact h.opens m segment hm
  · intro m hm
    rw [update_of_ne (by omega)]
    exact h.few m hm

/-- The last line of the live file is the last one written. -/
theorem reopened (hlive : held 0 = none → written = [])
    (hfaithful : Faithful c written) (hintact : ∀ value ∈ written, Intact c value) :
    (c.lastHashInFile (files 0)).getD genesisHash = tip hashIn genesisHash written := by
  have htext := h.text 0 (Nat.zero_le _)
  cases hheld : held 0 with
  | none =>
    rw [htext, hheld, hlive hheld]
    rfl
  | some segment =>
    obtain ⟨gone, hgone⟩ := h.suffix
    obtain ⟨first, rest, hopens, -⟩ := h.opens 0 segment hheld
    obtain ⟨front, last, rfl⟩ : ∃ front last, segment = front ++ [last] :=
      ⟨_, _, (dropLast_append_getLast (by simp [hopens])).symm⟩
    have hwritten : written = (gone ++ inOrder held [5, 4, 3, 2, 1] ++ front) ++ [last] := by
      rw [← hgone]
      simp [inOrder, setNumbers, hheld]
    have htip : tip hashIn genesisHash written = hashIn last := by rw [hwritten, tip_concat]
    have hsub := h.subset (Nat.zero_le _) hheld
    rw [htext, hheld, htip, map_some,
      lastHashInFile_textOf (hfaithful.mono hsub) (hintact last (hsub (by simp))),
      getD_some]

theorem laid (hfaithful : Faithful c written)
    (hintact : ∀ value ∈ written, Intact c value) : Laid c files held := by
  have hsub : ∀ n segment, held n = some segment → segment ⊆ written := by
    intro n segment hheld
    by_cases hn : n ≤ auditKeepRotations
    · exact h.subset hn hheld
    · rw [h.few n (by omega)] at hheld
      cases hheld
  exact ⟨h.text, fun n values hheld => hfaithful.mono (hsub n values hheld),
    fun n values hheld value hmem => hintact value (hsub n values hheld hmem)⟩

/-- The files of the set are those that hold something. -/
theorem setFiles_eq (hlive : held 0 ≠ none) :
    setFiles files = setNumbers.filter fun n => (held n).isSome := by
  have hnumbers : setNumbers = (List.range' 1 auditKeepRotations).reverse ++ [0] := rfl
  have hzero : (held 0).isSome = true := Option.isSome_iff_ne_none.2 hlive
  rw [setFiles, hnumbers, filter_append, filter_reverse]
  congr 2
  · refine filter_congr fun n hn => ?_
    rw [mem_range'_1] at hn
    rw [h.text n (by omega), isSome_map]
  · simp [hzero]

/-- With a live file the set is accepted, every line of it counted. -/
theorem accepted (hlive : held 0 ≠ none)
    (hfaithful : Faithful c written) {lastHash : Str} (hwrites : Writes c written lastHash) :
    c.verifyChainSet files = .ok (setLines files).length := by
  have hlaid := h.laid hfaithful hwrites.intact
  have hfiles := h.setFiles_eq hlive
  have horder : inOrder held (setFiles files) = inOrder held setNumbers := by
    rw [hfiles, inOrder_filter]
  obtain ⟨gone, hgone⟩ := h.suffix
  have hchain : Chained prevOf hashIn (tip hashIn genesisHash gone) (inOrder held setNumbers) :=
    (chained_append.1 (hgone ▸ hwrites.chained)).2
  have hheld : ∀ n ∈ setFiles files, (held n).isSome := by
    intro n hn
    rw [hfiles] at hn
    exact (mem_filter.1 hn).2
  rw [hlaid.setLines_eq, length_map, verifyChainSet]
  have hle := setFiles_le files
  -- The oldest file comes first, and opens with a value that justifies its anchor.
  obtain ⟨first, others, hcons⟩ : ∃ first others, setFiles files = first :: others :=
    exists_cons_of_ne_nil (by simp [setFiles])
  rw [hcons] at hle hheld horder ⊢
  obtain ⟨segment, hsegment⟩ := Option.isSome_iff_exists.1 (hheld first mem_cons_self)
  obtain ⟨value, rest, rfl, hjust⟩ := h.opens first segment hsegment
  refine (hlaid.verifyFiles_trusted_iff hle _).2 ⟨hheld, rfl, _, horder ▸ hchain, ?_⟩
  refine hjust.imp (fun hgenesis => ?_) fun hrotate => ⟨value, rest, hsegment, hrotate⟩
  have hhead : inOrder held setNumbers = value :: (rest ++ inOrder held others) := by
    rw [← horder]
    simp [inOrder, hsegment]
  rw [hhead, Chained] at hchain
  rw [← hchain.1, hgenesis]

end

end Holds

namespace Honest

variable {c : Codec}

/-- What holds of a log between two events: its files hold the end of what was written, the last
of it in the live file, and the writer goes on from there. -/
structure Whole (c : Codec) (honest : Honest) (held : Nat → Option (List Json)) : Prop where
  writes : Writes c honest.written honest.log.lastHash
  holds : Holds c honest.log.files honest.written held
  live : held 0 = none → honest.written = []

/-- The log that a daemon opens on such files. -/
theorem whole_open {files : Files} {written : List Json} {held : Nat → Option (List Json)}
    {lastHash : Str} (hfaithful : Faithful c written) (hwrites : Writes c written lastHash)
    (hholds : Holds c files written held) (hlive : held 0 = none → written = []) :
    Whole c ⟨.open c files, written⟩ held := by
  refine ⟨⟨hwrites.chained, hwrites.intact, ?_⟩, hholds, hlive⟩
  exact hholds.reopened hlive hfaithful hwrites.intact

section Step

variable {honest : Honest} {held : Nat → Option (List Json)}

section

variable (h : Whole c honest held)
include h

/-- The header of a fresh live file, after the others were moved up. -/
theorem Whole.header (ts : Str) :
    ∃ held', Whole c ⟨({ honest.log with files := rotateAudit honest.log.files }.appendLocked c
        (Entry.header ts).value).2,
      honest.written ++ [c.stamp honest.log.lastHash (Entry.header ts).value]⟩ held' ∧
        held' 0 ≠ none := by
  obtain ⟨rotated, hrotated, -⟩ := h.holds.rotate
  have hrotate : IsRotate (c.stamp honest.log.lastHash (Entry.header ts).value) := by
    rw [IsRotate, strField_stamp_method]
    rfl
  obtain ⟨held', hheld', hlive⟩ := hrotated.write fun _ => .inr hrotate
  exact ⟨held', ⟨h.writes.stamp _, hheld', fun hnone => (hlive hnone).elim⟩, hlive⟩

/-- An entry, in the live file or in a first one. -/
theorem Whole.entry (entry : Entry) :
    ∃ held', Whole c ⟨(honest.log.appendLocked c entry.value).2,
      honest.written ++ [c.stamp honest.log.lastHash entry.value]⟩ held' ∧ held' 0 ≠ none := by
  have hjust : held 0 = none → prevOf (c.stamp honest.log.lastHash entry.value) = genesisHash ∨
      IsRotate (c.stamp honest.log.lastHash entry.value) := by
    intro hnone
    left
    rw [prevOf_stamp, h.writes.last, h.live hnone]
    rfl
  obtain ⟨held', hheld', hlive⟩ := h.holds.write hjust
  exact ⟨held', ⟨h.writes.stamp _, hheld', fun hnone => (hlive hnone).elim⟩, hlive⟩

/-- After an append there is a live file. -/
theorem Whole.append (entry : Entry) (ts : Str) :
    ∃ held', Whole c (honest.step c (.append entry ts)) held' ∧ held' 0 ≠ none := by
  simp only [step, LensAuditLog.appendBlocking]
  split_ifs with hover
  · obtain ⟨headed, hheaded, -⟩ := h.header ts
    obtain ⟨held', hheld', hlive⟩ := hheaded.entry entry
    rw [append_cons]
    exact ⟨held', hheld', hlive⟩
  · exact h.entry entry

/-- A stop in any other place leaves the end of the log where the next daemon finds it. -/
theorem Whole.stop (entry : Entry) (ts : Str) (operations : Nat)
    (hfaithful : Faithful c (honest.crashStep c (.stop entry ts operations)).written)
    (hbeheads : ¬ honest.Beheads (.stop entry ts operations)) :
    ∃ held', Whole c (honest.crashStep c (.stop entry ts operations)) held' := by
  have hwhole := h.append entry ts
  simp only [step] at hwhole
  simp only [crashStep, LensAuditLog.stopped] at hfaithful ⊢
  by_cases hover : honest.log.oversized = true
  · rw [if_pos hover] at hfaithful ⊢
    by_cases hrenames : operations ≤ renames.length
    · rw [if_pos hrenames] at hfaithful ⊢
      have hlt : operations < renames.length :=
        lt_of_le_of_ne hrenames fun heq => hbeheads ⟨hover, heq⟩
      obtain ⟨held', hheld', hsame⟩ := h.holds.shifted (k := operations) (Nat.le_of_lt_succ hlt)
      rw [append_nil] at hfaithful ⊢
      exact ⟨held', whole_open hfaithful h.writes hheld' fun hnone => h.live (hsame.1 ▸ hnone)⟩
    · rw [if_neg hrenames] at hfaithful ⊢
      by_cases hheader : operations = renames.length + 1
      · rw [if_pos hheader] at hfaithful ⊢
        obtain ⟨held', hheld', -⟩ := h.header ts
        exact ⟨held', whole_open hfaithful hheld'.writes hheld'.holds hheld'.live⟩
      · rw [if_neg hheader] at hfaithful ⊢
        obtain ⟨held', hheld', -⟩ := hwhole
        exact ⟨held', whole_open hfaithful hheld'.writes hheld'.holds hheld'.live⟩
  · rw [if_neg hover] at hfaithful ⊢
    by_cases hzero : operations = 0
    · rw [if_pos hzero, append_nil] at hfaithful ⊢
      exact ⟨held, whole_open hfaithful h.writes h.holds h.live⟩
    · rw [if_neg hzero] at hfaithful ⊢
      obtain ⟨held', hheld', -⟩ := hwhole
      exact ⟨held', whole_open hfaithful hheld'.writes hheld'.holds hheld'.live⟩

theorem Whole.crashStep (event : CrashEvent)
    (hfaithful : Faithful c (honest.crashStep c event).written)
    (hbeheads : ¬ honest.Beheads event) : ∃ held', Whole c (honest.crashStep c event) held' := by
  cases event with
  | append entry ts =>
    obtain ⟨held', hheld', -⟩ := h.append entry ts
    exact ⟨held', hheld'⟩
  | stop entry ts operations => exact h.stop entry ts operations hfaithful hbeheads

end

end Step

theorem written_prefix_crashStep (honest : Honest) (event : CrashEvent) :
    honest.written <+: (honest.crashStep c event).written := by
  cases event with
  | append entry ts => exact written_prefix_step _
  | stop entry ts operations => exact prefix_append _ _

theorem crashRun_concat (events : List CrashEvent) (event : CrashEvent) :
    crashRun c (events ++ [event]) = (crashRun c events).crashStep c event := by
  rw [crashRun, foldl_append]
  rfl

/-- Behind the last rename there is no live file, and the next daemon starts from nothing. -/
theorem crashStep_stop_renamed {log : LensAuditLog} (hover : log.oversized = true)
    (written : List Json) (entry : Entry) (ts : Str) :
    crashStep c ⟨log, written⟩ (.stop entry ts renames.length) =
      ⟨⟨rotateAudit log.files, genesisHash⟩, written⟩ := by
  simp only [crashStep, LensAuditLog.stopped, hover, if_true, le_refl, take_length,
    ← rotateAudit_eq, LensAuditLog.open, rotateAudit_zero, lastHashInFile,
    bind_eq_bind, bind_none, getD_none, append_nil]

/-- Behind the header the next daemon goes on from its hash. -/
theorem crashStep_stop_header {log : LensAuditLog} (hover : log.oversized = true)
    (written : List Json) (entry : Entry) (ts : Str) :
    crashStep c ⟨log, written⟩ (.stop entry ts (renames.length + 1)) =
      ⟨.open c (update (rotateAudit log.files) 0
          (some (c.toVec (c.stamp log.lastHash (.object (LensAuditLog.rotateHeader ts))) ++
            ['\n']))),
        written ++ [c.stamp log.lastHash (.object (LensAuditLog.rotateHeader ts))]⟩ := by
  simp only [crashStep, LensAuditLog.stopped, LensAuditLog.appendBlocking, hover, if_true,
    Nat.not_succ_le_self, if_false, LensAuditLog.appendLocked, rotateAudit_zero, getD_none,
    nil_append]

/-- Whatever was appended and wherever the daemon stopped, unless it was there. -/
theorem crashRun_whole {events : List CrashEvent}
    (hfaithful : Faithful c (crashRun c events).written)
    (hevents : ∀ before event after, events = before ++ event :: after →
      ¬ (crashRun c before).Beheads event) : ∃ held, Whole c (crashRun c events) held := by
  induction events using List.reverseRecOn with
  | nil =>
    refine ⟨fun _ => none, ⟨⟨trivial, by simp [crashRun, fresh], rfl⟩, ⟨?_, ?_, ?_, ?_⟩, ?_⟩⟩
    · exact fun n _ => rfl
    · exact ⟨[], rfl⟩
    · simp
    · exact fun n _ => rfl
    · exact fun _ => rfl
  | append_singleton events event ih =>
    rw [crashRun_concat] at hfaithful ⊢
    obtain ⟨held, hwhole⟩ := ih (hfaithful.mono (written_prefix_crashStep _ event).subset)
      fun before event' after hsplit => hevents before event' (after ++ [event]) (by simp [hsplit])
    exact hwhole.crashStep event hfaithful (hevents events event [] rfl)

end Honest

/-- An honest log is accepted after the next append, wherever the daemon was stopped before,
except for stops between the last rename of a rotation and its header. -/
theorem verifyChainSet_crashes (c : Codec) (events : List CrashEvent) (entry : Entry) (ts : Str)
    (hfaithful : Faithful c (Honest.crashRun c (events ++ [.append entry ts])).written)
    (hevents : ∀ before event after, events = before ++ event :: after →
      ¬ (Honest.crashRun c before).Beheads event) :
    c.verifyChainSet (Honest.crashRun c (events ++ [.append entry ts])).log.files =
      .ok (setLines (Honest.crashRun c (events ++ [.append entry ts])).log.files).length := by
  rw [Honest.crashRun_concat] at hfaithful ⊢
  obtain ⟨held, hwhole⟩ := Honest.crashRun_whole
    (hfaithful.mono (Honest.written_prefix_crashStep _ _).subset) hevents
  obtain ⟨held', hheld', hlive⟩ := hwhole.append entry ts
  exact hheld'.holds.accepted hlive hfaithful hheld'.writes

theorem length_le_byteLen (text : Str) : text.length ≤ byteLen text := by
  induction text with
  | nil => exact le_rfl
  | cons ch rest ih =>
    have hch := Char.utf8Size_pos ch
    rw [byteLen] at ih ⊢
    rw [length_cons, map_cons, sum_cons]
    omega

/-- A rotation of a live file alone. -/
theorem rotateAudit_single (text : Str) {n : Nat} (hn : n ≤ auditKeepRotations) :
    rotateAudit (update (fun _ => none) 0 (some text)) n = if n = 1 then some text else none := by
  cases n with
  | zero => exact rotateAudit_zero _
  | succ n =>
    rw [rotateAudit_succ (fun _ => by simp) hn]
    by_cases hzero : n = 0
    · simp [hzero]
    · simp [hzero]

namespace Sample

def longHash : Str := "9d0c07e767183130a4f74818504c27b050061d15ab20c61de302be9211409dcc".toList
def headerHash : Str := "56d452e9d1694820161ef25faab2819294f213f43a770c06e11d8c947cd73228".toList
def behindHash : Str := "05fd88776c84277a2f0ff3c9b0ff3fc6cf739fc57f65fca0aab8125a5dc2d6fb".toList

/-- An argument as long as a log file may get. -/
def argv : Json := .string (List.replicate auditRotateAtBytes 'a')

def longEntry : Entry where
  fields := [("argv".toList, argv)]
  sorted := by simp
  noPrevHash := by rfl
  noHash := by rfl

def long : Json :=
  .object [("argv".toList, argv), (keyHash, .string longHash), (keyPrevHash, .string genesisHash)]

/-- The header behind the long entry, and the first entry behind the header. -/
def header : Json :=
  .object ((keyHash, .string headerHash) :: insertField keyPrevHash (.string longHash)
    (LensAuditLog.rotateHeader []))

def behind : Json :=
  .object [(keyHash, .string behindHash), (keyMethod, .string "lens.run".toList),
    (keyPrevHash, .string headerHash)]

def values : List Json := [first, header, behind, long]

def longCodec : Codec := codecOf values

/-- What a log that is told an entry writes. -/
theorem stamped {value : Json} (hmem : value ∈ values) {prev : Str} {entry : Json}
    (hprev : prevOf value = prev)
    (hchained : insertKey keyPrevHash (.string prev) entry = removeKey keyHash value)
    (hvalue : insertKey keyHash (.string (hashIn value)) (removeKey keyHash value) = value) :
    longCodec.hashOf prev (insertKey keyPrevHash (.string prev) entry) = hashIn value ∧
      longCodec.stamp prev entry = value := by
  have hnodup : (values.map fun value =>
    prevOf value ++ compact (removeKey keyHash value)).Nodup := by
    decide +kernel
  have hhex : ∀ value ∈ values, hexEncode (unhex (hashIn value)) = hashIn value := by
    decide +kernel
  have hhash : longCodec.hashOf prev (removeKey keyHash value) = hashIn value := by
    rw [hashOf, longCodec, codecOf, ← hprev]
    dsimp only
    rw [find?_of_nodup hnodup hmem]
    exact hhex value hmem
  rw [stamp, hchained, hhash]
  exact ⟨rfl, hvalue⟩

theorem length_long : auditRotateAtBytes < (compact long).length := by
  have hlength (filler : Str) : filler.length < (compact (.object [("argv".toList,
      .string filler), (keyHash, .string longHash),
      (keyPrevHash, .string genesisHash)])).length := by
    simp [compact]
    omega
  have hlong := hlength (List.replicate auditRotateAtBytes 'a')
  rwa [length_replicate] at hlong

theorem written_long : longCodec.hashOf genesisHash
      (insertKey keyPrevHash (.string genesisHash) longEntry.value) = longHash ∧
    longCodec.stamp genesisHash longEntry.value = long :=
  stamped (.tail _ (.tail _ (.tail _ (.head _)))) rfl rfl rfl

theorem stamp_after : longCodec.stamp genesisHash firstEntry.value = first :=
  (stamped (.head _) rfl rfl rfl).2

theorem oneLine_compact {filler : Str} (h : '\n' ∉ filler) : OneLine (compact (.object
    [("argv".toList, .string filler), (keyHash, .string longHash),
      (keyPrevHash, .string genesisHash)])) := by
  have hhash : '\n' ∉ longHash := by decide
  have hgenesis : '\n' ∉ genesisHash := by decide
  have hkeyHash : '\n' ∉ keyHash := by decide
  have hkeyPrevHash : '\n' ∉ keyPrevHash := by decide
  refine ⟨?_, ?_⟩
  · simp only [compact, map_cons, map_nil, List.intersperse, flatten_cons,
      flatten_nil, mem_cons, mem_append, not_mem_nil, h, hhash, hgenesis,
      hkeyHash, hkeyPrevHash, or_false]
    decide
  · rw [compact, List.getLast?_concat]
    decide

theorem oneLine_long : OneLine (compact long) := by
  refine oneLine_compact fun hmem => ?_
  have hchar := eq_of_mem_replicate hmem
  revert hchar
  decide

theorem faithful_long : Faithful longCodec values := by
  refine faithful_codecOf (by decide +kernel) fun value hmem => ?_
  simp only [values, mem_cons, not_mem_nil, or_false] at hmem
  obtain rfl | rfl | rfl | rfl := hmem
  · exact ⟨by decide, by decide⟩
  · exact ⟨by decide, by decide⟩
  · exact ⟨by decide, by decide⟩
  · exact oneLine_long

/-- The log with a long entry, oversized. -/
def longLog : LensAuditLog := ⟨update (fun _ => none) 0 (some (compact long ++ ['\n'])), longHash⟩

theorem run_long : Honest.crashRun longCodec [.append longEntry []] = ⟨longLog, [long]⟩ := by
  have hover : (Honest.fresh longCodec).log.oversized = false := rfl
  have hhead : (Honest.fresh longCodec).log.lastHash = genesisHash := rfl
  simp only [Honest.crashRun, foldl_cons, foldl_nil, Honest.crashStep, Honest.step,
    LensAuditLog.appendBlocking, hover, Bool.false_eq_true, if_false, LensAuditLog.appendLocked,
    hhead, written_long.1, written_long.2]
  have hfiles : (Honest.fresh longCodec).log.files = fun _ => none := rfl
  have hnothing : (Honest.fresh longCodec).written = [] := rfl
  have htext : longCodec.toVec long = compact long := rfl
  rw [hfiles, hnothing, htext, getD_none, nil_append, nil_append, longLog]

theorem oversized_long : longLog.oversized = true := by
  have hlength := length_long
  have hbytes := length_le_byteLen (compact long ++ ['\n'])
  rw [length_append] at hbytes
  simp only [LensAuditLog.oversized, longLog, update_self, decide_eq_true_eq]
  omega

/-- A daemon that stopped behind the header of a rotation. -/
def rotating : List CrashEvent :=
  [.append longEntry [], .stop firstEntry [] (renames.length + 1)]

theorem run_rotating : Honest.crashRun longCodec rotating =
    ⟨⟨update (rotateAudit longLog.files) 0 (some (compact header ++ ['\n'])), headerHash⟩,
      [long, header]⟩ := by
  have hrun := Honest.crashRun_concat (c := longCodec) [.append longEntry []]
    (.stop firstEntry [] (renames.length + 1))
  rw [singleton_append, run_long] at hrun
  have hheader : longCodec.stamp longLog.lastHash (.object (LensAuditLog.rotateHeader [])) =
      header := (stamped (.tail _ (.head _)) rfl rfl rfl).2
  have hlast : longCodec.lastHashInFile (some (compact header ++ ['\n'])) = some headerHash := by
    decide +kernel
  have htext : longCodec.toVec header = compact header := rfl
  have hstop : Honest.crashStep longCodec ⟨longLog, [long]⟩
      (.stop firstEntry [] (renames.length + 1)) = _ :=
    Honest.crashStep_stop_header oversized_long [long] firstEntry []
  rw [rotating, hrun, hstop, hheader, LensAuditLog.open, update_self, htext, hlast, getD_some,
    singleton_append]

/-- The next daemon goes on behind the header. -/
theorem verifyChainSet_crashes_rotating :
    longCodec.verifyChainSet
        (Honest.crashRun longCodec (rotating ++ [.append firstEntry []])).log.files =
      .ok (setLines
        (Honest.crashRun longCodec (rotating ++ [.append firstEntry []])).log.files).length := by
  refine verifyChainSet_crashes longCodec rotating firstEntry [] ?_ ?_
  · have hsmall : (Honest.crashRun longCodec rotating).log.oversized = false := by
      rw [run_rotating, LensAuditLog.oversized]
      simp only [update_self]
      decide +kernel
    have hbehind : longCodec.stamp headerHash firstEntry.value = behind :=
      (stamped (.tail _ (.tail _ (.head _))) rfl rfl rfl).2
    have hwritten := Honest.written_append (c := longCodec) hsmall firstEntry []
    rw [Honest.crashRun_concat, Honest.crashStep, hwritten, run_rotating]
    dsimp only
    rw [hbehind]
    refine faithful_long.mono fun value hmem => ?_
    simp only [cons_append, nil_append, mem_cons, not_mem_nil, or_false] at hmem
    obtain rfl | rfl | rfl := hmem
    · exact .tail _ (.tail _ (.tail _ (.head _)))
    · exact .tail _ (.head _)
    · exact .tail _ (.tail _ (.head _))
  · intro before event after hsplit hbeheads
    have hmem : event ∈ rotating := by
      rw [hsplit]
      simp
    rcases mem_pair.1 hmem with rfl | rfl
    · exact hbeheads
    · exact absurd hbeheads.2 (by decide)

/-- The files when the daemon has stopped behind the last rename. -/
def beheaded : Files := rotateAudit longLog.files

theorem run_stopped : Honest.crashRun longCodec
    [.append longEntry [], .stop firstEntry [] renames.length] =
      ⟨⟨beheaded, genesisHash⟩, [long]⟩ := by
  have hrun := Honest.crashRun_concat (c := longCodec) [.append longEntry []]
    (.stop firstEntry [] renames.length)
  have hstop : Honest.crashStep longCodec ⟨longLog, [long]⟩ (.stop firstEntry [] renames.length) =
      ⟨⟨rotateAudit longLog.files, genesisHash⟩, [long]⟩ :=
    Honest.crashStep_stop_renamed oversized_long [long] firstEntry []
  rw [singleton_append, run_long, hstop] at hrun
  rw [hrun, beheaded]

/-- The set that the next daemon leaves. -/
theorem laid_beheaded : Laid longCodec
    (Honest.crashRun longCodec ([.append longEntry [], .stop firstEntry [] renames.length] ++
      [.append firstEntry []])).log.files
    fun n => if n = 0 then some [first] else if n = 1 then some [long] else none := by
  have hbeheaded : ∀ n ≤ auditKeepRotations,
      beheaded n = if n = 1 then some (compact long ++ ['\n']) else none := by
    intro n hn
    have hfiles : longLog.files = update (fun _ => none) 0
        (some (compact long ++ ['\n'])) := by rw [longLog]
    rw [beheaded, hfiles]
    generalize compact long ++ ['\n'] = text
    exact rotateAudit_single text hn
  have hgone : beheaded 0 = none := hbeheaded 0 (Nat.zero_le _)
  have hover : LensAuditLog.oversized ⟨beheaded, genesisHash⟩ = false := by
    rw [LensAuditLog.oversized]
    simp only [hgone]
  have hfirst : longCodec.toVec first = compact first := rfl
  have hlong : longCodec.toVec long = compact long := rfl
  have hfiles : (Honest.crashRun longCodec ([.append longEntry [],
      .stop firstEntry [] renames.length] ++ [.append firstEntry []])).log.files =
        update beheaded 0 (some (compact first ++ ['\n'])) := by
    rw [Honest.crashRun_concat, run_stopped]
    simp only [Honest.crashStep, Honest.step, LensAuditLog.appendBlocking, hover,
      Bool.false_eq_true, if_false, LensAuditLog.appendLocked, stamp_after, hgone, hfirst,
      getD_none, nil_append]
  refine ⟨fun n hn => ?_, ?_, ?_⟩
  · rw [hfiles]
    by_cases hzero : n = 0
    · rw [if_pos hzero, hzero, update_self, map_some, textOf, fileOf,
        map_singleton, flatMap_singleton, hfirst]
    · rw [if_neg hzero, update_of_ne hzero, hbeheaded n hn]
      split_ifs with hone
      · rw [map_some, textOf, fileOf, map_singleton, flatMap_singleton, hlong]
      · rfl
  · intro n values hheld
    split_ifs at hheld
    all_goals
      cases hheld
      exact faithful_long.mono (by simp [values])
  · intro n values hheld
    split_ifs at hheld
    · cases hheld
      simpa using stamp_after ▸ intact_stamp longCodec genesisHash firstEntry
    · cases hheld
      simpa using written_long.2 ▸ intact_stamp longCodec genesisHash longEntry

/-- The next daemon starts from the genesis hash behind a file that does not end in it. -/
theorem verifyChainSet_beheaded : ¬ ∃ n,
    longCodec.verifyChainSet (Honest.crashRun longCodec
      ([.append longEntry [], .stop firstEntry [] renames.length] ++
        [.append firstEntry []])).log.files = .ok n := by
  rintro ⟨n, haccepted⟩
  have hlaid := laid_beheaded
  have hfiles : setFiles (Honest.crashRun longCodec ([.append longEntry [],
      .stop firstEntry [] renames.length] ++ [.append firstEntry []])).log.files = [1, 0] := by
    have hsome := fun n (hn : n ≤ auditKeepRotations) => congrArg isSome (hlaid.text n hn)
    simp only [setFiles, auditKeepRotations, List.range', filter_cons, filter_nil,
      hsome 1 (by decide), hsome 2 (by decide), hsome 3 (by decide), hsome 4 (by decide),
      hsome 5 (by decide), isSome_map, Nat.reduceAdd]
    rfl
  rw [verifyChainSet, hfiles] at haccepted
  obtain ⟨-, -, start, hchain, -⟩ := (hlaid.verifyFiles_trusted_iff (by decide) n).1 haccepted
  have hprev : prevOf first = genesisHash := by rw [← stamp_after, prevOf_stamp]
  have hhash : hashIn long = longHash := rfl
  have horder : inOrder
    (fun n => if n = 0 then some [first] else if n = 1 then some [long] else none)
      [1, 0] = [long, first] := by simp [inOrder]
  rw [horder, Chained, Chained, hprev, hhash] at hchain
  have hheads : genesisHash = longHash := hchain.2.1
  revert hheads
  decide

end Sample

end Shux.Lens
