/-
# Status from end to end

A program writes its reports as strings among its other output, and the terminal scans that in
reads of any length. Its records become what the reports say, one after the other, and the scanner
is left as if nothing had been there.
-/

import Shux.ProgramStatus.Generation
import Shux.Vt.OscGrammar

namespace Shux.ProgramStatus

open List Vt

/-- A byte of a payload neither ends a string nor is dropped from one. -/
theorem plain_of_legible {b : UInt8} (h : isValueByte b = true ∨ b = 0x3a) :
    endsString b = false ∧ OscStatusScanner.ignored b = false := by
  have hle : 0x2b ≤ b := by
    unfold isValueByte isAsciiAlphanumeric at h
    simp only [Bool.or_eq_true, Bool.and_eq_true, decide_eq_true_eq, beq_iff_eq,
      ← UInt8.toNat_inj, UInt8.le_iff_toNat_le, UInt8.reduceToNat] at h ⊢
    omega
  unfold endsString OscStatusScanner.ignored
  grind

/-- What a program writes: bytes without an ESC, or a report. -/
inductive Output where
  | text (bytes : List UInt8)
  | report (report : Report) (bel : Bool)

namespace Output

def Valid : Output → Prop
  | .text bytes => ∀ b ∈ bytes, (b == 0x1b) = false
  | .report r _ => r.Valid

def report? : Output → Option Report
  | .text _ => none
  | .report r _ => some r

end Output

variable [Base64Engine]

/-- The string of a report, between its introducer and its terminator. -/
def content (report : Report) : List UInt8 := oscNumber ++ 0x3b :: encodePayload report

def Output.wire : Output → List UInt8
  | .text bytes => bytes
  | .report r bel => 0x1b :: 0x5d :: (content r ++ terminator bel)

/-- What a finished string does to the status of a terminal, a reply aside. -/
def dispatchProgramStatus (s : VtProgramStatus × Nat) (cut : StatusCut) : VtProgramStatus × Nat :=
  match cut.item with
  | .report payload bel =>
    let (ps, counter, _) := s.1.onReport s.2 payload (terminator bel)
    (ps, counter)
  | .promptStart => s.1.onPromptStart s.2
  | .commandStart | .commandEnd _ => s

/-- A report taken in, under a stamp of its own. -/
def takeReport (s : VtProgramStatus × Nat) (report : Report) : VtProgramStatus × Nat :=
  s.1.change (s.2 + 1) (.report report (s.2 + 1)) true

variable (hstandard : Base64Engine.Standard)
include hstandard

theorem plain_content {report : Report} (h : report.Valid) :
    ∀ b ∈ content report, endsString b = false ∧ OscStatusScanner.ignored b = false := by
  refine forall_mem_append.mpr ⟨fun b hb => plain_of_legible (.inl ?_),
    forall_mem_cons.mpr ⟨by decide, fun b hb => plain_of_legible ?_⟩⟩
  · exact all_eq_true.mp (by decide : oscNumber.all isValueByte = true) b hb
  · exact (spells_encodePayload hstandard h).legible b hb

theorem finished_content {report : Report} (h : report.Valid) (bel : Bool) :
    finished (content report) bel = some (.report (encodePayload report) bel) := by
  have hlength := length_encodePayload hstandard h
  have hcontent : (content report).length = (encodePayload report).length + 5 := by
    rw [content, length_append, length_cons, Nat.add_comm]
    rfl
  have hfits : wireLength (content report) bel ≤ Vt.maxSequenceBytes := by
    unfold maxPayloadBytes ProgramStatus.maxSequenceBytes framingBytes at hlength
    unfold wireLength Vt.maxSequenceBytes
    split <;> omega
  have hstored : storedBody (content report) = content report :=
    filter_eq_self.mpr fun b hb => by rw [(plain_content hstandard h b hb).2]; rfl
  unfold finished
  rw [if_pos hfits, hstored]
  exact classify_of_report _ bel

/-- A report is told once, at the end of its string. -/
theorem run_report {report : Report} (h : report.Valid) (bel : Bool) (base : Nat) :
    ∃ stop, oscAutomaton.run .ground base (Output.report report bel).wire =
      (.ground, [⟨stop, .report (encodePayload report) bel⟩]) := by
  have hcontent := OscState.run_content (fun b hb => (plain_content hstandard h b hb).1) []
    (base + 1 + 1)
  have hfinished := finished_content hstandard h bel
  have hopen : oscAutomaton.run .ground base (Output.report report bel).wire =
      oscAutomaton.run (.string []) (base + 1 + 1) (content report ++ terminator bel) := rfl
  rw [hopen, Transducer.run_append, hcontent, nil_append]
  cases bel with
  | true =>
    refine ⟨base + 1 + 1 + (content report).length + 1, ?_⟩
    show (OscState.ground, (Option.map _ (finished (content report) true)).toList ++ []) = _
    rw [hfinished]
    rfl
  | false =>
    refine ⟨base + 1 + 1 + (content report).length + 1 + 1, ?_⟩
    show (OscState.ground, (Option.map _ (finished (content report) false)).toList ++ []) = _
    rw [hfinished]
    rfl

/-- A piece of output leaves the scanner outside strings, and does what it says. -/
theorem run_wire {out : Output} (h : out.Valid) (base : Nat) :
    ∃ cuts, oscAutomaton.run .ground base out.wire = (.ground, cuts) ∧
      ∀ s, cuts.foldl dispatchProgramStatus s = out.report?.toList.foldl takeReport s := by
  cases out with
  | text bytes => exact ⟨[], OscState.run_text h base, fun s => rfl⟩
  | report r bel =>
    obtain ⟨stop, hrun⟩ := run_report hstandard h bel base
    refine ⟨_, hrun, fun s => ?_⟩
    rw [foldl_cons, foldl_nil, dispatchProgramStatus]
    dsimp only
    rw [VtProgramStatus.onReport, decode_encodePayload hstandard h]
    rfl

theorem run_wires {outs : List Output} (h : ∀ out ∈ outs, out.Valid) (base : Nat) :
    ∃ cuts, oscAutomaton.run .ground base (outs.flatMap Output.wire) = (.ground, cuts) ∧
      ∀ s, cuts.foldl dispatchProgramStatus s =
        (outs.filterMap Output.report?).foldl takeReport s := by
  induction outs generalizing base with
  | nil => exact ⟨[], rfl, fun s => rfl⟩
  | cons out outs ih =>
    obtain ⟨cuts, hrun, hcuts⟩ := run_wire hstandard (h out mem_cons_self) base
    obtain ⟨rest, hrest, hlater⟩ :=
      ih (fun o ho => h o (mem_cons_of_mem _ ho)) (base + out.wire.length)
    refine ⟨cuts ++ rest, ?_, fun s => ?_⟩
    · rw [flatMap_cons, Transducer.run_append, hrun, hrest]
    · rw [foldl_append, hcuts, hlater, ← foldl_append]
      congr 1
      cases hreport : out.report? <;> simp [hreport]

/-- However the output of a program is cut into reads, its reports are taken in once each and in
their order, and nothing else is. -/
theorem reports_arrive {outs : List Output} (h : ∀ out ∈ outs, out.Valid)
    {reads : List (List UInt8)} (hreads : reads.flatten = outs.flatMap Output.wire) :
    let scanned := Transducer.reads OscStatusScanner.scan .default 0 reads
    scanned.1 = .default ∧ ∀ s, scanned.2.foldl dispatchProgramStatus s =
      (outs.filterMap Output.report?).foldl takeReport s := by
  obtain ⟨cuts, hrun, hcuts⟩ := run_wires hstandard h 0
  have hscan := OscState.realises.reads .ground 0 reads
  rw [hreads, hrun] at hscan
  intro scanned
  rw [show scanned = (.default, cuts) from hscan]
  exact ⟨rfl, hcuts⟩

omit [Base64Engine] hstandard in
/-- A question behind a prompt, cut in the middle of its introducer. -/
theorem reports_arrive_ask :
    let outs : List Output := [.text [0x24], .report askReport true]
    let wire := outs.flatMap (@Output.wire standardEngine)
    let scanned := Transducer.reads OscStatusScanner.scan .default 0 [wire.take 3, wire.drop 3]
    scanned.1 = .default ∧ ∀ s, scanned.2.foldl (@dispatchProgramStatus standardEngine) s =
      takeReport s askReport := by
  intro outs wire scanned
  have hvalid : ∀ out ∈ outs, out.Valid :=
    forall_mem_cons.mpr ⟨forall_mem_singleton.mpr rfl, forall_mem_singleton.mpr valid_askReport⟩
  refine @reports_arrive standardEngine standardEngine_standard _ hvalid _ ?_
  rw [flatten_cons, flatten_singleton, take_append_drop]

end Shux.ProgramStatus
