/-
# The deadline of a synchronized-output window

A window is opened by `?2026h` and closed by `?2026l`, by a full reset, or by a release.
`SyncWindow` keeps for the window now open the clock reading of the batch it was opened in
and the bytes it has absorbed, following the calls of the bytes alone. The terminal keeps
its own age and byte count, stamped once at the end of a batch from the armed flag. The ages
agree as long as no batch closes the window it found open and leaves another one open; the byte
count has the bytes of the opening batch ahead of the opening too.
-/

import Shux.Vt.Geometry

namespace Shux.Vt

open Checked List

/-- Whether a call sets, or resets, the mode of synchronized output. -/
def Call.setsSync (enable : Bool) : Call → Bool
  | .csi params intermediates ignore action =>
    !ignore && (Csi.decode action intermediates == some (.setPrivateMode enable)) &&
      params.flatten.contains 2026
  | _ => false

/-- `?2026h`, alone or among other modes. -/
def Call.opensSync (c : Call) : Bool := c.setsSync true

/-- `?2026l`, or a full reset. -/
def Call.closesSync : Call → Bool
  | .esc intermediates ignore byte => !ignore && (Esc.decode byte intermediates == some .fullReset)
  | c => c.setsSync false

/-- Whether a window is open after a call. -/
def Call.syncAfter (c : Call) (isOpen : Bool) : Bool := !c.closesSync && (isOpen || c.opensSync)

theorem PrivateMode.decode_sync {p : Nat} (h : PrivateMode.decode p = some .synchronizedOutput) :
    p = 2026 := by
  unfold PrivateMode.decode at h
  split at h
  all_goals first
    | rfl
    | cases h

theorem PrivateMode.kind_hold {mode : PrivateMode} {enable : Bool}
    (h : mode.kind enable = some .hold) : mode = .synchronizedOutput ∧ enable = true := by
  cases mode <;> cases enable <;> first
    | exact ⟨rfl, rfl⟩
    | cases h

theorem PrivateMode.kind_release {mode : PrivateMode} {enable : Bool}
    (h : mode.kind enable = some .release) : mode = .synchronizedOutput ∧ enable = false := by
  cases mode <;> cases enable <;> first
    | exact ⟨rfl, rfl⟩
    | cases h

theorem PrivateMode.kind_ne_reset (mode : PrivateMode) (enable : Bool) :
    mode.kind enable ≠ some .reset := by
  cases mode <;> cases enable <;> exact fun h => by cases h

theorem Call.opensSync_of_uses {c : Call} (h : c.uses .hold) : c.opensSync = true := by
  cases c with
  | csi params intermediates ignore action =>
    obtain ⟨rfl, enable, mode, p, hop, hp, hmode, hkind⟩ := h
    obtain ⟨rfl, rfl⟩ := PrivateMode.kind_hold hkind
    have hp2026 := PrivateMode.decode_sync hmode
    subst hp2026
    simp only [opensSync, setsSync, hop, beq_self_eq_true, Bool.not_false, Bool.true_and]
    exact List.contains_iff_mem.mpr hp
  | esc intermediates ignore byte => cases h.2.2
  | _ => cases h

theorem Call.closesSync_of_uses {c : Call} (h : c.uses .release ∨ c.uses .reset) :
    c.closesSync = true := by
  cases c with
  | csi params intermediates ignore action =>
    rcases h with ⟨rfl, enable, mode, p, hop, hp, hmode, hkind⟩ | ⟨-, _, mode, _, -, -, -, hkind⟩
    · obtain ⟨rfl, rfl⟩ := PrivateMode.kind_release hkind
      have hp2026 := PrivateMode.decode_sync hmode
      subst hp2026
      simp only [closesSync, setsSync, hop, beq_self_eq_true, Bool.not_false, Bool.true_and]
      exact List.contains_iff_mem.mpr hp
    · exact absurd hkind (mode.kind_ne_reset _)
  | esc intermediates ignore byte =>
    rcases h with ⟨-, -, hkind⟩ | ⟨rfl, hop, -⟩
    · cases hkind
    · simp only [closesSync, hop, beq_self_eq_true, Bool.not_false, Bool.true_and]
  | _ => exact h.elim (fun h => by cases h) (fun h => by cases h)

namespace Terminal

variable {t : Terminal}
variable {intermediates : List UInt8}

theorem syncArmed_commit (t : Terminal) (h : Handler) : (t.commit h).syncArmed = t.syncArmed := by
  rw [commit, freeze_eq]

theorem syncArmed_hold (t : Terminal) : (t.setSynchronizedOutput true).syncArmed = true := by
  refine hold_cases id (fun _ => ?_) fun _ => rfl
  rw [freezeWholePresentation, freezeAltFlag_eq, freeze_eq]
  rfl

theorem syncArmed_entered (t : Terminal) (parks : Bool) :
    (t.freezeForSwitch.entered parks).syncArmed = t.syncArmed := by
  rw [entered_eq, freezeForSwitch, freezeForSwap, freezeAltFlag_eq, freeze_eq]

theorem Ok.syncArmed_left (h : t.Ok) (halt : t.modes.alternateScreen = true) (parks : Bool) :
    (t.freezeForSwitch.left parks).syncArmed = t.syncArmed := by
  have hpark : t.freezeForSwitch.altGrid = t.altGrid := by
    rw [freezeForSwitch, freezeForSwap, freezeAltFlag_eq, freeze_eq]
  obtain ⟨primary, hprimary⟩ := h.exists_parked halt
  rw [left_eq (hpark.trans hprimary), freezeForSwitch, freezeForSwap, freezeAltFlag_eq, freeze_eq]

/-- What may happen without a window opening, or without one closing. -/
def keepsArmed (armed : Bool) : Kind → Prop
  | .hold => armed = true
  | .release => armed = false
  | .reset => armed = false
  | _ => True

theorem preserves_armed (armed : Bool) :
    Preserves (keepsArmed armed) fun t => t.Ok ∧ t.syncArmed = armed where
  ok h := h.1.screen
  balanced h := h.1.balanced
  parked h := h.1.parked
  commit {t h'} h hadv := ⟨h.1.commit hadv, (syncArmed_commit t h').trans h.2⟩
  sink h hsink := ⟨h.1.sink hsink, h.2⟩
  enter {t} parks _ _ h :=
    ⟨(h.1.freeze _).freezeAltFlag.entered parks, (syncArmed_entered t parks).trans h.2⟩
  leave {t} parks _ halt h :=
    ⟨(h.1.freeze _).freezeAltFlag.left (t.alternate_freezeForSwitch.trans halt) parks,
      (h.1.syncArmed_left halt parks).trans h.2⟩
  hold {t} harmed h := ⟨h.1.hold, (syncArmed_hold t).trans (Eq.symm harmed)⟩
  release harmed h := ⟨h.1.release, Eq.symm harmed⟩
  rewind harmed h := ⟨h.1.rewind, (fullReset_eq h.1.parked).1.1.trans (Eq.symm harmed)⟩

variable [Crates]

/-- A private mode keeps what every call keeps. -/
theorem setPrivateModes {allowed : Kind → Prop} {I : Terminal → Prop} (hI : Preserves allowed I)
    (h : I t) (enable : Bool) (params : List Nat)
    (hkinds : ∀ mode kind, PrivateMode.kind enable mode = some kind → allowed kind) :
    Runs (each params t (setPrivateMode enable)) I := by
  refine .each I h fun p _ t₁ h₁ => ?_
  have hmirror := hI.mirrors.bisim.toScreenBisim.setPrivateMode ⟨rfl, h₁⟩ enable p
    fun mode kind _ hkind => hkinds mode kind hkind
  refine hmirror.left.mono ?_
  rintro t₂ ⟨_, -, -, h₂⟩
  exact h₂

/-- Setting modes of which one is synchronized output. -/
theorem Ok.setPrivateModes_armed (h : t.Ok) (enable : Bool) {params : List Nat}
    (hmem : 2026 ∈ params) :
    Runs (each params t (setPrivateMode enable)) fun t' => t'.syncArmed = enable := by
  obtain ⟨before, after, rfl⟩ := append_of_mem hmem
  unfold each
  rw [foldlM_append]
  apply Runs.bind (setPrivateModes preserves_ok h enable before fun _ _ _ => trivial)
  intro t₁ h₁
  rw [foldlM_cons]
  have hset : setPrivateMode enable t₁ 2026 = some (t₁.setSynchronizedOutput enable) := rfl
  have harmed : (t₁.setSynchronizedOutput enable).Ok ∧
      (t₁.setSynchronizedOutput enable).syncArmed = enable := by
    cases enable with
    | true => exact ⟨h₁.hold, syncArmed_hold t₁⟩
    | false => exact ⟨h₁.release, rfl⟩
  rw [hset]
  refine (setPrivateModes (preserves_armed enable) harmed enable after ?_).mono fun _ h₂ => h₂.2
  intro mode kind hkind
  cases kind with
  | hold => exact (PrivateMode.kind_hold hkind).2
  | release => exact (PrivateMode.kind_release hkind).2
  | reset => exact absurd hkind (mode.kind_ne_reset enable)
  | _ => trivial

omit [Crates] in
theorem Ok.fullReset_armed (h : t.Ok) : Runs t.fullReset fun t' => t'.syncArmed = false := by
  obtain ⟨⟨harmed, hprimary⟩, heq⟩ := fullReset_eq h.parked
  have hreset : Runs (Handler.resetAll ⟨t.rewind.toScreen, .nothing⟩) _ :=
    Screen.Ok.resetAll h.rewind.screen hprimary
  have hscreen : Runs (t.rewind.onScreen Handler.resetAll) fun t' => t'.syncArmed = false :=
    Runs.bind hreset fun h' _ => .pure ((syncArmed_commit t.rewind h').trans harmed)
  rw [heq]
  exact .bind hscreen fun t' h' => .pure h'

/-- A sequence that sets or resets the mode. -/
theorem Ok.csiDispatch_armed (h : t.Ok) {params : Params}
    {ignore : Bool} {action : Char} {enable : Bool}
    (hsets : (Call.csi params intermediates ignore action).setsSync enable = true) :
    Runs (t.csiDispatch params intermediates ignore action) fun t' => t'.syncArmed = enable := by
  simp only [Call.setsSync, Bool.and_eq_true, Bool.not_eq_true', beq_iff_eq,
    contains_iff_mem] at hsets
  obtain ⟨⟨rfl, hop⟩, hmem⟩ := hsets
  have hcleared : Ok (if continuesTheCluster action intermediates then t
      else { t with activeGraphemeCell := none }) := by
    split
    · exact h
    · exact h.clearActive
  unfold csiDispatch
  rw [hop]
  exact hcleared.setPrivateModes_armed enable hmem

omit [Crates] in
theorem Ok.escDispatch_armed (h : t.Ok) {ignore : Bool} {byte : UInt8}
    (hcloses : (Call.esc intermediates ignore byte).closesSync = true) :
    Runs (t.escDispatch intermediates ignore byte) fun t' => t'.syncArmed = false := by
  simp only [Call.closesSync, Bool.and_eq_true, Bool.not_eq_true', beq_iff_eq] at hcloses
  obtain ⟨rfl, hop⟩ := hcloses
  unfold escDispatch
  rw [hop]
  exact h.clearActive.fullReset_armed

/-- The armed flag follows the sequences that open and close a window. -/
theorem Ok.call_armed (h : t.Ok) (c : Call) :
    Runs (t.call c) fun t' => t'.syncArmed = c.syncAfter t.syncArmed := by
  by_cases hcloses : c.closesSync = true
  · have hafter : c.syncAfter t.syncArmed = false := by rw [Call.syncAfter, hcloses]; rfl
    rw [hafter]
    cases c with
    | csi params intermediates ignore action => exact h.csiDispatch_armed hcloses
    | esc intermediates ignore byte => exact h.escDispatch_armed hcloses
    | _ => cases hcloses
  rw [Bool.not_eq_true] at hcloses
  by_cases hopens : c.opensSync = true
  · have hafter : c.syncAfter t.syncArmed = true := by
      rw [Call.syncAfter, hcloses, hopens, Bool.or_true]
      rfl
    rw [hafter]
    cases c with
    | csi params intermediates ignore action => exact h.csiDispatch_armed hopens
    | _ => cases hopens
  rw [Bool.not_eq_true] at hopens
  have hafter : c.syncAfter t.syncArmed = t.syncArmed := by
    rw [Call.syncAfter, hcloses, hopens, Bool.or_false]
    rfl
  rw [hafter]
  -- the call uses nothing that opens or closes a window
  have hkinds : ∀ kind, c.uses kind → keepsArmed t.syncArmed kind := by
    intro kind huses
    cases kind with
    | hold => exact absurd (Call.opensSync_of_uses huses) (ne_true_of_eq_false hopens)
    | release => exact absurd (Call.closesSync_of_uses (.inl huses)) (ne_true_of_eq_false hcloses)
    | reset => exact absurd (Call.closesSync_of_uses (.inr huses)) (ne_true_of_eq_false hcloses)
    | _ => trivial
  exact (Preserves.call (preserves_armed t.syncArmed) ⟨h, rfl⟩ c hkinds).mono fun _ h' => h'.2

omit [Crates] in
/-- Nothing inside a batch touches the stamps. -/
theorem preserves_stamps (opened bytes : Nat) :
    Preserves (fun _ => True) fun t => t.Ok ∧ t.syncOpenedNs = opened ∧ t.syncBytes = bytes := by
  refine preserves_ok.and ?_ ?_ ?_ ?_ ?_ ?_ ?_
  · intro t h hok hstamps hadv
    rw [commit, freeze_eq]
    exact hstamps
  · intro t sink hok hstamps hsink
    exact hstamps
  · intro t parks _ _ hok hstamps
    rw [entered_eq, freezeForSwitch, freezeForSwap, freezeAltFlag_eq, freeze_eq]
    exact hstamps
  · intro t parks _ halt hok hstamps
    have hpark : t.freezeForSwitch.altGrid = t.altGrid := by
      rw [freezeForSwitch, freezeForSwap, freezeAltFlag_eq, freeze_eq]
    obtain ⟨primary, hprimary⟩ := hok.exists_parked halt
    rw [left_eq (hpark.trans hprimary), freezeForSwitch, freezeForSwap, freezeAltFlag_eq, freeze_eq]
    exact hstamps
  · intro t _ hok hstamps
    refine hold_cases (fun _ => hstamps) (fun _ => ?_) fun _ => hstamps
    rw [freezeWholePresentation, freezeAltFlag_eq, freeze_eq]
    exact hstamps
  · intro t _ hok hstamps
    exact hstamps
  · intro t _ hok hstamps
    unfold rewind
    dsimp only
    split
    · next halt =>
      obtain ⟨primary, hprimary⟩ := hok.releaseSyncPresentation.exists_parked halt
      rw [left_eq hprimary]
      exact hstamps
    · exact hstamps

/-- Whether a window is open after the calls of a batch. -/
def syncAfter (isOpen : Bool) (calls : List Call) : Bool :=
  calls.foldl (fun isOpen c => c.syncAfter isOpen) isOpen

theorem Ok.calls_armed (h : t.Ok) (calls : List Call) :
    Runs (each calls t call) fun t' => t'.syncArmed = syncAfter t.syncArmed calls := by
  induction calls generalizing t with
  | nil => exact .pure rfl
  | cons c calls ih =>
    unfold each
    rw [foldlM_cons]
    refine .bind ((h.call_armed c).and (Preserves.call preserves_ok h c fun _ _ => trivial)) ?_
    rintro t₁ ⟨harmed, h₁⟩
    refine (ih h₁).mono fun t' h' => ?_
    rw [h', harmed]
    rfl

end Terminal

/-- The window now open: the clock reading of the batch that opened it, the bytes that
batch carried ahead of it, and the bytes it has absorbed itself. -/
structure SyncWindow where
  openedNs : Nat
  ahead : Nat
  absorbed : Nat
deriving DecidableEq, Repr

/-- Whether the window reaches the limit only with the bytes carried ahead of it. -/
def SyncWindow.topped (win : SyncWindow) : Bool :=
  decide (win.absorbed < syncUpdateMaxBytes ∧ syncUpdateMaxBytes ≤ win.ahead + win.absorbed)

def SyncWindow.absorb (win : SyncWindow) (n : Nat) : SyncWindow :=
  { win with absorbed := win.absorbed + n }

/-- A batch as it arrives: the clock reading at its end, its calls, each with the bytes up to
its end since the call before, and the bytes after the last call. -/
structure Batch where
  now : Nat
  calls : List (Call × Nat)
  rest : Nat
deriving Repr

namespace Batch

/-- Bytes of a list of calls. -/
def bytes (calls : List (Call × Nat)) : Nat := (calls.map Prod.snd).sum

def len (b : Batch) : Nat := bytes b.calls + b.rest

/-- What becomes of a window while the calls of a batch are made, the first of them after
`start` bytes of it. -/
def followCalls (now : Nat) : Nat → Option SyncWindow → List (Call × Nat) → Option SyncWindow
  | _, win, [] => win
  | start, win, (c, n) :: calls =>
    let win :=
      if c.closesSync then none
      else if c.opensSync then some ((win.map fun win => win.absorb n).getD ⟨now, start, n⟩)
      else win.map fun win => win.absorb n
    followCalls now (start + n) win calls

/-- What becomes of a window in a batch. -/
def follow (b : Batch) (win : Option SyncWindow) : Option SyncWindow :=
  (followCalls b.now 0 win b.calls).map fun win => win.absorb b.rest

/-- Whether the batch closes a window it found open and leaves another one open. -/
def trades (b : Batch) (isOpen : Bool) : Bool :=
  isOpen && b.calls.any (fun c => c.1.closesSync) &&
    Terminal.syncAfter isOpen (b.calls.map Prod.fst)

variable {now start : Nat} {win : Option SyncWindow} {calls : List (Call × Nat)}

theorem bytes_cons (c : Call) (n : Nat) (calls : List (Call × Nat)) :
    bytes ((c, n) :: calls) = n + bytes calls := by
  rw [bytes, map_cons, sum_cons, bytes]

theorem isSome_followCalls (now start : Nat) (win : Option SyncWindow) (calls : List (Call × Nat)) :
    (followCalls now start win calls).isSome =
      Terminal.syncAfter win.isSome (calls.map Prod.fst) := by
  induction calls generalizing start win with
  | nil => rfl
  | cons call calls ih =>
    obtain ⟨c, n⟩ := call
    rw [followCalls, ih, map_cons]
    show Terminal.syncAfter _ _ = Terminal.syncAfter (c.syncAfter win.isSome) _
    congr 1
    unfold Call.syncAfter
    cases c.closesSync with
    | true => rfl
    | false =>
      cases c.opensSync with
      | true =>
        rw [Bool.or_true]
        rfl
      | false =>
        rw [Bool.or_false]
        exact Option.isSome_map

/-- A window opened in the batch has all the bytes of the batch so far, ahead of it or
absorbed. -/
theorem followCalls_fresh
    (hwin : ∀ w, win = some w → w.openedNs = now ∧ w.ahead + w.absorbed = start) :
    ∀ w, followCalls now start win calls = some w →
      w.openedNs = now ∧ w.ahead + w.absorbed = start + bytes calls := by
  induction calls generalizing start win with
  | nil => exact hwin
  | cons call calls ih =>
    obtain ⟨c, n⟩ := call
    intro w hw
    rw [followCalls] at hw
    rw [bytes_cons, ← Nat.add_assoc]
    have habsorb : ∀ w, (win.map fun win => win.absorb n) = some w →
        w.openedNs = now ∧ w.ahead + w.absorbed = start + n := by
      intro w hw
      obtain ⟨old, hold, rfl⟩ := Option.map_eq_some_iff.mp hw
      obtain ⟨hopened, hbytes⟩ := hwin old hold
      refine ⟨hopened, ?_⟩
      show old.ahead + (old.absorbed + n) = start + n
      omega
    refine ih ?_ w hw
    intro w hw
    split at hw
    · cases hw
    · split at hw
      · cases hw
        cases hmap : win.map fun win => win.absorb n with
        | none => exact ⟨rfl, rfl⟩
        | some w => exact habsorb w hmap
      · exact habsorb w hw

/-- A window that no call closes absorbs every byte. -/
theorem followCalls_carried {w : SyncWindow} (hopen : ∀ c ∈ calls, c.1.closesSync = false) :
    followCalls now start (some w) calls = some (w.absorb (bytes calls)) := by
  induction calls generalizing start w with
  | nil => rfl
  | cons call calls ih =>
    obtain ⟨c, n⟩ := call
    have hclose : c.closesSync = false := hopen _ mem_cons_self
    have hstep : (if c.closesSync then none
        else if c.opensSync then some (((some w).map fun win => win.absorb n).getD ⟨now, start, n⟩)
        else (some w).map fun win => win.absorb n) = some (w.absorb n) := by
      rw [hclose]
      cases c.opensSync <;> rfl
    rw [followCalls, hstep, ih fun c hc => hopen c (mem_cons_of_mem _ hc), bytes_cons]
    show some { w with absorbed := w.absorbed + n + bytes calls } = _
    rw [Nat.add_assoc]
    rfl

/-- What a batch that trades no window leaves open: the window it found, or one it opened
itself with none open before. -/
theorem follow_untraded (b : Batch) {win : Option SyncWindow}
    (htrades : b.trades win.isSome = false) :
    ∀ w, b.follow win = some w →
      (∃ old, win = some old ∧ w = old.absorb b.len) ∨
      (win = none ∧ w.openedNs = b.now ∧ w.ahead + w.absorbed = b.len) := by
  intro w hw
  obtain ⟨mid, hmid, rfl⟩ := Option.map_eq_some_iff.mp hw
  cases win with
  | none =>
    have hnone (w : SyncWindow) (hw : none = some w) :
        w.openedNs = b.now ∧ w.ahead + w.absorbed = 0 := by
      cases hw
    have hfresh := followCalls_fresh hnone mid hmid
    rw [Nat.zero_add] at hfresh
    refine .inr ⟨rfl, hfresh.1, ?_⟩
    show mid.ahead + (mid.absorbed + b.rest) = b.len
    rw [len]
    omega
  | some old =>
    -- the window found open was not closed, or none would be open now
    have hsome : Terminal.syncAfter true (b.calls.map Prod.fst) = true := by
      have h := isSome_followCalls b.now 0 (some old) b.calls
      rw [hmid] at h
      exact h.symm
    have hnone : b.calls.any (fun c => c.1.closesSync) = false := by
      rw [trades, Option.isSome_some, hsome, Bool.and_true, Bool.true_and] at htrades
      exact htrades
    have hopen : ∀ c ∈ b.calls, c.1.closesSync = false := by
      intro c hc
      rw [any_eq_false] at hnone
      simpa using hnone c hc
    rw [followCalls_carried hopen] at hmid
    cases hmid
    refine .inl ⟨old, rfl, ?_⟩
    show { old with absorbed := old.absorbed + bytes b.calls + b.rest } = _
    rw [Nat.add_assoc]
    rfl

end Batch

/-! ## Runs -/

/-- What a terminal is driven by, a batch given by its bytes. -/
inductive Delivery where
  | batch (b : Batch)
  | resize (rows cols : Nat)
  | enterAlternateScreen
  | leaveAlternateScreen
  | sweep (now : Nat)
  | takeDirtyRegions
  | clearScrollback
deriving Repr

/-- The event of the terminal a delivery is. -/
def Delivery.event : Delivery → Event
  | .batch b => .step (.process b.len b.now (b.calls.map Prod.fst))
  | .resize rows cols => .step (.resize rows cols)
  | .enterAlternateScreen => .step .enterAlternateScreen
  | .leaveAlternateScreen => .step .leaveAlternateScreen
  | .sweep now => .step (.releaseExpiredSync now)
  | .takeDirtyRegions => .takeDirtyRegions
  | .clearScrollback => .clearScrollback

namespace Terminal

variable {t : Terminal} {win : Option SyncWindow}

/-- Whether the window is released before the next batch for the bytes it has absorbed. -/
def overfull (t : Terminal) : Bool := t.syncArmed && decide (syncUpdateMaxBytes ≤ t.syncBytes)

/-- What becomes of the window in a delivery. -/
def followWindow (t : Terminal) (win : Option SyncWindow) : Delivery → Option SyncWindow
  | .batch b => b.follow (if t.overfull then none else win)
  | .resize rows cols => if t.resizes (max rows 1) (max cols 1) then none else win
  | .sweep now => if t.syncWindowExpired now then none else win
  | _ => win

/-- Whether a delivery is a batch that closes the window it finds open and leaves another one
open. -/
def trades (t : Terminal) : Delivery → Bool
  | .batch b => b.trades (t.syncArmed && !t.overfull)
  | _ => false

/-- Carry out a delivery, and follow the window. -/
def observe [Crates] (s : Terminal × Option SyncWindow) (d : Delivery) :
    Checked (Terminal × Option SyncWindow) := do
  let t ← s.1.event d.event
  pure (t, s.1.followWindow s.2 d)

/-- Carry out a sequence of deliveries, and follow the window. -/
def watchWindow [Crates] (s : Terminal × Option SyncWindow) (ds : List Delivery) :
    Checked (Terminal × Option SyncWindow) :=
  each ds s observe

/-- No batch of a sequence closes the window it finds open and leaves another one open, or leaves
one that reaches the limit only with the bytes carried ahead of it. -/
def Untraded [Crates] (s : Terminal × Option SyncWindow) : List Delivery → Prop
  | [] => True
  | d :: ds => s.1.trades d = false ∧ (∀ w, s.1.followWindow s.2 d = some w → w.topped = false) ∧
      ∀ s', observe s d = some s' → Untraded s' ds

/-- A release finds the window now open either open for the timeout or with the limit of bytes
absorbed. -/
structure Timely (s : Terminal × Option SyncWindow) : Prop where
  sweep : ∀ now, s.1.syncWindowExpired now = true → ∃ w, s.2 = some w ∧
    (syncUpdateTimeoutNs ≤ now - w.openedNs ∨ syncUpdateMaxBytes ≤ w.absorbed)
  overfull : s.1.overfull = true → ∃ w, s.2 = some w ∧ syncUpdateMaxBytes ≤ w.absorbed

/-- The stamps of the terminal are those of the window now open. -/
structure Tracks (t : Terminal) (win : Option SyncWindow) : Prop where
  ok : t.Ok
  armed : win.isSome = t.syncArmed
  unarmed : win = none → t.syncOpenedNs = 0 ∧ t.syncBytes = 0
  stamped : ∀ w, win = some w → w.openedNs ≤ t.syncOpenedNs ∧ t.syncBytes = w.ahead + w.absorbed

/-- The parts of a terminal a window is judged by. -/
theorem Tracks.same {t' : Terminal} (h : Tracks t win) (hok : t'.Ok)
    (harmed : t'.syncArmed = t.syncArmed) (hopened : t'.syncOpenedNs = t.syncOpenedNs)
    (hbytes : t'.syncBytes = t.syncBytes) : Tracks t' win where
  ok := hok
  armed := h.armed.trans harmed.symm
  unarmed hnone := by
    rw [hopened, hbytes]
    exact h.unarmed hnone
  stamped w hw := by
    rw [hopened, hbytes]
    exact h.stamped w hw

/-- A release leaves no window. -/
theorem tracks_released {t' : Terminal} (hok : t'.Ok) (harmed : t'.syncArmed = false)
    (hopened : t'.syncOpenedNs = 0) (hbytes : t'.syncBytes = 0) : Tracks t' none where
  ok := hok
  armed := harmed.symm
  unarmed _ := ⟨hopened, hbytes⟩
  stamped w hw := by cases hw

theorem Tracks.timely (h : Tracks t win) (htopped : ∀ w, win = some w → w.topped = false) :
    Timely (t, win) := by
  have hopen (harmed : t.syncArmed = true) : ∃ w, win = some w :=
    Option.isSome_iff_exists.mp (h.armed.trans harmed)
  have hown (w : SyncWindow) (hw : win = some w)
      (hlimit : syncUpdateMaxBytes ≤ w.ahead + w.absorbed) : syncUpdateMaxBytes ≤ w.absorbed := by
    have hnot := of_decide_eq_false (htopped w hw)
    omega
  constructor
  · intro now hexpired
    have hexpired : t.syncWindowExpired now = true := hexpired
    unfold syncWindowExpired at hexpired
    split at hexpired
    · cases hexpired
    · next hstamped =>
      have harmed : t.syncArmed = true := by
        cases harmed : t.syncArmed with
        | true => rfl
        | false =>
          rw [harmed] at hstamped
          exact absurd rfl hstamped
      obtain ⟨w, hw⟩ := hopen harmed
      obtain ⟨hopened, hbytes⟩ := h.stamped w hw
      rw [hbytes, Bool.or_eq_true, decide_eq_true_iff, decide_eq_true_iff] at hexpired
      refine ⟨w, hw, hexpired.symm.imp (fun hage => ?_) (hown w hw)⟩
      exact hage.trans (Nat.sub_le_sub_left hopened now)
  · intro hfull
    obtain ⟨harmed, hbytes⟩ := Bool.and_eq_true_iff.mp hfull
    obtain ⟨w, hw⟩ := hopen harmed
    have hlimit := of_decide_eq_true hbytes
    rw [(h.stamped w hw).2] at hlimit
    exact ⟨w, hw, hown w hw hlimit⟩

theorem Tracks.releaseOverfull (h : Tracks t win) :
    Tracks t.releaseOverfull (if t.overfull then none else win) := by
  unfold Terminal.releaseOverfull
  show Tracks (if t.overfull then t.forceReleaseSync else t) _
  split
  · exact tracks_released h.ok.forceReleaseSync rfl rfl rfl
  · exact h

/-- The stamps at the end of a batch are those of the window it leaves open, unless it traded
that window for another. -/
theorem Tracks.batch [Crates] (h : Tracks t win) (b : Batch)
    (htrades : b.trades t.syncArmed = false)
    (before : Terminal) :
    Runs (each (b.calls.map Prod.fst) { t with responses := [] } call) fun after =>
      Tracks ((recordBatch before after).stampSync b.len b.now) (b.follow win) := by
  have hstart := h.ok.clearResponses
  have hstamps := (preserves_stamps t.syncOpenedNs t.syncBytes).calls ⟨hstart, rfl, rfl⟩
    (b.calls.map Prod.fst) fun _ _ _ _ => trivial
  refine (hstamps.and (hstart.calls_armed _)).mono ?_
  rintro after ⟨⟨hok, hopened, hbytes⟩, harmed⟩
  have hisSome : (b.follow win).isSome = after.syncArmed := by
    rw [harmed, Batch.follow, Option.isSome_map, Batch.isSome_followCalls, h.armed]
  have hrecorded := (hok.recordBatch before).stampSync b.len b.now
  rw [recordBatch_eq] at hrecorded ⊢
  unfold stampSync at hrecorded ⊢
  dsimp only at hrecorded ⊢
  cases hafter : after.syncArmed with
  | false =>
    rw [hafter] at hisSome hrecorded
    rw [if_neg Bool.false_ne_true] at hrecorded ⊢
    rw [Option.isSome_eq_false_iff, Option.isNone_iff_eq_none] at hisSome
    rw [hisSome]
    exact tracks_released hrecorded rfl rfl rfl
  | true =>
    rw [hafter] at hisSome hrecorded
    rw [if_pos rfl] at hrecorded ⊢
    refine ⟨hrecorded, hisSome, fun hnone => ?_, fun w hw => ?_⟩
    · rw [hnone] at hisSome
      cases hisSome
    rw [← h.armed] at htrades
    show w.openedNs ≤ (if after.syncOpenedNs = 0 then b.now else after.syncOpenedNs) ∧
      after.syncBytes + b.len = w.ahead + w.absorbed
    rw [hopened, hbytes]
    rcases b.follow_untraded htrades w hw with ⟨old, hold, rfl⟩ | ⟨hnone, hfresh, hcount⟩
    · obtain ⟨hle, htotal⟩ := h.stamped old hold
      constructor
      · show old.openedNs ≤ _
        split <;> omega
      · show t.syncBytes + b.len = old.ahead + (old.absorbed + b.len)
        omega
    · obtain ⟨hzero, hempty⟩ := h.unarmed hnone
      rw [if_pos hzero, hempty, hfresh, hcount, Nat.zero_add]
      exact ⟨le_rfl, rfl⟩

/-- A resize that changes nothing but the size of things keeps the stamps; one of another size
releases the window. -/
theorem Tracks.resize (h : Tracks t win) (rows cols : Nat) :
    Runs (t.resize rows cols) fun t' =>
      Tracks t' (if t.resizes (max rows 1) (max cols 1) then none else win) := by
  have hrows : 1 ≤ max rows 1 := le_max_right _ _
  have hcols : 1 ≤ max cols 1 := le_max_right _ _
  have hresized := h.ok.resize rows cols
  obtain ⟨grid, cursor, altGrid, altCursor, heq, -⟩ :=
    (h.ok.resizeStart (t.resizes (max rows 1) (max cols 1))).resizeScreens hrows hcols
  rw [resize_eq, heq _ rfl rfl rfl] at hresized ⊢
  refine (hresized.and (.pure rfl)).mono ?_
  rintro t' ⟨hok, rfl⟩
  generalize t.resizes (max rows 1) (max cols 1) = changed at hok ⊢
  cases changed with
  | false => exact h.same hok rfl rfl rfl
  | true =>
    have hstart : (t.resizeStart true).syncOpenedNs = 0 ∧ (t.resizeStart true).syncBytes = 0 := by
      unfold Terminal.resizeStart
      cases harmed : t.syncArmed with
      | true => exact ⟨rfl, rfl⟩
      | false =>
        have hnone : win = none := by
          rw [← Option.isNone_iff_eq_none, ← Option.isSome_eq_false_iff, h.armed, harmed]
        exact h.unarmed hnone
    exact tracks_released hok t.resizeStart_unarmed hstart.1 hstart.2

theorem Tracks.sweep (h : Tracks t win) (now : Nat) :
    Tracks (t.releaseExpiredSync now).1 (if t.syncWindowExpired now then none else win) := by
  have hok := h.ok.releaseExpiredSync now
  unfold releaseExpiredSync at hok ⊢
  generalize t.syncWindowExpired now = expired at hok ⊢
  cases expired with
  | false => exact h
  | true =>
    generalize t.syncReleaseRevealsClassA = classA at hok ⊢
    cases classA with
    | true | false => exact tracks_released hok rfl rfl rfl

theorem stamps_freezeWholePresentation (t : Terminal) :
    t.freezeWholePresentation.syncArmed = t.syncArmed ∧
      t.freezeWholePresentation.syncOpenedNs = t.syncOpenedNs ∧
      t.freezeWholePresentation.syncBytes = t.syncBytes := by
  rw [freezeWholePresentation, freezeAltFlag_eq, freeze_eq]
  exact ⟨rfl, rfl, rfl⟩

theorem Tracks.enterAlternateScreen (h : Tracks t win) : Tracks t.enterAlternateScreen win := by
  have hok := h.ok.enterAlternateScreen
  obtain ⟨harmed, hopened, hbytes⟩ := t.stamps_freezeWholePresentation
  unfold Terminal.enterAlternateScreen at hok ⊢
  dsimp only at hok ⊢
  split at hok
  · next halt =>
    rw [if_pos halt]
    exact h.same hok harmed hopened hbytes
  · next halt =>
    rw [if_neg halt]
    exact h.same hok harmed hopened hbytes

theorem Tracks.leaveAlternateScreen (h : Tracks t win) : Tracks t.leaveAlternateScreen win := by
  have hok := h.ok.leaveAlternateScreen
  obtain ⟨harmed, hopened, hbytes⟩ := t.stamps_freezeWholePresentation
  unfold Terminal.leaveAlternateScreen at hok ⊢
  dsimp only at hok ⊢
  split at hok
  · next halt =>
    rw [if_pos halt]
    obtain ⟨primary, hprimary⟩ := h.ok.freezeWholePresentation.clearActive.exists_parked halt
    rw [swapLeave_eq hprimary] at hok ⊢
    exact h.same hok harmed hopened hbytes
  · next halt =>
    rw [if_neg halt]
    exact h.same hok harmed hopened hbytes

theorem Tracks.takeDirtyRegions (h : Tracks t win) : Tracks t.takeDirtyRegions.1 win := by
  have hok := h.ok.takeDirtyRegions
  unfold Terminal.takeDirtyRegions at hok ⊢
  cases hfrozen : t.frozenGrid with
  | none =>
    rw [hfrozen] at hok
    exact h.same hok rfl rfl rfl
  | some frozen =>
    rw [hfrozen] at hok
    exact h.same hok rfl rfl rfl

variable [Crates]

theorem Tracks.observe (h : Tracks t win) (d : Delivery) (htrades : t.trades d = false) :
    Runs (Terminal.observe (t, win) d) fun s => Tracks s.1 s.2 := by
  cases d with
  | batch b =>
    have hrelease := h.releaseOverfull
    have harmed : t.releaseOverfull.syncArmed = (t.syncArmed && !t.overfull) := by
      unfold Terminal.releaseOverfull
      show (if t.overfull then t.forceReleaseSync else t).syncArmed = _
      cases t.overfull with
      | true => rw [if_pos rfl, Bool.not_true, Bool.and_false]; rfl
      | false => rw [if_neg Bool.false_ne_true, Bool.not_false, Bool.and_true]
    have hbatch := hrelease.batch b (by rw [harmed]; exact htrades) t.releaseOverfull
    have hevent : Runs (t.event (Delivery.batch b).event) fun t' =>
        Tracks t' (b.follow (if t.overfull then none else win)) := by
      apply Runs.bind (P := fun out => Tracks out.1 _)
      · exact .bind hbatch fun after hafter => .pure hafter
      · exact fun out hout => .pure hout
    exact .bind hevent fun t' h' => .pure h'
  | resize rows cols =>
    have hevent : Runs (t.event (Delivery.resize rows cols).event) fun t' =>
        Tracks t' (if t.resizes (max rows 1) (max cols 1) then none else win) := by
      apply Runs.bind (P := fun out => Tracks out.1 _)
      · exact .bind (h.resize rows cols) fun t' h' => .pure h'
      · exact fun out hout => .pure hout
    exact .bind hevent fun t' h' => .pure h'
  | enterAlternateScreen => exact .pure h.enterAlternateScreen
  | leaveAlternateScreen => exact .pure h.leaveAlternateScreen
  | sweep now => exact .pure (h.sweep now)
  | takeDirtyRegions => exact .pure h.takeDirtyRegions
  | clearScrollback => exact .pure (h.same h.ok.clearScrollback rfl rfl rfl)

theorem Tracks.watch (h : Tracks t win) (htopped : ∀ w, win = some w → w.topped = false)
    (ds : List Delivery) (huntraded : Untraded (t, win) ds) :
    Runs (Terminal.watchWindow (t, win) ds) Timely := by
  induction ds generalizing t win with
  | nil => exact .pure (h.timely htopped)
  | cons d ds ih =>
    obtain ⟨htrades, hfollow, hrest⟩ := huntraded
    obtain ⟨⟨t₁, win₁⟩, hobserve, h₁⟩ := h.observe d htrades
    have hwin : win₁ = t.followWindow win d := by
      obtain ⟨t', -, heq⟩ := Option.bind_eq_some_iff.mp hobserve
      exact (Prod.mk.inj (Option.some.inj heq)).2.symm
    have hruns := ih h₁ (hwin ▸ hfollow) (hrest (t₁, win₁) hobserve)
    unfold Terminal.watchWindow each at hruns ⊢
    rw [foldlM_cons, hobserve]
    exact hruns

/-- In a run in which no batch trades a window for another, or leaves one that reaches the limit
only with the bytes carried ahead of it, a release finds the window now open either open for the
timeout or with the limit of bytes absorbed. -/
theorem run_timely (rows cols : Nat) (config : GridConfig) (ds : List Delivery)
    (huntraded : Untraded (withConfig rows cols config, none) ds) :
    Runs (Terminal.watchWindow (withConfig rows cols config, none) ds) Timely := by
  have hstart : Tracks (withConfig rows cols config) none :=
    tracks_released (ok_withConfig rows cols config) rfl rfl rfl
  exact hstart.watch (fun w hw => by cases hw) ds huntraded

end Terminal

namespace Sample

open Terminal

/-- `?2026h` and `?2026l`. -/
def openSync : Call := .csi [[2026]] [63] false 'h'

def closeSync : Call := .csi [[2026]] [63] false 'l'

/-- A window opened behind a character, and text in it later. -/
def windowed : List Delivery :=
  [.batch ⟨1, [(.print 'a', 1), (openSync, 8)], 0⟩, .batch ⟨2, [(.print 'a', 1)], 0⟩]

/-- A window opened on its own; at the deadline a batch closes it and opens another. -/
def traded : List Delivery :=
  [.batch ⟨1, [(openSync, 8)], 0⟩, .batch ⟨150000000, [(closeSync, 8), (openSync, 8)], 0⟩]

theorem run_timely_windowed :
    Runs (@Terminal.watchWindow plainCrates (withConfig 1 2 .default, none) windowed) Timely := by
  refine @run_timely plainCrates 1 2 .default windowed
    ⟨rfl, by decide, fun s hs => ⟨?_, fun w hw => ?_, fun _ _ => trivial⟩⟩
  · -- printing closes nothing
    show ((s.1.syncArmed && !s.1.overfull) && false && _) = false
    rw [Bool.and_false, Bool.false_and]
  · unfold observe at hs
    obtain ⟨t', -, heq⟩ := Option.bind_eq_some_iff.mp hs
    cases heq
    have hw : Batch.follow ⟨2, [(.print 'a', 1)], 0⟩
        (if t'.overfull then none else some ⟨1, 1, 8⟩) = some w := hw
    split at hw
    · cases hw
    · cases hw
      decide

/-- The window opened at the deadline of another one is due a nanosecond later. -/
theorem run_untimely_traded :
    ¬∀ ds : List Delivery,
      Runs (@Terminal.watchWindow plainCrates (withConfig 1 1 .default, none) ds)
      Timely := by
  intro hall
  obtain ⟨s, hrun, htimely⟩ := hall traded
  have hstate : (@Terminal.watchWindow plainCrates (withConfig 1 1 .default, none) traded).map
      (fun s => (s.1.syncWindowExpired 150000001, s.2)) = some (true, some ⟨150000000, 8, 8⟩) := by
    decide
  rw [hrun, Option.map_some, Option.some.injEq, Prod.mk.injEq] at hstate
  obtain ⟨w, hw, hdue⟩ := htimely.sweep 150000001 hstate.1
  cases hstate.2.symm.trans hw
  revert hdue
  decide

end Sample

end Shux.Vt
