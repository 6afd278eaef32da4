/-
# The frame that a click was made on

The render loop numbers its frames, records the views of each and then sends it in parts, of which
the last bears the number. Other tasks send unnumbered bytes in between. The client writes what
arrives in order, and its input thread stamps each mouse event with the number that was written
last.

The daemon maps an event through the views of the frame that its stamp names, or through none when
too many frames were recorded since. The client looks at the write of the numbered part alone, so it
has written that frame whole exactly if no write of one of its parts failed.
-/

import Shux.Attach.AppMouse
import Shux.Lib.Base64

namespace Shux.Attach

open Checked Ui List ShownFrames Base64

variable {render : Render}

/-- A list with the numbers of its elements, from 1. -/
def numbered {α : Type} (as : List α) : List (Nat × α) := as.mapIdx fun i a => (i + 1, a)

section Numbered

variable {α : Type} (as : List α)

theorem length_numbered : (numbered as).length = as.length := length_mapIdx

theorem numbered_concat (a : α) : numbered (as ++ [a]) = numbered as ++ [(as.length + 1, a)] := by
  simp [numbered, mapIdx_append]

theorem getElem_numbered {i : Nat} (hi : i < as.length) :
    (numbered as)[i]? = some (i + 1, as[i]) := by
  rw [numbered, List.getElem?_mapIdx, List.getElem?_eq_getElem hi]
  rfl

theorem lt_of_mem_drop {k : Nat} {entry : Nat × α} (h : entry ∈ (numbered as).drop k) :
    k < entry.1 := by
  obtain ⟨i, hi⟩ := mem_iff_getElem?.1 h
  rw [List.getElem?_drop, numbered, List.getElem?_mapIdx, Option.map_eq_some_iff] at hi
  obtain ⟨a, -, rfl⟩ := hi
  show k < k + i + 1
  omega

/-- The newest entry not after a number, among those that are left. -/
theorem find_numbered {k f : Nat} (hk : k < f) (hf : f - 1 < as.length) :
    ((numbered as).drop k).reverse.find? (fun entry => entry.1 ≤ f) = some (f, as[f - 1]) := by
  have hsplit : (numbered as).drop k =
      ((numbered as).drop k).take (f - 1 - k) ++ (f, as[f - 1]) :: (numbered as).drop f := by
    have hlen : f - 1 < (numbered as).length := by rw [length_numbered]; exact hf
    have hat : (numbered as)[f - 1] = (f, as[f - 1]) := by
      have hsome := getElem_numbered as hf
      rw [List.getElem?_eq_getElem hlen, Option.some.injEq] at hsome
      rw [hsome, Nat.sub_add_cancel (by omega)]
    have hcut := take_append_drop (f - 1 - k) ((numbered as).drop k)
    rw [drop_drop, show k + (f - 1 - k) = f - 1 by omega,
      drop_eq_getElem_cons hlen, hat, Nat.sub_add_cancel (by omega)] at hcut
    exact hcut.symm
  have hlater :
      ((numbered as).drop f).reverse.find? (fun entry => decide (entry.1 ≤ f)) = none := by
    rw [List.find?_eq_none]
    intro entry hentry
    have hlt := lt_of_mem_drop as (mem_reverse.1 hentry)
    simpa using hlt
  rw [hsplit, reverse_append, reverse_cons, append_assoc, List.find?_append, hlater,
    Option.none_or, singleton_append, List.find?_cons_of_pos (by simp)]

theorem find_numbered_none {k f : Nat} (hk : f ≤ k) :
    ((numbered as).drop k).reverse.find? (fun entry => entry.1 ≤ f) = none := by
  rw [List.find?_eq_none]
  intro entry hentry
  have hlt := lt_of_mem_drop as (mem_reverse.1 hentry)
  simp only [decide_eq_true_eq]
  omega

end Numbered

/-- Bytes of one composited frame per message. -/
def renderPartBytes : Nat := 8 * 1024 * 1024

/-- A message that carries bytes for the terminal, and the number of the frame that ends with it. -/
structure Render where
  data : Bytes
  frame : Option Nat
  deriving DecidableEq

/-- The messages of a frame that was cut into parts: the last is numbered. -/
def numberLast (frame : Nat) : List Bytes → List Render
  | [] => []
  | [part] => [⟨encode part, some frame⟩]
  | part :: next :: parts => ⟨encode part, none⟩ :: numberLast frame (next :: parts)

/-- The messages of a frame. -/
@[irreducible]
def renderParts (frame : Nat) (bytes : Bytes) : List Render :=
  numberLast frame (bytes.toChunks renderPartBytes)

/-- A frame as it was recorded. -/
structure Recorded where
  views : Views
  bytes : Bytes

/-- A message under way, with the frame that it is a part of. -/
structure Sent where
  render : Render
  origin : Option Nat
  deriving DecidableEq

/-- The two ends of an attach and what is between them. -/
structure Link where
  frameNumber : Nat
  shown : ShownFrames
  /-- Every frame so far, the first one first. -/
  recorded : List Recorded
  /-- The parts that the render loop has still to send. -/
  sending : List Sent
  wire : List Sent
  /-- The messages that the client took, and whether it could write and flush their bytes. -/
  taken : List (Sent × Bool)
  /-- The last numbered frame written, 0 for none. -/
  writtenFrame : Nat

namespace Link

def start : Link := ⟨0, ⟨[]⟩, [], [], [], [], 0⟩

/-- The number that the input thread stamps an event with. -/
def current (s : Link) : Option Nat := some s.writtenFrame |>.filter (· ≠ 0)

/-- Number a frame, record its views and begin to send it. -/
def beginFrame (s : Link) (views : Views) (bytes : Bytes) : Link :=
  { s with
    frameNumber := s.frameNumber + 1
    shown := s.shown.push (s.frameNumber + 1) views
    recorded := s.recorded ++ [⟨views, bytes⟩]
    sending := (renderParts (s.frameNumber + 1) bytes).map (⟨·, some (s.frameNumber + 1)⟩) }

/-- The client takes a message and writes its bytes, or fails to. -/
def write (s : Link) (m : Sent) (rest : List Sent) (written : Bool) : Link :=
  match decode m.render.data with
  | none => { s with wire := rest }
  | some _ =>
    { s with
      wire := rest
      taken := s.taken ++ [(m, written)]
      writtenFrame := if written then m.render.frame.getD s.writtenFrame else s.writtenFrame }

/-- What the client wrote to its terminal. -/
def terminal (s : Link) : List Sent := (s.taken.filter Prod.snd).map Prod.fst

/-- A step of the render loop, of another task that sends bytes, or of the client. -/
inductive Step (s : Link) : Link → Prop
  | frame (views : Views) (bytes : Bytes) (idle : s.sending = []) (some_ : bytes ≠ []) :
      Step s (s.beginFrame views bytes)
  | send (m : Sent) (rest : List Sent) (next : s.sending = m :: rest) :
      Step s { s with sending := rest, wire := s.wire ++ [m] }
  | other (bytes : Bytes) :
      Step s { s with wire := s.wire ++ [⟨⟨encode bytes, none⟩, none⟩] }
  | write (m : Sent) (rest : List Sent) (next : s.wire = m :: rest) (written : Bool) :
      Step s (s.write m rest written)

/-- Any number of steps. -/
inductive Run (s : Link) : Link → Prop
  | refl : Run s s
  | step {s' s'' : Link} (run : Run s s') (next : Step s' s'') : Run s s''

/-- Everything that was handed over, in the order of its writing. -/
def stream (s : Link) : List Sent := s.taken.map Prod.fst ++ s.wire ++ s.sending

/-- The messages of a frame. -/
def partsOf (f : Nat) (bytes : Bytes) : List Sent := (renderParts f bytes).map (⟨·, some f⟩)

/-- The messages in a list that are parts of a frame. -/
def only (f : Nat) (ms : List Sent) : List Sent := ms.filter fun m => m.origin = some f

/-- The daemon has recorded every frame before its messages, and the client writes them in order. -/
structure Synced (s : Link) : Prop where
  number : s.frameNumber = s.recorded.length
  shown : s.shown.frames =
    (numbered (s.recorded.map Recorded.views)).drop (s.recorded.length - kept)
  parts : ∀ f r, s.recorded[f]? = some r → only (f + 1) s.stream = partsOf (f + 1) r.bytes
  origins : ∀ m ∈ s.stream, ∀ f, m.origin = some f → 0 < f ∧ f ≤ s.recorded.length
  framed : ∀ m ∈ s.stream, ∀ f, m.render.frame = some f → m.origin = some f
  encoded : ∀ m ∈ s.stream, ∃ bytes, m.render.data = encode bytes
  written : s.writtenFrame = 0 ∨ ∃ t ∈ s.taken, t.1.render.frame = some s.writtenFrame

/-- A stamp names a frame that the client has written whole, and the daemon maps events through the
views recorded for that frame, or through none once the frame is one of too many. A press that no
gesture holds is forwarded only to a pane that the frame drew under the pointer, and names the cell
drawn there. -/
def InItsFrame (s s' : Link) (f : Nat) : Prop :=
  ∃ r, 0 < f ∧ s.recorded[f - 1]? = some r ∧ only f s.terminal = partsOf f r.bytes ∧
    (s'.shown.views (some f) = some r.views ∨
      s'.shown.views (some f) = none ∧ f + kept ≤ s'.recorded.length) ∧
    ∀ event world outcome, event.frame = some f → event.kind = .down →
      handleAppMouse s'.shown world event .none = some outcome →
      ∀ report ∈ outcome.sent, ∃ view cb sgr row col, r.views.get report.pane = some view ∧
        view.ShowsAt (event.col, event.row) row col ∧
        encodeMouseReport cb false sgr (col + 1) (row + 1) = some report.bytes

/-- The client could write every part of a frame that it took. -/
def Unharmed (s : Link) (f : Nat) : Prop := ∀ t ∈ s.taken, t.1.origin = some f → t.2 = true

end Link

theorem mem_numberLast {frame : Nat} {parts : List Bytes} (h : render ∈ numberLast frame parts) :
    (render.frame = none ∨ render.frame = some frame) ∧ ∃ bytes, render.data = encode bytes := by
  induction parts with
  | nil => cases h
  | cons part parts ih =>
    cases parts with
    | nil =>
      rw [mem_singleton.1 h]
      exact ⟨.inr rfl, part, rfl⟩
    | cons next parts =>
      rcases mem_cons.1 h with rfl | hrest
      · exact ⟨.inl rfl, part, rfl⟩
      · exact ih hrest

theorem mem_renderParts {frame : Nat} {bytes : Bytes} (h : render ∈ renderParts frame bytes) :
    (render.frame = none ∨ render.frame = some frame) ∧ ∃ part, render.data = encode part := by
  rw [renderParts] at h
  exact mem_numberLast h

/-- Nothing of a frame follows its numbered part. -/
theorem numberLast_ends {frame f : Nat} {parts : List Bytes} {before after : List Render}
    (h : numberLast frame parts = before ++ render :: after)
    (hframe : render.frame = some f) : after = [] := by
  induction parts generalizing before with
  | nil =>
    rw [numberLast] at h
    exact absurd h.symm (by simp)
  | cons part parts ih =>
    cases parts with
    | nil =>
      rw [numberLast] at h
      cases before with
      | nil => exact (List.cons.inj h).2.symm
      | cons _ _ => exact absurd (List.cons.inj h).2.symm (by simp)
    | cons next parts =>
      rw [numberLast] at h
      cases before with
      | nil =>
        rw [← (List.cons.inj h).1] at hframe
        cases hframe
      | cons _ before => exact ih (List.cons.inj h).2

namespace Link

variable {s s' : Link}
variable {f : Nat}

theorem only_append (f : Nat) (ms ms' : List Sent) :
    only f (ms ++ ms') = only f ms ++ only f ms' := filter_append ..

theorem only_partsOf (f : Nat) (bytes : Bytes) : only f (partsOf f bytes) = partsOf f bytes := by
  rw [only, filter_eq_self]
  intro m hm
  obtain ⟨render, -, rfl⟩ := mem_map.1 hm
  simp

theorem only_partsOf_ne {g : Nat} (hne : g ≠ f) (bytes : Bytes) :
    only f (partsOf g bytes) = [] := by
  rw [only, filter_eq_nil_iff]
  intro m hm
  obtain ⟨render, -, rfl⟩ := mem_map.1 hm
  simpa using hne

/-- A frame whose numbered part is in the first of two lists has no part in the second. -/
theorem only_after {bytes : Bytes} {front back : List Sent} {m : Sent}
    (hparts : only f (front ++ back) = partsOf f bytes) (hm : m ∈ front)
    (horigin : m.origin = some f) (hframe : m.render.frame = some f) : only f back = [] := by
  have hmem : m ∈ only f front := mem_filter.2 ⟨hm, by simpa using horigin⟩
  obtain ⟨before, after, hsplit⟩ := append_of_mem hmem
  rw [only_append, hsplit, append_assoc, cons_append, partsOf] at hparts
  have hrenders := congrArg (List.map Sent.render) hparts
  rw [map_map, show (Sent.render ∘ fun render => (⟨render, some f⟩ : Sent)) = id from rfl,
    map_id, map_append, map_cons] at hrenders
  rw [renderParts] at hrenders
  have hnil := numberLast_ends hrenders.symm hframe
  exact (append_eq_nil_iff.1 (map_eq_nil_iff.1 hnil)).2

theorem Synced.start : Synced Link.start where
  number := rfl
  shown := rfl
  parts _ _ h := by cases h
  origins _ hm := by cases hm
  framed _ hm := by cases hm
  encoded _ hm := by cases hm
  written := .inl rfl

theorem push_shown {shown : ShownFrames} {views : List Views}
    (h : shown.frames = (numbered views).drop (views.length - kept)) (new : Views) :
    (shown.push (views.length + 1) new).frames =
      (numbered (views ++ [new])).drop (views.length + 1 - kept) := by
  have hlen : shown.frames.length = views.length - (views.length - kept) := by
    rw [h, length_drop, length_numbered]
  have hkept : 0 < kept := by decide
  have hdrop : (numbered (views ++ [new])).drop (views.length + 1 - kept) =
      (numbered views).drop (views.length + 1 - kept) ++ [(views.length + 1, new)] := by
    rw [numbered_concat, drop_append_of_le_length]
    rw [length_numbered]
    omega
  rw [hdrop, push]
  dsimp only
  split
  · next hfull => rw [h, drop_drop, show views.length - kept + 1 = views.length + 1 - kept by omega]
  · next hroom =>
    rw [h, show views.length - kept = 0 by omega, show views.length + 1 - kept = 0 by omega]

theorem beginFrame_recorded (s : Link) (views : Views) (bytes : Bytes) :
    (s.beginFrame views bytes).recorded = s.recorded ++ [⟨views, bytes⟩] := rfl

theorem beginFrame_shown (s : Link) (views : Views) (bytes : Bytes) :
    (s.beginFrame views bytes).shown = s.shown.push (s.frameNumber + 1) views := rfl

theorem length_beginFrame (s : Link) (views : Views) (bytes : Bytes) :
    (s.beginFrame views bytes).recorded.length = s.recorded.length + 1 := by
  rw [beginFrame_recorded, length_append, length_singleton]

theorem Synced.beginFrame (h : Synced s) (idle : s.sending = []) (views : Views) (bytes : Bytes) :
    Synced (s.beginFrame views bytes) := by
  have hstream : (s.beginFrame views bytes).stream =
      s.stream ++ partsOf (s.recorded.length + 1) bytes := by
    rw [stream, stream, idle, append_nil, ← h.number]
    rfl
  have hold : ∀ m ∈ s.stream, ∀ f, m.origin = some f → f ≤ s.recorded.length := fun m hm f hf =>
    (h.origins m hm f hf).2
  refine ⟨?_, ?_, ?_, ?_, ?_, ?_, h.written⟩
  · rw [length_beginFrame, ← h.number]
    rfl
  · have hshown := h.shown
    rw [← length_map Recorded.views] at hshown
    have hpush := push_shown hshown views
    rw [length_map] at hpush
    rw [beginFrame_shown, h.number, hpush, length_beginFrame, beginFrame_recorded, map_append]
    rfl
  · intro f r hr
    rw [hstream, only_append]
    rw [beginFrame_recorded] at hr
    rcases Nat.lt_or_ge f s.recorded.length with hlt | hge
    · rw [List.getElem?_append_left hlt] at hr
      rw [h.parts f r hr, only_partsOf_ne (by omega), append_nil]
    · have hfresh : only (f + 1) s.stream = [] := by
        rw [only, filter_eq_nil_iff]
        intro m hm horigin
        have hle := hold m hm _ (by simpa using horigin)
        omega
      rw [List.getElem?_append_right hge, List.getElem?_singleton] at hr
      split at hr
      · next heq =>
        cases hr
        rw [hfresh, nil_append, show f = s.recorded.length by omega, only_partsOf]
      · cases hr
  · intro m hm f hf
    rw [length_beginFrame]
    rw [hstream] at hm
    rcases mem_append.1 hm with hm | hm
    · have hle := h.origins m hm f hf
      omega
    · obtain ⟨render, -, rfl⟩ := mem_map.1 hm
      have heq := Option.some.inj hf
      omega
  · intro m hm f hf
    rw [hstream] at hm
    rcases mem_append.1 hm with hm | hm
    · exact h.framed m hm f hf
    · obtain ⟨render, hrender, rfl⟩ := mem_map.1 hm
      rcases (mem_renderParts hrender).1 with hnone | hsome
      · rw [hnone] at hf
        cases hf
      · rw [← hsome, ← hf]
  · intro m hm
    rw [hstream] at hm
    rcases mem_append.1 hm with hm | hm
    · exact h.encoded m hm
    · obtain ⟨render, hrender, rfl⟩ := mem_map.1 hm
      exact (mem_renderParts hrender).2

/-- A step that only moves messages on keeps what is known of them. -/
theorem Synced.moved (h : Synced s) (hnumber : s'.frameNumber = s.frameNumber)
    (hshown : s'.shown = s.shown) (hrecorded : s'.recorded = s.recorded)
    (hstream : s'.stream = s.stream)
    (hwritten : s'.writtenFrame = 0 ∨ ∃ t ∈ s'.taken, t.1.render.frame = some s'.writtenFrame) :
    Synced s' where
  number := by rw [hnumber, hrecorded, h.number]
  shown := by rw [hshown, hrecorded, h.shown]
  parts f r hr := by
    rw [hstream]
    exact h.parts f r (hrecorded ▸ hr)
  origins m hm f hf := by
    rw [hrecorded]
    exact h.origins m (hstream ▸ hm) f hf
  framed m hm := h.framed m (hstream ▸ hm)
  encoded m hm := h.encoded m (hstream ▸ hm)
  written := hwritten

/-- One step of either end. -/
theorem Synced.step (h : Synced s) (hstep : Step s s') : Synced s' := by
  cases hstep with
  | frame views bytes idle some_ => exact h.beginFrame idle views bytes
  | send m rest next =>
    refine h.moved rfl rfl rfl ?_ h.written
    rw [stream, stream, next]
    simp
  | other bytes =>
    have hmem : ∀ m ∈ s.taken.map Prod.fst ++ (s.wire ++ [⟨⟨encode bytes, none⟩, none⟩]) ++
        s.sending,
        m ∈ s.stream ∨ m = ⟨⟨encode bytes, none⟩, none⟩ := by
      intro m hm
      rw [stream]
      simp only [mem_append, mem_singleton] at hm ⊢
      tauto
    refine ⟨h.number, h.shown, fun f r hr => ?_, fun m hm f hf => ?_, fun m hm f hf => ?_,
      fun m hm => ?_, h.written⟩
    · have hparts := h.parts f r hr
      rw [stream, only_append, only_append] at hparts ⊢
      rw [only_append (f + 1) s.wire, show only (f + 1) [_] = [] from rfl, append_nil]
      exact hparts
    · rcases hmem m hm with hm | rfl
      · exact h.origins m hm f hf
      · cases hf
    · rcases hmem m hm with hm | rfl
      · exact h.framed m hm f hf
      · cases hf
    · rcases hmem m hm with hm | rfl
      · exact h.encoded m hm
      · exact ⟨bytes, rfl⟩
  | write m rest next written =>
    have hm : m ∈ s.stream := by
      rw [stream, next]
      simp
    obtain ⟨bytes, hbytes⟩ := h.encoded m hm
    have hdecode : decode m.render.data = some bytes := by rw [hbytes, decode_encode]
    rw [write, hdecode]
    refine h.moved rfl rfl rfl ?_ ?_
    · rw [stream, stream, next]
      simp
    · have hold : s.writtenFrame = 0 ∨
          ∃ t ∈ s.taken ++ [(m, written)], t.1.render.frame = some s.writtenFrame := by
        rcases h.written with hzero | ⟨t, ht, hframe⟩
        · exact .inl hzero
        · exact .inr ⟨t, mem_append_left _ ht, hframe⟩
      cases written with
      | false => exact hold
      | true =>
        cases hframe : m.render.frame with
        | none => exact hold
        | some f => exact .inr ⟨(m, true), mem_append_right _ (mem_singleton_self _), hframe⟩

theorem Synced.run (h : Synced s) (hrun : Run s s') : Synced s' := by
  induction hrun with
  | refl => exact h
  | step _ next ih => exact ih.step next

/-- A recorded frame stays recorded. -/
theorem Run.recorded (hrun : Run s s') {r : Recorded} (h : s.recorded[f]? = some r) :
    s'.recorded[f]? = some r := by
  induction hrun with
  | refl => exact h
  | step _ next ih =>
    cases next with
    | frame views bytes idle some_ =>
      obtain ⟨hlt, -⟩ := List.getElem?_eq_some_iff.1 ih
      exact (List.getElem?_append_left hlt).trans ih
    | send m rest next => exact ih
    | other bytes => exact ih
    | write m rest next written =>
      rw [write]
      split <;> exact ih

/-- The frame of a stamp was recorded, and the client has taken all of it. -/
theorem Synced.stamped (h : Synced s) (hstamp : s.current = some f) :
    ∃ r, 0 < f ∧ s.recorded[f - 1]? = some r ∧
      only f (s.taken.map Prod.fst) = partsOf f r.bytes := by
  obtain ⟨hwritten, hpos⟩ := Option.filter_eq_some_iff.1 hstamp
  cases Option.some.inj hwritten
  have hne : s.writtenFrame ≠ 0 := by simpa using hpos
  obtain ⟨t, ht, hframe⟩ := h.written.resolve_left hne
  have hmem : t.1 ∈ s.taken.map Prod.fst := mem_map_of_mem ht
  have hstream : t.1 ∈ s.stream := by
    rw [stream, append_assoc]
    exact mem_append_left _ hmem
  have horigin := h.framed t.1 hstream _ hframe
  have hle := h.origins t.1 hstream _ horigin
  have hlt : s.writtenFrame - 1 < s.recorded.length := by omega
  have hparts := h.parts _ _ (List.getElem?_eq_getElem hlt)
  rw [Nat.sub_add_cancel hle.1, stream, append_assoc] at hparts
  have hnone := only_after hparts hmem horigin hframe
  rw [only_append, hnone, append_nil] at hparts
  exact ⟨_, hle.1, List.getElem?_eq_getElem hlt, hparts⟩

/-- The parts that were written are those that were taken exactly if no write of one failed. -/
theorem only_terminal_iff : only f s.terminal = only f (s.taken.map Prod.fst) ↔ s.Unharmed f := by
  have hterminal : only f s.terminal =
      ((s.taken.filter fun t => t.1.origin = some f).filter Prod.snd).map Prod.fst := by
    rw [only, terminal, filter_map, filter_filter, filter_filter]
    simp only [Function.comp_def, Bool.and_comm]
  have htaken : only f (s.taken.map Prod.fst) =
      (s.taken.filter fun t => t.1.origin = some f).map Prod.fst := by
    rw [only, filter_map]
    rfl
  rw [hterminal, htaken]
  constructor
  · intro heq t ht horigin
    have hlength := congrArg List.length heq
    rw [length_map, length_map, length_filter_eq_length_iff] at hlength
    exact hlength t (mem_filter.2 ⟨ht, by simpa using horigin⟩)
  · intro hwritten
    have hall : ∀ t ∈ s.taken.filter fun t => t.1.origin = some f, t.2 = true := fun t ht =>
      hwritten t (mem_filter.1 ht).1 (by simpa using (mem_filter.1 ht).2)
    rw [filter_eq_self.2 hall]

/-- What a number maps to. -/
theorem Synced.views (h : Synced s) {r : Recorded} (hpos : 0 < f)
    (hr : s.recorded[f - 1]? = some r) :
    s.shown.views (some f) = some r.views ∨
      s.shown.views (some f) = none ∧ f + kept ≤ s.recorded.length := by
  obtain ⟨hlt, hat⟩ := List.getElem?_eq_some_iff.1 hr
  have hlt' : f - 1 < (s.recorded.map Recorded.views).length := by rwa [length_map]
  rw [ShownFrames.views, h.shown]
  rcases Nat.lt_or_ge (s.recorded.length - kept) f with hkept | hgone
  · left
    rw [find_numbered _ hkept hlt', getElem_map, hat]
    rfl
  · right
    rw [find_numbered_none _ hgone]
    exact ⟨rfl, by omega⟩

end Link

/-- A cell that is found without clamping is the one shown at the point. -/
theorem showsAt_of_paneGridCell {view : PaneView} {col row gx gy : Nat}
    (h : paneGridCell view (col, row) false = some (some (gx, gy))) :
    ∃ r c, gx = c + 1 ∧ gy = r + 1 ∧ view.ShowsAt (col, row) r c := by
  unfold paneGridCell at h
  dsimp only at h
  split at h
  · cases h
  · next hshown =>
    split at h
    · cases h
    · next hon =>
      rw [not_and_or, not_not] at hon
      obtain ⟨hx, hy, hcol, hrow⟩ := hon.resolve_right (by simp)
      rw [sub, if_pos (by omega), sub, if_pos (by omega)] at h
      simp only [Option.bind_eq_bind, Option.bind_some, Option.pure_def, Option.some.injEq,
        Option.bind_eq_some_iff, Option.map_eq_some_iff, toU16] at h
      obtain ⟨x, hxs, y, hys, heq⟩ := h
      cases heq
      split at hxs <;> cases hxs
      split at hys <;> cases hys
      refine ⟨view.rowOffset + (row - view.rect.y), col - view.rect.x, by omega, by omega,
        by omega, by omega, by omega, by omega, by omega, ?_⟩
      rw [Prod.mk.injEq]
      omega

/-- What a press that finds no gesture forwards: one report, for the cell that the view shows under
the pointer. -/
theorem sent_of_forwardEvent {world : MouseWorld} {event : MouseEvent} {views : Views}
    {pane : PaneId} {sgr : Bool} {outcome : MouseOutcome}
    (h : forwardEvent world event .none views pane sgr .press = some outcome)
    {report : Report} (hreport : report ∈ outcome.sent) :
    ∃ view cb gx gy, views.get report.pane = some view ∧
      paneGridCell view (event.col, event.row) false = some (some (gx, gy)) ∧
      encodeMouseReport cb false sgr gx gy = some report.bytes := by
  unfold forwardEvent at h
  split at h
  · cases h
    cases hreport
  · simp only [ne_eq, not_true_eq_false, decide_false] at h
    cases hview : views.get pane with
    | none =>
      rw [hview] at h
      simp at h
      subst h
      cases hreport
    | some view =>
      rw [hview] at h
      simp only [Option.any_some] at h
      split at h
      · cases h
        cases hreport
      · obtain ⟨cell, hcell, h⟩ := Option.bind_eq_some_iff.1 h
        obtain ⟨_, hcell', h⟩ := Option.bind_eq_some_iff.1 h
        cases hcell'
        cases cell with
        | none =>
          cases h
          cases hreport
        | some place =>
          obtain ⟨gx, gy⟩ := place
          simp only [Option.map_some, Bool.false_and, Bool.false_eq_true, if_false,
            reduceCtorEq, decide_false] at h
          cases hcb : buttonCb .press event.button event.alt event.ctrl with
          | none =>
            rw [hcb] at h
            cases h
            cases hreport
          | some cb =>
            cases hbytes : encodeMouseReport cb false sgr gx gy with
            | none =>
              simp only [hcb, hbytes] at h
              cases h
              cases hreport
            | some bytes =>
              simp only [hcb, hbytes] at h
              split at h
              · cases h
                cases hreport
              · cases h
                rw [mem_singleton.1 hreport]
                exact ⟨view, cb, gx, gy, hview, hcell, hbytes⟩

/-- A press that finds no gesture is forwarded only to a pane that its frame drew under the
pointer, for the cell drawn there. -/
theorem sent_of_press {shown : ShownFrames} {world : MouseWorld} {event : MouseEvent}
    {outcome : MouseOutcome} (hkind : event.kind = .down)
    (h : handleAppMouse shown world event .none = some outcome)
    {report : Report} (hreport : report ∈ outcome.sent) :
    ∃ views view cb sgr row col, shown.views event.frame = some views ∧
      views.get report.pane = some view ∧ view.ShowsAt (event.col, event.row) row col ∧
      encodeMouseReport cb false sgr (col + 1) (row + 1) = some report.bytes := by
  rw [handleAppMouse, hkind, show MouseKind.action? .down = some .press from rfl] at h
  dsimp only at h
  split at h
  · cases h
    rw [handleUnmapped, if_neg (by decide)] at hreport
    split at hreport
    · dsimp only at hreport
      split at hreport <;> cases hreport
    · cases hreport
  · next views hviews =>
    split at h
    · cases h
      cases hreport
    · split at h
      · cases h
        cases hreport
      · cases h
        rw [swallowEvent, if_neg (by simp)] at hreport
        cases hreport
      · obtain ⟨view, cb, gx, gy, hview, hcell, hbytes⟩ := sent_of_forwardEvent h hreport
        obtain ⟨row, col, rfl, rfl, hshows⟩ := showsAt_of_paneGridCell hcell
        exact ⟨views, view, cb, _, row, col, hviews, hview, hshows, hbytes⟩

/-- In every run, a click is read in the frame it was made on exactly if no write of a part of that
frame failed. -/
theorem click_in_its_frame_iff {s s' : Link} {f : Nat} (hrun : Link.Run .start s)
    (hstamp : s.current = some f) (hlater : Link.Run s s') : s.InItsFrame s' f ↔ s.Unharmed f := by
  have hsynced := Link.Synced.start.run hrun
  obtain ⟨r, hpos, hr, htaken⟩ := hsynced.stamped hstamp
  rw [← Link.only_terminal_iff, htaken]
  constructor
  · rintro ⟨r', -, hr', hwhole, -⟩
    cases hr.symm.trans hr'
    exact hwhole
  intro hwhole
  have hviews := (hsynced.run hlater).views hpos (hlater.recorded hr)
  refine ⟨r, hpos, hr, hwhole, hviews, fun event world outcome hframe hkind h report hreport => ?_⟩
  obtain ⟨views, view, cb, sgr, row, col, hmapped, hview, hshows, hbytes⟩ :=
    sent_of_press hkind h hreport
  rw [hframe] at hmapped
  rcases hviews with hsome | ⟨hnone, -⟩
  · rw [hsome] at hmapped
    cases hmapped
    exact ⟨view, cb, sgr, row, col, hview, hshows, hbytes⟩
  · rw [hnone] at hmapped
    cases hmapped

theorem toChunks_go_append {α : Type} {n : Nat} (as bs : List α) (acc : Array α)
    (chunks : Array (List α)) (h : acc.size + as.length ≤ n) :
    toChunks.go n (as ++ bs) acc chunks = toChunks.go n bs (acc ++ as.toArray) chunks := by
  induction as generalizing acc with
  | nil => simp
  | cons a as ih =>
    rw [length_cons] at h
    rw [cons_append, toChunks.go, if_neg (by simp; omega), ih _ (by rw [Array.size_push]; omega)]
    simp

/-- What fills one message and goes over into the next. -/
theorem toChunks_two {α : Type} {n : Nat} {as bs : List α} (has : as.length = n) (hpos : 0 < n)
    (hne : bs ≠ []) (hbs : bs.length ≤ n) : (as ++ bs).toChunks n = [as, bs] := by
  obtain ⟨a, as, rfl⟩ := exists_cons_of_length_pos (has ▸ hpos)
  obtain ⟨b, bs, rfl⟩ := exists_cons_of_ne_nil hne
  rw [length_cons] at has hbs
  have hfirst := toChunks_go_append (n := n) as (b :: bs) #[a] #[]
    (by simp; omega)
  have hsecond := toChunks_go_append (n := n) bs [] #[b] #[a :: as]
    (by simp; omega)
  rw [append_nil, toChunks.go] at hsecond
  rw [cons_append, toChunks, hfirst, toChunks.go, if_pos (by simp; omega)]
  · simpa using hsecond
  · omega

/-- What a write does with bytes that were encoded. -/
theorem Link.write_encode (s : Link) (bytes : Bytes) (frame origin : Option Nat) (rest : List Sent)
    (written : Bool) : s.write ⟨⟨encode bytes, frame⟩, origin⟩ rest written =
      { s with
        wire := rest
        taken := s.taken ++ [(⟨⟨encode bytes, frame⟩, origin⟩, written)]
        writtenFrame := if written then frame.getD s.writtenFrame else s.writtenFrame } := by
  rw [write, decode_encode]

namespace FirstClick

/-- One pane at the top left of the screen. -/
def views : Views := FinMap.empty.insert ⟨⟨0⟩⟩ ⟨⟨0, 0, 80, 24⟩, 0, 24, 80⟩

def press : MouseEvent := ⟨.down, .left, 3, 2, false, false, false, some 1⟩

/-- The app in the pane tracks the mouse. -/
def world : MouseWorld where
  copyActive := false
  borderDrag := false
  activePane := ⟨⟨0⟩⟩
  live _ := none
  terminal _ := some ({ mouseTracking := .normal, sgrMouse := true }, 24, 80)
  shownAtHit _ := true
  shownAtForward _ := true
  focuses _ := false
  selectionLeft := false
  accepts _ := true

@[irreducible]
def full : Bytes := replicate renderPartBytes 0x41

/-- A frame that is one byte longer than a message. -/
def bytes : Bytes := full ++ [0x42]

/-- Its two parts, and what another task sends in between. -/
def front : Sent := ⟨⟨encode full, none⟩, some 1⟩

def other : Sent := ⟨⟨encode [7], none⟩, none⟩

def back : Sent := ⟨⟨encode [0x42], some 1⟩, some 1⟩

theorem partsOf_bytes : Link.partsOf 1 bytes = [front, back] := by
  have hlength : full.length = renderPartBytes := by
    rw [full]
    exact length_replicate
  rw [Link.partsOf, renderParts, bytes,
    toChunks_two hlength (by decide) (cons_ne_nil _ _) (by decide)]
  rfl

def begun : Link := Link.start.beginFrame views bytes

/-- The frame is on its way. -/
def sent : Link := { begun with sending := [], wire := [front, other, back] }

theorem run_sent : Link.Run .start sent := by
  have hbegun : Link.Run .start begun :=
    .step .refl (.frame views bytes rfl (append_ne_nil_of_right_ne_nil _ (cons_ne_nil _ _)))
  have hfront := hbegun.step (.send front [back] partsOf_bytes)
  have hother := hfront.step (.other [7])
  exact hother.step (.send back [] rfl)

/-- The client has taken all three messages. -/
def taken (written : Bool) : Link :=
  { sent with
    wire := []
    taken := [(front, written), (other, true), (back, true)]
    writtenFrame := 1 }

theorem run_taken (written : Bool) : Link.Run .start (taken written) := by
  have hfront := run_sent.step (.write front [other, back] rfl written)
  rw [front, Link.write_encode] at hfront
  have hother := hfront.step (.write other [back] rfl true)
  rw [other, Link.write_encode] at hother
  have hback := hother.step (.write back [] rfl true)
  rw [back, Link.write_encode] at hback
  cases written with
  | false => exact hback
  | true => exact hback

/-- The next frame is begun before the daemon handles the event. -/
def next : Link := (taken true).beginFrame FinMap.empty [0x43]

theorem click_in_its_frame_iff_next : (taken true).InItsFrame next 1 :=
  (click_in_its_frame_iff (run_taken true) rfl
    (.step .refl (.frame FinMap.empty [0x43] rfl (by decide)))).2 (by simp [Link.Unharmed, taken])

/-- The write of the first part fails, and the stamp names the frame all the same. -/
theorem click_torn : ¬ ∀ (s s' : Link) (f : Nat), Link.Run .start s → s.current = some f →
    Link.Run s s' → s.InItsFrame s' f := by
  intro hall
  obtain ⟨r, -, hr, hwhole, -⟩ := hall _ (taken false) 1 (run_taken false) rfl .refl
  cases hr
  have hlength := congrArg List.length (hwhole.trans partsOf_bytes)
  rw [show Link.only 1 (taken false).terminal = [back] from rfl] at hlength
  cases hlength

example : (handleAppMouse next.shown world press .none).map (fun o => o.sent.map Report.pane) =
    some [⟨⟨0⟩⟩] := by decide

end FirstClick

end Shux.Attach
