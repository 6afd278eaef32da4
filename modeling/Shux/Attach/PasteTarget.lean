/-
# The pane that a paste goes to

A client sends a paste in pieces. The attach loop keeps the paste whose pieces are arriving, with
its number and the pane it began in, and gives it up at the last piece or at a keystroke. But the
help overlay and copy mode take frames before the loop looks at that paste: a last piece that is
swallowed leaves it in force, and the next paste goes where the old one went.

`Taken` follows the frames that were swallowed. As long as no piece is let through after the end of
the paste in force was swallowed, or in another pane than the one in which its swallowed first
piece arrived, every paste goes to the pane that was active when its first piece arrived, under a
number of its own.
-/

import Shux.Core.Layout
import Shux.Lib.Base64

namespace Shux.Attach

/-- What the attach loop reads of its session. -/
structure PasteSession where
  activePane : PaneId
  helpVisible : Bool
  copyMode : Bool
  deriving DecidableEq

/-- A frame of a client. Actions and mouse events move the focus and open or close overlays. -/
inductive ClientFrame where
  | input (data : List UInt8)
  | paste (data : List UInt8) (more : Bool)
  | act (leaves : PasteSession)
  deriving DecidableEq

/-- Input that was sent to a pane, a piece of a paste with its number. -/
structure Delivery where
  target : PaneId
  bytes : List UInt8
  paste : Option (Bool × Nat)
  deriving DecidableEq

/-- The loop variables. -/
structure PasteLoop where
  session : PasteSession
  /-- The paste whose pieces are arriving with its pane. -/
  pasting : Option (Nat × PaneId)
  pastes : Nat
  deriving DecidableEq

/-- A frame as it arrives, whether copy mode outlives its keys, and whether the pane that it is for
takes it. -/
structure Arrival where
  frame : ClientFrame
  staysInCopyMode : Bool := true
  reaches : Bool := true

namespace PasteLoop

def start (session : PasteSession) : PasteLoop := ⟨session, none, 0⟩

def isDismissal (b : UInt8) : Bool := b == 0x1b || b == 0x71 || b == 0x51

/-- Number the piece of a paste and find its pane, or give the paste in progress up. -/
def aim (s : PasteLoop) (paste : Option Bool) : PasteLoop × Option (Bool × Nat) × PaneId :=
  let active := s.session.activePane
  match paste with
  | some more =>
    let (s, id, pane) := match s.pasting with
      | some (id, pane) => (s, id, pane)
      | none =>
        let id := s.pastes + 1
        ({ s with pasting := some (id, active), pastes := id }, id, active)
    (if more then s else { s with pasting := none }, some (more, id), pane)
  | none => ({ s with pasting := none }, none, active)

/-- A frame with input, the help overlay and copy mode first. -/
def takeInput (s : PasteLoop) (bytes : List UInt8) (paste : Option Bool)
    (staysInCopyMode reaches : Bool) : PasteLoop × Option Delivery :=
  if s.session.helpVisible then
    let dismiss := paste.isNone && bytes.any isDismissal
    ({ s with session := { s.session with helpVisible := !dismiss } }, none)
  else if paste.isSome && s.session.copyMode then (s, none)
  else if s.session.copyMode then
    ({ s with session := { s.session with copyMode := staysInCopyMode } }, none)
  else
    let (s, paste, target) := s.aim paste
    (s, if reaches then some ⟨target, bytes, paste⟩ else none)

/-- A frame that carries input. -/
def takeData (s : PasteLoop) (data : List UInt8) (paste : Option Bool)
    (staysInCopyMode reaches : Bool) : PasteLoop × Option Delivery :=
  match Base64.decode data with
  | none => (s, none)
  | some bytes => s.takeInput bytes paste staysInCopyMode reaches

/-- One turn of the attach loop. -/
def step (s : PasteLoop) (a : Arrival) : PasteLoop × Option Delivery :=
  match a.frame with
  | .input data => s.takeData data none a.staysInCopyMode a.reaches
  | .paste data more => s.takeData data (some more) a.staysInCopyMode a.reaches
  | .act leaves => ({ s with session := leaves }, none)

end PasteLoop

/-- A frame, the pane that was active when it arrived, and what became of it. -/
structure Handled where
  frame : ClientFrame
  active : PaneId
  delivery : Option Delivery
  deriving DecidableEq

namespace Handled

/-- The frame is a piece of a paste. -/
def isPiece (r : Handled) : Bool :=
  match r.frame with
  | .paste _ _ => true
  | _ => false

/-- The frame ends a run of pieces. -/
def ends (r : Handled) : Bool :=
  match r.frame with
  | .paste _ more => !more
  | .input _ => true
  | .act _ => false

/-- The number that a piece was sent under. -/
def number (r : Handled) : Option Nat := r.delivery.bind fun d => d.paste.map Prod.snd

end Handled

/-- The frames of a run, one after the other. -/
def PasteLoop.run (s : PasteLoop) : List Arrival → PasteLoop × List Handled
  | [] => (s, [])
  | a :: as =>
    let (s', delivery) := s.step a
    let (s'', rest) := s'.run as
    (s'', ⟨a.frame, s.session.activePane, delivery⟩ :: rest)

section Histories

variable (h : List Handled)

/-- No run of pieces ends from one frame up to another. -/
def Unbroken (i j : Nat) : Prop := ∀ k r, i ≤ k → k < j → h[k]? = some r → r.ends = false

def PieceAt (i : Nat) : Prop := ∃ r, h[i]? = some r ∧ r.isPiece = true

/-- Two pieces are of one paste, the first of them not after the second. -/
structure Together (i j : Nat) : Prop where
  le : i ≤ j
  first : PieceAt h i
  second : PieceAt h j
  unbroken : Unbroken h i j

/-- A piece is the first of the paste of another. -/
structure FirstOf (i j : Nat) : Prop where
  together : Together h i j
  least : ∀ i', Together h i' j → i ≤ i'

/-- Every paste goes to the pane it was aimed at. -/
structure AimedWell : Prop where
  target : ∀ i j p q d, FirstOf h i j → h[i]? = some p → h[j]? = some q → q.delivery = some d →
    d.target = p.active
  same : ∀ i j p q m n, Together h i j → h[i]? = some p → h[j]? = some q →
    p.number = some m → q.number = some n → m = n
  different : ∀ i j p q m n, i < j → ¬ Together h i j → h[i]? = some p → h[j]? = some q →
    p.number = some m → q.number = some n → m ≠ n

end Histories

/-- What became of the frames of a paste that the loop did not look at. -/
inductive Taken where
  /-- Nothing that the loop would have to know of. -/
  | nothing
  /-- All pieces so far of the paste that is arriving, which began in this pane. -/
  | begun (pane : PaneId)
  /-- The end of the paste in force. -/
  | ended
  deriving DecidableEq

/-- A frame is swallowed, a keystroke or a piece, after which the paste goes on or not. -/
def Taken.swallow (pasting : Option (Nat × PaneId)) (active : PaneId) (goesOn : Bool) :
    Taken → Taken
  | .begun pane => if goesOn then .begun pane else .nothing
  | .ended => .ended
  | .nothing =>
    match pasting, goesOn with
    | some _, true => .nothing
    | some _, false => .ended
    | none, true => .begun active
    | none, false => .nothing

/-- A piece may be let through: it is of the paste in force, or begins one where it arrives. -/
def Taken.Admits (taken : Taken) (active : PaneId) : Prop :=
  match taken with
  | .nothing => True
  | .begun pane => pane = active
  | .ended => False

instance (taken : Taken) (active : PaneId) : Decidable (taken.Admits active) :=
  match taken with
  | .nothing => .isTrue trivial
  | .begun pane => inferInstanceAs (Decidable (pane = active))
  | .ended => .isFalse id

namespace PasteLoop

/-- The loop leaves a frame with input before it looks at the paste in progress. -/
def Swallows (s : PasteLoop) (data : List UInt8) : Prop :=
  (Base64.decode data).isNone ∨ s.session.helpVisible ∨ s.session.copyMode

instance (s : PasteLoop) (data : List UInt8) : Decidable (s.Swallows data) :=
  inferInstanceAs (Decidable (_ ∨ _ ∨ _))

/-- What was swallowed once a frame has been handled. -/
def note (s : PasteLoop) (taken : Taken) : ClientFrame → Taken
  | .input data =>
    if s.Swallows data then taken.swallow s.pasting s.session.activePane false else .nothing
  | .paste data more =>
    if s.Swallows data then taken.swallow s.pasting s.session.activePane more else .nothing
  | .act _ => taken

/-- A piece that is let through finds the paste it belongs to, or none. -/
def Heeds (s : PasteLoop) (taken : Taken) : ClientFrame → Prop
  | .paste data _ => ¬ s.Swallows data → taken.Admits s.session.activePane
  | _ => True

instance (s : PasteLoop) (taken : Taken) (frame : ClientFrame) : Decidable (s.Heeds taken frame) :=
  match frame with
  | .paste _ _ => inferInstanceAs (Decidable (_ → _))
  | .input _ => .isTrue trivial
  | .act _ => .isTrue trivial

/-- Every piece of a run that is let through does. -/
def HeedsAll (s : PasteLoop) (taken : Taken) : List Arrival → Prop
  | [] => True
  | a :: as => s.Heeds taken a.frame ∧ (s.step a).1.HeedsAll (s.note taken a.frame) as

instance decidableHeedsAll :
    (s : PasteLoop) → (taken : Taken) → (as : List Arrival) → Decidable (s.HeedsAll taken as)
  | _, _, [] => .isTrue trivial
  | s, taken, a :: as =>
    have := decidableHeedsAll (s.step a).1 (s.note taken a.frame) as
    inferInstanceAs (Decidable (_ ∧ _))

end PasteLoop

section Concat

variable {h : List Handled} {r : Handled} {i j : Nat}

theorem getElem?_concat_lt (hi : i < h.length) : (h ++ [r])[i]? = h[i]? :=
  List.getElem?_append_left hi

theorem lt_of_getElem? {p : Handled} (hp : (h ++ [r])[i]? = some p) (hne : i ≠ h.length) :
    i < h.length ∧ h[i]? = some p := by
  obtain ⟨hlt, -⟩ := List.getElem?_eq_some_iff.1 hp
  rw [List.length_append, List.length_singleton] at hlt
  have hi : i < h.length := by omega
  exact ⟨hi, getElem?_concat_lt hi ▸ hp⟩

theorem unbroken_concat (hj : j ≤ h.length) : Unbroken (h ++ [r]) i j ↔ Unbroken h i j := by
  refine forall_congr' fun k => forall_congr' fun p => ?_
  refine imp_congr_right fun _ => forall_congr' fun hk => ?_
  rw [getElem?_concat_lt (hk.trans_le hj)]

theorem unbroken_concat_last (hi : i ≤ h.length) :
    Unbroken (h ++ [r]) i (h ++ [r]).length ↔ Unbroken h i h.length ∧ r.ends = false := by
  rw [List.length_append, List.length_singleton, ← unbroken_concat (r := r) le_rfl]
  constructor
  · exact fun hun => ⟨fun k p hik hk => hun k p hik (by omega),
      hun _ r hi (Nat.lt_succ_self _) List.getElem?_concat_length⟩
  · rintro ⟨hun, hends⟩ k p hik hk hp
    rcases Nat.lt_succ_iff_lt_or_eq.1 hk with hlt | rfl
    · exact hun k p hik hlt hp
    · rw [List.getElem?_concat_length] at hp
      cases hp
      exact hends

theorem pieceAt_concat (hi : i < h.length) : PieceAt (h ++ [r]) i ↔ PieceAt h i := by
  rw [PieceAt, getElem?_concat_lt hi, PieceAt]

theorem pieceAt_concat_last : PieceAt (h ++ [r]) h.length ↔ r.isPiece = true := by
  rw [PieceAt, List.getElem?_concat_length]
  simp

theorem together_concat (hj : j < h.length) : Together (h ++ [r]) i j ↔ Together h i j := by
  constructor
  · rintro ⟨hle, hfirst, hsecond, hun⟩
    exact ⟨hle, (pieceAt_concat (hle.trans_lt hj)).1 hfirst, (pieceAt_concat hj).1 hsecond,
      (unbroken_concat hj.le).1 hun⟩
  · rintro ⟨hle, hfirst, hsecond, hun⟩
    exact ⟨hle, (pieceAt_concat (hle.trans_lt hj)).2 hfirst, (pieceAt_concat hj).2 hsecond,
      (unbroken_concat hj.le).2 hun⟩

theorem together_concat_last (hi : i < h.length) : Together (h ++ [r]) i h.length ↔
    PieceAt h i ∧ Unbroken h i h.length ∧ r.isPiece = true := by
  constructor
  · rintro ⟨-, hfirst, hsecond, hun⟩
    exact ⟨(pieceAt_concat hi).1 hfirst, (unbroken_concat le_rfl).1 hun,
      pieceAt_concat_last.1 hsecond⟩
  · rintro ⟨hfirst, hun, hsecond⟩
    exact ⟨hi.le, (pieceAt_concat hi).2 hfirst, pieceAt_concat_last.2 hsecond,
      (unbroken_concat le_rfl).2 hun⟩

theorem together_self (hpiece : PieceAt h i) : Together h i i :=
  ⟨le_rfl, hpiece, hpiece, fun _ _ hle hlt => absurd hlt (not_lt.2 hle)⟩

theorem firstOf_concat (hj : j < h.length) (hfirst : FirstOf (h ++ [r]) i j) : FirstOf h i j :=
  ⟨(together_concat hj).1 hfirst.together,
    fun i' htogether => hfirst.least i' ((together_concat hj).2 htogether)⟩

/-- One more frame keeps the pastes aimed well, when it does itself. -/
theorem AimedWell.concat (hwell : AimedWell h)
    (htarget : ∀ i p d, FirstOf (h ++ [r]) i h.length → (h ++ [r])[i]? = some p →
      r.delivery = some d → d.target = p.active)
    (hnumber : ∀ i p m n, h[i]? = some p → p.number = some m → r.number = some n →
      (m = n ↔ PieceAt h i ∧ Unbroken h i h.length ∧ r.isPiece = true)) :
    AimedWell (h ++ [r]) where
  target i j p q d hfirst hp hq hd := by
    by_cases hj : j = h.length
    · subst hj
      rw [List.getElem?_concat_length] at hq
      cases hq
      exact htarget i p d hfirst hp hd
    · obtain ⟨hlt, hq'⟩ := lt_of_getElem? hq hj
      have hi : i < h.length := hfirst.together.le.trans_lt hlt
      rw [getElem?_concat_lt hi] at hp
      exact hwell.target i j p q d (firstOf_concat hlt hfirst) hp hq' hd
  same i j p q m n htogether hp hq hm hn := by
    by_cases hj : j = h.length
    · subst hj
      rw [List.getElem?_concat_length] at hq
      cases hq
      by_cases hi : i = h.length
      · subst hi
        rw [List.getElem?_concat_length] at hp
        cases hp
        exact Option.some.inj (hm.symm.trans hn)
      · obtain ⟨hlt, hp'⟩ := lt_of_getElem? hp hi
        exact (hnumber i p m n hp' hm hn).2 ((together_concat_last hlt).1 htogether)
    · obtain ⟨hlt, hq'⟩ := lt_of_getElem? hq hj
      rw [getElem?_concat_lt (htogether.le.trans_lt hlt)] at hp
      exact hwell.same i j p q m n ((together_concat hlt).1 htogether) hp hq' hm hn
  different i j p q m n hij hnot hp hq hm hn := by
    by_cases hj : j = h.length
    · subst hj
      rw [List.getElem?_concat_length] at hq
      cases hq
      rw [getElem?_concat_lt hij] at hp
      exact fun heq => hnot ((together_concat_last hij).2 ((hnumber i p m n hp hm hn).1 heq))
    · obtain ⟨hlt, hq'⟩ := lt_of_getElem? hq hj
      rw [getElem?_concat_lt (hij.trans hlt)] at hp
      exact hwell.different i j p q m n hij
        (fun htogether => hnot ((together_concat hlt).2 htogether)) hp hq' hm hn

end Concat

/-- The piece at which the paste in progress began, and what its pieces were sent under. -/
structure Began (h : List Handled) (id : Nat) (pane : PaneId) (i : Nat) : Prop where
  piece : ∃ p, h[i]? = some p ∧ p.isPiece = true ∧ p.active = pane
  unbroken : Unbroken h i h.length
  least : ∀ i', PieceAt h i' → Unbroken h i' h.length → i ≤ i'
  number : ∀ (j : Nat) (r : Handled) (n : Nat), h[j]? = some r → r.number = some n →
    (n = id ↔ i ≤ j)

/-- What is known of the paste that is arriving, of the loop's own and of what was swallowed. -/
inductive Stands (h : List Handled) (pastes : Nat) : Option (Nat × PaneId) → Taken → Prop
  | idle (old : ∀ i, PieceAt h i → ¬ Unbroken h i h.length) : Stands h pastes none .nothing
  | lost {pane : PaneId} {i : Nat} (began : Began h (pastes + 1) pane i) :
      Stands h pastes none (.begun pane)
  | busy {pane : PaneId} {i : Nat} (began : Began h pastes pane i) :
      Stands h pastes (some (pastes, pane)) .nothing
  | ended {going : Nat × PaneId} : Stands h pastes (some going) .ended

/-- What the loop variables say of the frames so far. -/
structure Aiming (h : List Handled) (s : PasteLoop) (taken : Taken) : Prop where
  well : AimedWell h
  bound : ∀ (j : Nat) (r : Handled) (n : Nat), h[j]? = some r → r.number = some n →
    r.isPiece = true ∧ n ≤ s.pastes
  stands : Stands h s.pastes s.pasting taken

/-- What a step does to the paste in progress. -/
inductive Turn (s : PasteLoop) (taken : Taken) (r : Handled) (s' : PasteLoop) (taken' : Taken) :
    Prop
  /-- The frame has nothing to do with it. -/
  | quiet (pasting : s'.pasting = s.pasting) (pastes : s'.pastes = s.pastes)
      (kept : taken' = taken) (undelivered : r.delivery = none) (act : r.isPiece = false)
      (goesOn : r.ends = false)
  /-- The frame is swallowed. -/
  | swallowed (pasting : s'.pasting = s.pasting) (pastes : s'.pastes = s.pastes)
      (noted : taken' = taken.swallow s.pasting r.active (!r.ends))
      (undelivered : r.delivery = none) (isPiece : r.ends = false → r.isPiece = true)
  /-- A keystroke gives it up. -/
  | keyed (pasting : s'.pasting = none) (pastes : s'.pastes = s.pastes) (noted : taken' = .nothing)
      (key : r.isPiece = false) (ends : r.ends = true) (unnumbered : r.number = none)
  /-- A piece goes where the paste began, or begins one. -/
  | piece (id : Nat) (pane : PaneId) (admitted : taken.Admits r.active)
      (aimed : (s.pasting = some (id, pane) ∧ s'.pastes = s.pastes) ∨
        (s.pasting = none ∧ id = s.pastes + 1 ∧ pane = r.active ∧ s'.pastes = id))
      (pasting : s'.pasting = if r.ends then none else some (id, pane)) (noted : taken' = .nothing)
      (isPiece : r.isPiece = true)
      (delivered : ∀ d, r.delivery = some d → d.target = pane ∧ d.paste.map Prod.snd = some id)

namespace PasteLoop

variable {a : Arrival} {data : List UInt8} {taken : Taken}

/-- The record of a step. -/
def handled (s : PasteLoop) (a : Arrival) : Handled := ⟨a.frame, s.session.activePane, (s.step a).2⟩

variable {s : PasteLoop}

theorem takeData_swallowed (h : s.Swallows data) (paste : Option Bool) (stays reaches : Bool) :
    (s.takeData data paste stays reaches).1.pasting = s.pasting ∧
      (s.takeData data paste stays reaches).1.pastes = s.pastes ∧
      (s.takeData data paste stays reaches).2 = none := by
  unfold takeData
  split
  · exact ⟨rfl, rfl, rfl⟩
  · next bytes hdecode =>
    have hover := h.resolve_left (by simp [hdecode])
    unfold takeInput
    split
    · exact ⟨rfl, rfl, rfl⟩
    · next hhelp =>
      rw [if_pos (hover.resolve_left hhelp)]
      split <;> exact ⟨rfl, rfl, rfl⟩

theorem takeData_open (h : ¬ s.Swallows data) (paste : Option Bool) (stays reaches : Bool) :
    ∃ bytes, s.takeData data paste stays reaches =
      ((s.aim paste).1, if reaches then some ⟨(s.aim paste).2.2, bytes, (s.aim paste).2.1⟩
        else none) := by
  rw [Swallows, not_or, not_or] at h
  obtain ⟨hdecode, hhelp, hcopy⟩ := h
  have hsome : (Base64.decode data).isSome = true := by
    simpa [Option.isSome_iff_ne_none] using hdecode
  obtain ⟨bytes, hbytes⟩ := Option.isSome_iff_exists.1 hsome
  refine ⟨bytes, ?_⟩
  rw [takeData, hbytes]
  dsimp only
  rw [takeInput, if_neg hhelp, if_neg (by simp [hcopy]), if_neg hcopy]

/-- The turn of a piece that no overlay takes. -/
theorem turn_piece {more : Bool} (hframe : a.frame = .paste data more) (hopen : ¬ s.Swallows data)
    (hadmits : taken.Admits s.session.activePane) :
    Turn s taken (s.handled a) (s.step a).1 (s.note taken a.frame) := by
  obtain ⟨bytes, htake⟩ := takeData_open hopen (some more) a.staysInCopyMode a.reaches
  have hstep : s.step a = ((s.aim (some more)).1,
      if a.reaches then some ⟨(s.aim (some more)).2.2, bytes, (s.aim (some more)).2.1⟩
      else none) := by
    rw [step, hframe]
    exact htake
  have hends : (s.handled a).ends = !more := by rw [handled, hframe]; rfl
  have hpiece : (s.handled a).isPiece = true := by rw [handled, hframe]; rfl
  obtain ⟨id, pane, haim, htarget⟩ : ∃ id pane,
      ((s.pasting = some (id, pane) ∧ (s.aim (some more)).1.pastes = s.pastes) ∨
        (s.pasting = none ∧ id = s.pastes + 1 ∧ pane = s.session.activePane ∧
          (s.aim (some more)).1.pastes = id)) ∧
      (s.aim (some more)).1.pasting = (if !more then none else some (id, pane)) ∧
      (s.aim (some more)).2 = (some (more, id), pane) := by
    unfold aim
    cases hpasting : s.pasting with
    | none =>
      exact ⟨s.pastes + 1, s.session.activePane, .inr ⟨rfl, rfl, rfl, by cases more <;> rfl⟩,
        by cases more <;> rfl, rfl⟩
    | some going =>
      obtain ⟨id, pane⟩ := going
      exact ⟨id, pane, .inl ⟨rfl, by cases more <;> rfl⟩, by cases more <;> simp [hpasting], rfl⟩
  have hnote : s.note taken a.frame = .nothing := by
    rw [hframe]
    exact if_neg hopen
  refine .piece id pane hadmits ?_ ?_ hnote hpiece fun d hd => ?_
  · rw [hstep]
    exact haim
  · rw [hstep, hends]
    exact htarget.1
  · change (s.step a).2 = some d at hd
    rw [hstep] at hd
    dsimp only at hd
    split at hd
    · cases hd
      rw [htarget.2]
      exact ⟨rfl, rfl⟩
    · cases hd

/-- The turn of a keystroke that no overlay takes. -/
theorem turn_key (hframe : a.frame = .input data) (hopen : ¬ s.Swallows data) :
    Turn s taken (s.handled a) (s.step a).1 (s.note taken a.frame) := by
  obtain ⟨bytes, htake⟩ := takeData_open hopen none a.staysInCopyMode a.reaches
  have hstep : s.step a = ({ s with pasting := none },
      if a.reaches then some ⟨s.session.activePane, bytes, none⟩ else none) := by
    rw [step, hframe]
    exact htake
  refine .keyed (by rw [hstep]) (by rw [hstep]) (by rw [hframe]; exact if_neg hopen)
    (by rw [handled, hframe]; rfl) (by rw [handled, hframe]; rfl) ?_
  rw [Handled.number, handled]
  dsimp only
  rw [hstep]
  cases a.reaches <;> rfl

/-- What a step can do. -/
theorem turn (hheeds : s.Heeds taken a.frame) :
    Turn s taken (s.handled a) (s.step a).1 (s.note taken a.frame) := by
  cases hframe : a.frame with
  | act leaves =>
    refine .quiet (by rw [step, hframe]) (by rw [step, hframe]) rfl ?_ ?_ ?_
    · rw [handled, step, hframe]
    · rw [handled, hframe]
      rfl
    · rw [handled, hframe]
      rfl
  | input data =>
    by_cases hswallows : s.Swallows data
    · obtain ⟨hpasting, hpastes, hnone⟩ :=
        takeData_swallowed hswallows none a.staysInCopyMode a.reaches
      have hends : (s.handled a).ends = true := by rw [handled, hframe]; rfl
      refine .swallowed (by rw [step, hframe]; exact hpasting)
        (by rw [step, hframe]; exact hpastes) ?_ ?_ fun hgoes => ?_
      · rw [hends]
        exact if_pos hswallows
      · rw [handled, step, hframe]
        exact hnone
      · rw [hends] at hgoes
        cases hgoes
    · exact hframe ▸ turn_key hframe hswallows
  | paste data more =>
    rw [hframe] at hheeds
    by_cases hswallows : s.Swallows data
    · obtain ⟨hpasting, hpastes, hnone⟩ :=
        takeData_swallowed hswallows (some more) a.staysInCopyMode a.reaches
      refine .swallowed (by rw [step, hframe]; exact hpasting)
        (by rw [step, hframe]; exact hpastes) ?_ ?_ fun _ => by rw [handled, hframe]; rfl
      · have hmore : (!(s.handled a).ends) = more := by
          rw [handled, hframe]
          exact Bool.not_not more
        rw [hmore]
        exact if_pos hswallows
      · rw [handled, step, hframe]
        exact hnone
    · exact hframe ▸ turn_piece hframe hswallows (hheeds hswallows)

end PasteLoop

section Aim

variable {h : List Handled} {r : Handled} {s s' : PasteLoop}
variable {pane : PaneId} {taken taken' : Taken}

theorem Aiming.start (session : PasteSession) : Aiming [] (.start session) .nothing where
  well := {
    target := fun _ _ _ _ _ hfirst => by
      obtain ⟨p, hp, -⟩ := hfirst.together.first
      cases hp
    same := fun _ _ _ _ _ _ _ hp => by cases hp
    different := fun _ _ _ _ _ _ _ _ hp => by cases hp }
  bound _ _ _ hr := by cases hr
  stands := .idle fun i hpiece => by
    obtain ⟨p, hp, -⟩ := hpiece
    cases hp

/-- After a frame that ends a run of pieces no piece is of the paste to come. -/
theorem not_unbroken_of_ends (hends : r.ends = true) {i : Nat} (hpiece : PieceAt (h ++ [r]) i) :
    ¬ Unbroken (h ++ [r]) i (h ++ [r]).length := by
  obtain ⟨p, hp, -⟩ := hpiece
  obtain ⟨hlt, -⟩ := List.getElem?_eq_some_iff.1 hp
  rw [List.length_append, List.length_singleton] at hlt
  rw [unbroken_concat_last (by omega), hends]
  exact fun hun => Bool.noConfusion hun.2

/-- A frame that goes nowhere as a piece keeps the pastes aimed well. -/
theorem AimedWell.unnumbered (hwell : AimedWell h) (hnumber : r.number = none)
    (hpiece : r.delivery = none ∨ r.isPiece = false) : AimedWell (h ++ [r]) := by
  refine hwell.concat (fun i p d hfirst hp hd => ?_) (fun i p m n hp hm hn => ?_)
  · rcases hpiece with hnone | hkey
    · rw [hnone] at hd
      cases hd
    · have hlast := pieceAt_concat_last.1 hfirst.together.second
      rw [hkey] at hlast
      cases hlast
  · rw [hnumber] at hn
    cases hn

theorem Aiming.bound_concat (ha : Aiming h s taken) (hpastes : s.pastes ≤ s'.pastes)
    (hlast : ∀ n, r.number = some n → r.isPiece = true ∧ n ≤ s'.pastes) :
    ∀ (j : Nat) (q : Handled) (n : Nat), (h ++ [r])[j]? = some q → q.number = some n →
      q.isPiece = true ∧ n ≤ s'.pastes := by
  intro j q n hq hn
  by_cases hj : j = h.length
  · subst hj
    rw [List.getElem?_concat_length] at hq
    cases hq
    exact hlast n hn
  · obtain ⟨-, hq'⟩ := lt_of_getElem? hq hj
    exact (ha.bound j q n hq' hn).imp_right fun hle => hle.trans hpastes

/-- A paste in progress goes on over a frame that does not end it. -/
theorem Began.concat {id i : Nat} (hb : Began h id pane i)
    (hends : r.ends = false) (hnumber : ∀ n, r.number = some n → n = id) :
    Began (h ++ [r]) id pane i := by
  obtain ⟨p, hp, hpiece, hactive⟩ := hb.piece
  obtain ⟨hlt, -⟩ := List.getElem?_eq_some_iff.1 hp
  refine ⟨⟨p, (getElem?_concat_lt hlt).trans hp, hpiece, hactive⟩,
    (unbroken_concat_last hlt.le).2 ⟨hb.unbroken, hends⟩, fun i' hat hun => ?_,
    fun j q n hq hn => ?_⟩
  · rcases Nat.lt_or_ge i' h.length with hlt' | hge
    · exact hb.least i' ((pieceAt_concat hlt').1 hat) ((unbroken_concat_last hlt'.le).1 hun).1
    · exact hlt.le.trans hge
  · by_cases hj : j = h.length
    · subst hj
      rw [List.getElem?_concat_length] at hq
      cases hq
      exact iff_of_true (hnumber n hn) hlt.le
    · obtain ⟨-, hq'⟩ := lt_of_getElem? hq hj
      exact hb.number j q n hq' hn

/-- A paste begins with a piece that follows no other one. -/
theorem Began.first {id : Nat} (hold : ∀ i, PieceAt h i → ¬ Unbroken h i h.length)
    (hold' : ∀ (j : Nat) (q : Handled) (n : Nat), h[j]? = some q → q.number = some n → n < id)
    (hpiece : r.isPiece = true) (hends : r.ends = false)
    (hnumber : ∀ n, r.number = some n → n = id) : Began (h ++ [r]) id r.active h.length := by
  refine ⟨⟨r, List.getElem?_concat_length, hpiece, rfl⟩,
    (unbroken_concat_last le_rfl).2 ⟨fun k p hle hlt => absurd hlt (not_lt.2 hle), hends⟩,
    fun i' hat hun => ?_, fun j q n hq hn => ?_⟩
  · by_contra hlt
    rw [not_le] at hlt
    exact hold i' ((pieceAt_concat hlt).1 hat) ((unbroken_concat_last hlt.le).1 hun).1
  · by_cases hj : j = h.length
    · subst hj
      rw [List.getElem?_concat_length] at hq
      cases hq
      exact iff_of_true (hnumber n hn) le_rfl
    · obtain ⟨hlt, hq'⟩ := lt_of_getElem? hq hj
      exact iff_of_false (hold' j q n hq' hn).ne (not_le.2 hlt)

theorem number_none (hnone : r.delivery = none) (n : Nat) : r.number ≠ some n := by
  rw [Handled.number, hnone, Option.bind_none]
  exact (Option.some_ne_none n).symm

/-- After a frame that is neither a piece nor a keystroke all is as it was. -/
theorem Stands.quiet {pastes : Nat} {pasting : Option (Nat × PaneId)}
    (hs : Stands h pastes pasting taken) (hno : ∀ n, r.number ≠ some n) (hact : r.isPiece = false)
    (hends : r.ends = false) : Stands (h ++ [r]) pastes pasting taken := by
  cases hs with
  | idle old =>
    refine .idle fun i hat hun => ?_
    have hi : i ≠ h.length := by
      rintro rfl
      rw [pieceAt_concat_last, hact] at hat
      cases hat
    obtain ⟨p, hp, -⟩ := id hat
    obtain ⟨hlt, -⟩ := lt_of_getElem? hp hi
    exact old i ((pieceAt_concat hlt).1 hat) ((unbroken_concat_last hlt.le).1 hun).1
  | lost began => exact .lost (began.concat hends fun n hn => absurd hn (hno n))
  | busy began => exact .busy (began.concat hends fun n hn => absurd hn (hno n))
  | ended => exact .ended

/-- After a frame that was swallowed. -/
theorem Stands.swallow {pastes : Nat} {pasting : Option (Nat × PaneId)}
    (hs : Stands h pastes pasting taken) (hno : ∀ n, r.number ≠ some n)
    (hbound : ∀ (j : Nat) (q : Handled) (n : Nat), h[j]? = some q → q.number = some n → n ≤ pastes)
    (hpiece : r.ends = false → r.isPiece = true) :
    Stands (h ++ [r]) pastes pasting (taken.swallow pasting r.active (!r.ends)) := by
  have hnumber : ∀ {id n : Nat}, r.number = some n → n = id := fun hn => absurd hn (hno _)
  cases hends : r.ends with
  | true =>
    have hidle : Stands (h ++ [r]) pastes none .nothing :=
      .idle fun i => not_unbroken_of_ends hends
    cases hs with
    | idle old => exact hidle
    | lost began => exact hidle
    | busy began => exact .ended
    | ended => exact .ended
  | false =>
    cases hs with
    | idle old =>
      exact .lost (.first old (fun j q n hq hn => Nat.lt_succ_of_le (hbound j q n hq hn))
        (hpiece hends) hends fun n => hnumber)
    | lost began => exact .lost (began.concat hends fun n => hnumber)
    | busy began => exact .busy (began.concat hends fun n => hnumber)
    | ended => exact .ended

theorem number_of_delivered {id : Nat}
    (h : ∀ d, r.delivery = some d → d.target = pane ∧ d.paste.map Prod.snd = some id) {n : Nat}
    (hn : r.number = some n) : n = id := by
  obtain ⟨d, hd, hpaste⟩ := Option.bind_eq_some_iff.1 hn
  rw [(h d hd).2] at hpaste
  exact (Option.some.inj hpaste).symm

/-- After a piece that was let through, once it is known of which paste it is. -/
theorem Stands.piece {id : Nat} (hbegan : r.ends = false → ∃ i, Began (h ++ [r]) id pane i) :
    Stands (h ++ [r]) id (if r.ends then none else some (id, pane)) .nothing := by
  cases hends : r.ends with
  | true => exact .idle fun i => not_unbroken_of_ends hends
  | false =>
    obtain ⟨i, hbegan⟩ := hbegan hends
    exact .busy hbegan

/-- A piece that begins a paste. -/
theorem AimedWell.first (hwell : AimedWell h) (hold : ∀ i, PieceAt h i → ¬ Unbroken h i h.length)
    {id : Nat}
    (hbound : ∀ (j : Nat) (q : Handled) (n : Nat), h[j]? = some q → q.number = some n → n < id)
    (hdelivered : ∀ d, r.delivery = some d →
      d.target = r.active ∧ d.paste.map Prod.snd = some id) : AimedWell (h ++ [r]) := by
  refine hwell.concat (fun i p d hfirst hp hd => ?_) fun i p m n hp hm hn => ?_
  · by_cases hi : i = h.length
    · subst hi
      rw [List.getElem?_concat_length] at hp
      cases hp
      exact (hdelivered d hd).1
    · obtain ⟨hlt, -⟩ := lt_of_getElem? hp hi
      obtain ⟨hat, hun, -⟩ := (together_concat_last hlt).1 hfirst.together
      exact absurd hun (hold i hat)
  · rw [number_of_delivered hdelivered hn]
    exact iff_of_false (hbound i p m hp hm).ne fun htogether => hold i htogether.1 htogether.2.1

/-- A later piece of a paste, whether earlier ones were let through or not. -/
theorem AimedWell.later (hwell : AimedWell h) {id i₀ : Nat} (hbegan : Began h id pane i₀)
    (hpieces : ∀ (j : Nat) (q : Handled) (n : Nat), h[j]? = some q → q.number = some n →
      q.isPiece = true) (hpiece : r.isPiece = true)
    (hdelivered : ∀ d, r.delivery = some d → d.target = pane ∧ d.paste.map Prod.snd = some id) :
    AimedWell (h ++ [r]) := by
  obtain ⟨p₀, hp₀, hpiece₀, hactive⟩ := hbegan.piece
  obtain ⟨hlt₀, -⟩ := List.getElem?_eq_some_iff.1 hp₀
  have hat₀ : PieceAt h i₀ := ⟨p₀, hp₀, hpiece₀⟩
  refine hwell.concat (fun i p d hfirst hp hd => ?_) fun i p m n hp hm hn => ?_
  · have hle := hfirst.least i₀ ((together_concat_last hlt₀).2 ⟨hat₀, hbegan.unbroken, hpiece⟩)
    have hlt := hle.trans_lt hlt₀
    obtain ⟨hat, hun, -⟩ := (together_concat_last hlt).1 hfirst.together
    have heq : i = i₀ := le_antisymm hle (hbegan.least i hat hun)
    rw [getElem?_concat_lt hlt, heq, hp₀] at hp
    cases hp
    rw [hactive]
    exact (hdelivered d hd).1
  · rw [number_of_delivered hdelivered hn, hbegan.number i p m hp hm]
    constructor
    · exact fun hle => ⟨⟨p, hp, hpieces i p m hp hm⟩,
        fun k q hik hk hq => hbegan.unbroken k q (hle.trans hik) hk hq, hpiece⟩
    · exact fun htogether => hbegan.least i htogether.1 htogether.2.1

/-- One more piece, of the paste in force or of the next one. -/
theorem Aiming.piece (ha : Aiming h s taken) {id : Nat} (hadmitted : taken.Admits r.active)
    (haimed : (s.pasting = some (id, pane) ∧ s'.pastes = s.pastes) ∨
      (s.pasting = none ∧ id = s.pastes + 1 ∧ pane = r.active ∧ s'.pastes = id))
    (hpasting : s'.pasting = if r.ends then none else some (id, pane)) (hpiece : r.isPiece = true)
    (hdelivered : ∀ d, r.delivery = some d → d.target = pane ∧ d.paste.map Prod.snd = some id) :
    Aiming (h ++ [r]) s' .nothing := by
  have hnumber : ∀ n, r.number = some n → n = id := fun n => number_of_delivered hdelivered
  have hpieces := fun j q n hq hn => (ha.bound j q n hq hn).1
  have hlt : ∀ (j : Nat) (q : Handled) (n : Nat), h[j]? = some q → q.number = some n →
      n < s.pastes + 1 := fun j q n hq hn => Nat.lt_succ_of_le (ha.bound j q n hq hn).2
  have hall (hid : s'.pastes = id) (hwell : AimedWell (h ++ [r]))
      (hbegan : r.ends = false → ∃ i, Began (h ++ [r]) id pane i)
      (hle : s.pastes ≤ s'.pastes) : Aiming (h ++ [r]) s' .nothing := by
    refine ⟨hwell, ha.bound_concat hle fun n hn => ⟨hpiece, ?_⟩, ?_⟩
    · exact (hnumber n hn).trans hid.symm ▸ le_rfl
    · rw [hpasting, hid]
      exact .piece hbegan
  have hstands := ha.stands
  generalize s.pasting = pasting at haimed hstands
  cases hstands with
  | idle old =>
    obtain ⟨-, rfl, rfl, hpastes⟩ := haimed.resolve_left fun hbusy => by cases hbusy.1
    exact hall hpastes (ha.well.first old hlt hdelivered)
      (fun hends => ⟨_, .first old hlt hpiece hends hnumber⟩) (by omega)
  | lost began =>
    -- the pieces before this one were swallowed where it arrives
    obtain rfl := hadmitted
    obtain ⟨-, rfl, rfl, hpastes⟩ := haimed.resolve_left fun hbusy => by cases hbusy.1
    exact hall hpastes (ha.well.later began hpieces hpiece hdelivered)
      (fun hends => ⟨_, began.concat hends hnumber⟩) (by omega)
  | busy began =>
    obtain ⟨hgoing, hpastes⟩ := haimed.resolve_right fun hidle => by cases hidle.1
    cases hgoing
    exact hall hpastes (ha.well.later began hpieces hpiece hdelivered)
      (fun hends => ⟨_, began.concat hends hnumber⟩) hpastes.ge
  | ended => exact hadmitted.elim

/-- One more frame. -/
theorem Aiming.step (ha : Aiming h s taken) (hturn : Turn s taken r s' taken') :
    Aiming (h ++ [r]) s' taken' := by
  cases hturn with
  | quiet pasting pastes kept undelivered act goesOn =>
    subst kept
    have hno := number_none undelivered
    refine ⟨ha.well.unnumbered (Option.eq_none_iff_forall_ne_some.2 hno) (.inl undelivered),
      ha.bound_concat pastes.ge fun n hn => absurd hn (hno n), ?_⟩
    rw [pasting, pastes]
    exact ha.stands.quiet hno act goesOn
  | swallowed pasting pastes noted undelivered isPiece =>
    subst noted
    have hno := number_none undelivered
    refine ⟨ha.well.unnumbered (Option.eq_none_iff_forall_ne_some.2 hno) (.inl undelivered),
      ha.bound_concat pastes.ge fun n hn => absurd hn (hno n), ?_⟩
    rw [pasting, pastes]
    exact ha.stands.swallow hno (fun j q n hq hn => (ha.bound j q n hq hn).2) isPiece
  | keyed pasting pastes noted key ends unnumbered =>
    subst noted
    refine ⟨ha.well.unnumbered unnumbered (.inr key), ha.bound_concat pastes.ge fun n hn => ?_, ?_⟩
    · rw [unnumbered] at hn
      cases hn
    · rw [pasting]
      exact .idle fun i => not_unbroken_of_ends ends
  | piece id pane admitted aimed pasting noted isPiece delivered =>
    exact noted ▸ ha.piece admitted aimed pasting isPiece delivered

theorem Aiming.run (ha : Aiming h s taken) {as : List Arrival} (hheeds : s.HeedsAll taken as) :
    AimedWell (h ++ (s.run as).2) := by
  induction as generalizing h s taken with
  | nil =>
    rw [PasteLoop.run, List.append_nil]
    exact ha.well
  | cons a as ih =>
    have hrest := ih (ha.step (PasteLoop.turn hheeds.1)) hheeds.2
    rw [List.append_assoc] at hrest
    exact hrest

end Aim

/-- As long as every piece that is let through finds the paste it belongs to or none, every piece
that reaches a pane goes to the pane that was active when its own paste began, all pieces of one
paste bear one number, and those of two pastes never share one. -/
theorem pastes_aimed_well (session : PasteSession) (as : List Arrival)
    (hheeds : (PasteLoop.start session).HeedsAll .nothing as) :
    AimedWell ((PasteLoop.start session).run as).2 :=
  (Aiming.start session).run hheeds

namespace TwoPastes

def pane : PaneId := ⟨⟨0⟩⟩

def other : PaneId := ⟨⟨1⟩⟩

/-- The text of one letter. -/
def piece (letter : UInt8) (more : Bool) : ClientFrame := .paste (Base64.encode [letter]) more

/-- A paste in two pieces with the focus moved between them, one that the help overlay swallows
whole, and one of which it swallows the first piece. -/
def arrivals : List Arrival :=
  [⟨piece 0x61 true, true, true⟩, ⟨.act ⟨other, false, false⟩, true, true⟩,
    ⟨piece 0x62 false, true, true⟩, ⟨.act ⟨other, true, false⟩, true, true⟩,
    ⟨piece 0x63 true, true, true⟩, ⟨piece 0x64 false, true, true⟩, ⟨piece 0x65 true, true, true⟩,
    ⟨.act ⟨other, false, false⟩, true, true⟩, ⟨piece 0x66 false, true, true⟩]

theorem pastes_aimed_well_two : AimedWell ((PasteLoop.start ⟨pane, false, false⟩).run arrivals).2 :=
  pastes_aimed_well ⟨pane, false, false⟩ arrivals (by decide)

/-- The help overlay is opened before the last piece of a paste and closed after it. Then the focus
moves, and another paste begins. -/
def behindHelp : List Arrival :=
  [⟨piece 0x61 true, true, true⟩, ⟨.act ⟨pane, true, false⟩, true, true⟩,
    ⟨piece 0x62 false, true, true⟩, ⟨.act ⟨pane, false, false⟩, true, true⟩,
    ⟨.act ⟨other, false, false⟩, true, true⟩, ⟨piece 0x63 false, true, true⟩]

/-- The second paste goes to the pane of the first. -/
theorem paste_misaimed : ¬ ∀ session as, AimedWell ((PasteLoop.start session).run as).2 := by
  intro hall
  have hwell := hall ⟨pane, false, false⟩ behindHelp
  have hfirst : FirstOf ((PasteLoop.start ⟨pane, false, false⟩).run behindHelp).2 5 5 := by
    refine ⟨together_self ⟨_, rfl, rfl⟩, fun i htogether => ?_⟩
    by_contra hlt
    -- the piece that was swallowed ended its paste
    have hends : 2 < i := by
      by_contra hle
      have hunbroken := htogether.unbroken 2 ⟨piece 0x62 false, pane, none⟩ (by omega) (by decide)
        rfl
      cases hunbroken
    obtain ⟨p, hp, hpiece⟩ := htogether.first
    obtain rfl | rfl : i = 3 ∨ i = 4 := by omega
    · cases hp
      cases hpiece
    · cases hp
      cases hpiece
  have htarget := hwell.target 5 5 _ _ _ hfirst rfl rfl rfl
  exact absurd htarget (by decide)

end TwoPastes

end Shux.Attach
