/-
# Bounds on a pane's input

Input that waits for a pane's program is bounded where it is sent: a chunk holds a slot of the
channel until it is received, and its share of a budget until it is written. Control input may use
a smaller budget of its own, and urgent input has room outside every bound.

A `reserve` waits for its budget and then for a slot, and may be dropped at any time; the steps of
its future are steps of the channel. Semaphores serve their waiters first come, first served.
-/

import Shux.Io.InputQueue
import Shux.Lib.Semaphore

namespace Shux.Io

open Semaphore List Function InputTask

/-- The semaphores of a channel. -/
inductive Sem where
  | main
  | control
  | slots
  deriving DecidableEq

/-- Unwritten bytes of a pane's input. -/
def budgetLimit : Nat := 16 * 1024 * 1024
/-- Unwritten bytes of control input that may wait beside them. -/
def controlLimit : Nat := 64 * 1024
/-- Chunks that may wait to be received, urgent input aside. -/
def slotLimit : Nat := 256

/-- What a chunk of `len` bytes takes of a budget: one larger than all of it takes all. -/
def cost (limit len : Nat) : Nat := min (len + chunkCost) limit

/-- The future of a `reserve` that has its budget. -/
structure Reserving where
  budget : OwnedPermit Sem
  slot : Option (OwnedPermit Sem)
  len : Nat

/-- Room for one chunk of `len` bytes, a slot and its budget, either absent for urgent input. -/
structure InputPermit where
  slot : Option (OwnedPermit Sem)
  budget : Option (OwnedPermit Sem)
  len : Nat

/-- A chunk in the channel, holding its slot until it is received. -/
structure Queued where
  input : PaneInput Sem
  slot : Option (OwnedPermit Sem)
  len : Nat

/-- A chunk that was received, and how much of it was written. -/
structure InputChunk where
  input : PaneInput Sem
  written : Nat
  len : Nat

/-- A pane's input channel with everything that holds room in it. -/
structure InputChannel where
  limit : Sem → Nat
  free : Sem → Nat
  /-- Futures of `reserve` that wait for the budget, by the bytes they ask for. -/
  waitBudget : List Nat
  funded : List Reserving
  waitSlot : List Reserving
  placed : List Reserving
  permits : List InputPermit
  queue : List Queued
  chunks : List InputChunk
  closed : Bool
  sent : List Bytes
  received : List Bytes

/-- What may happen to a channel. Numbers say which future, permit or chunk it happens to. -/
inductive ChannelAction where
  | reserve (len : Nat)
  /-- The future of a `reserve` that has its budget goes on to ask for a slot. -/
  | askSlot (i : Nat)
  /-- The future of a `reserve` that has both returns. -/
  | finish (i : Nat)
  /-- The future of a `reserve` is dropped, wherever it has got to. -/
  | abandonBudget (i : Nat)
  | abandonFunded (i : Nat)
  | abandonSlot (i : Nat)
  | abandonPlaced (i : Nat)
  | tryReserveIn (len : Nat) (lane : Lane)
  /-- At most the room that was asked for is used, and the chunk's own cost. -/
  | send (i : Nat) (bytes : Bytes)
  | receive
  | wrote (i : Nat) (n : Nat)
  | dropPermit (i : Nat)
  | dropChunk (i : Nat)
  | dropReceiver

namespace InputChannel

def channelWith (slots budget : Nat) : InputChannel where
  limit | .main => budget | .control => controlLimit | .slots => slots
  free | .main => budget | .control => controlLimit | .slots => slots
  waitBudget := []
  funded := []
  waitSlot := []
  placed := []
  permits := []
  queue := []
  chunks := []
  closed := false
  sent := []
  received := []

/-- A pane's input channel with the default bounds. -/
def channel : InputChannel := channelWith slotLimit budgetLimit

/-- Serve those who wait for the budget. -/
def grantBudget (ch : InputChannel) : InputChannel :=
  let costOf := cost (ch.limit .main)
  let (left, waiting, served) := grant costOf (ch.free .main) ch.waitBudget
  { ch with
    free := update ch.free .main left
    waitBudget := waiting
    funded := ch.funded ++ served.map fun len => ⟨⟨.main, costOf len⟩, none, len⟩ }

/-- Serve those who wait for a slot. -/
def grantSlot (ch : InputChannel) : InputChannel :=
  let (left, waiting, served) := grant (fun _ => 1) (ch.free .slots) ch.waitSlot
  { ch with
    free := update ch.free .slots left
    waitSlot := waiting
    placed := ch.placed ++ served.map fun r => { r with slot := some ⟨.slots, 1⟩ } }

/-- Permits are dropped. -/
def giveBack (ch : InputChannel) (owned : List (OwnedPermit Sem)) : InputChannel :=
  grantSlot (grantBudget { ch with free := release ch.free owned })

/-- Take permits that are free, if nobody waits for them. -/
def tryTake (ch : InputChannel) (sem : Sem) (n : Nat) : Option (OwnedPermit Sem × InputChannel) :=
  let waits := match sem with
    | .main => !ch.waitBudget.isEmpty
    | .control => false
    | .slots => !ch.waitSlot.isEmpty
  if waits = false ∧ n ≤ ch.free sem then
    some (⟨sem, n⟩, { ch with free := update ch.free sem (ch.free sem - n) })
  else none

/-- Room for a chunk from one budget, without waiting. -/
def tryReserveFrom (ch : InputChannel) (budget : Sem) (len : Nat) :
    Except TrySendError InputPermit × InputChannel :=
  if ch.closed then (.error .closed, ch)
  else
    match ch.tryTake budget (cost (ch.limit budget) len) with
    | none => (.error .full, ch)
    | some (taken, ch) =>
      match ch.tryTake .slots 1 with
      | none => (.error .full, ch.giveBack [taken])
      | some (slot, ch) => (.ok ⟨some slot, some taken, len⟩, ch)

/-- The same, then wherever the lane allows. -/
def tryReserveIn (ch : InputChannel) (len : Nat) (lane : Lane) :
    Except TrySendError InputPermit × InputChannel :=
  let (permit, ch) := ch.tryReserveFrom .main len
  let (permit, ch) := match permit with
    | .error .full => if lane = Lane.main then (permit, ch) else ch.tryReserveFrom .control len
    | permit => (permit, ch)
  match permit with
  | .error .full => if lane = Lane.urgent then (.ok ⟨none, none, len⟩, ch) else (permit, ch)
  | permit => (permit, ch)

/-- Room that was given is kept until it is used. -/
def keep : Except TrySendError InputPermit × InputChannel → InputChannel
  | (.ok permit, ch) => { ch with permits := ch.permits ++ [permit] }
  | (.error _, ch) => ch

/-- What a future that has its budget does next. -/
def runFunded (ch : InputChannel) (r : Reserving) : InputChannel :=
  if ch.closed then ch.giveBack (r.budget :: r.slot.toList)
  else grantSlot { ch with waitSlot := ch.waitSlot ++ [r] }

def runPlaced (ch : InputChannel) (r : Reserving) : InputChannel :=
  if ch.closed then ch.giveBack (r.budget :: r.slot.toList)
  else { ch with permits := ch.permits ++ [⟨r.slot, some r.budget, r.len⟩] }

/-- Queue bytes; when the pane is gone they are dropped. -/
def sendWith (ch : InputChannel) (permit : InputPermit) (bytes : Bytes) : InputChannel :=
  if ch.closed then ch.giveBack (permit.budget.toList ++ permit.slot.toList)
  else
    { ch with
      queue := ch.queue ++ [⟨⟨bytes, permit.budget⟩, permit.slot, permit.len⟩]
      sent := ch.sent ++ [bytes] }

def step (ch : InputChannel) : ChannelAction → InputChannel
  | .reserve len =>
    if ch.closed then ch else grantBudget { ch with waitBudget := ch.waitBudget ++ [len] }
  | .askSlot i =>
    match ch.funded[i]? with
    | none => ch
    | some r => { ch with funded := ch.funded.eraseIdx i }.runFunded r
  | .finish i =>
    match ch.placed[i]? with
    | none => ch
    | some r => { ch with placed := ch.placed.eraseIdx i }.runPlaced r
  | .abandonBudget i => { ch with waitBudget := ch.waitBudget.eraseIdx i }.giveBack []
  | .abandonFunded i =>
    match ch.funded[i]? with
    | none => ch
    | some r => { ch with funded := ch.funded.eraseIdx i }.giveBack (r.budget :: r.slot.toList)
  | .abandonSlot i =>
    match ch.waitSlot[i]? with
    | none => ch
    | some r => { ch with waitSlot := ch.waitSlot.eraseIdx i }.giveBack (r.budget :: r.slot.toList)
  | .abandonPlaced i =>
    match ch.placed[i]? with
    | none => ch
    | some r => { ch with placed := ch.placed.eraseIdx i }.giveBack (r.budget :: r.slot.toList)
  | .tryReserveIn len lane => keep (ch.tryReserveIn len lane)
  | .send i bytes =>
    match ch.permits[i]? with
    | none => ch
    | some permit =>
      if permit.len + chunkCost < bytes.length then ch
      else { ch with permits := ch.permits.eraseIdx i }.sendWith permit bytes
  | .receive =>
    match ch.queue with
    | [] => ch
    | front :: rest =>
      { ch with
        queue := rest
        chunks := ch.chunks ++ [InputChunk.mk front.input 0 front.len]
        received := ch.received ++ [front.input.bytes] }.giveBack front.slot.toList
  | .wrote i n =>
    match ch.chunks[i]? with
    | none => ch
    | some chunk =>
      if chunk.input.bytes.length < chunk.written + n then ch
      else
        let (input, back) := chunk.input.wrote n
        let chunk := InputChunk.mk input (chunk.written + n) chunk.len
        { ch with chunks := ch.chunks.set i chunk }.giveBack back.toList
  | .dropPermit i =>
    match ch.permits[i]? with
    | none => ch
    | some permit =>
      { ch with permits := ch.permits.eraseIdx i }.giveBack
        (permit.budget.toList ++ permit.slot.toList)
  | .dropChunk i =>
    match ch.chunks[i]? with
    | none => ch
    | some chunk => { ch with chunks := ch.chunks.eraseIdx i }.giveBack chunk.input.budget.toList
  | .dropReceiver =>
    { ch with queue := [], closed := true }.giveBack
      (ch.queue.flatMap fun q : Queued => q.input.budget.toList ++ q.slot.toList)

/-- A run of a pane's channel. -/
def run (actions : List ChannelAction) : InputChannel := actions.foldl step channel

end InputChannel

/-- Something that holds room in a channel, for a chunk of `size` bytes of which some were
written. Before the chunk is sent its size is nothing. -/
structure Holder where
  budget : Option (OwnedPermit Sem)
  slot : Option (OwnedPermit Sem)
  len : Nat
  size : Nat
  written : Nat

namespace Holder

def owned (h : Holder) : List (OwnedPermit Sem) := h.budget.toList ++ h.slot.toList

/-- Permits of a semaphore that a holder has. -/
def held (k : Sem) (h : Holder) : Nat := heldOf k h.owned

/-- Whether the chunk takes its budget from a semaphore. -/
def drawsOn (k : Sem) (h : Holder) : Bool := h.budget.any fun p => decide (p.semaphore = k)

/-- Whether all permits of the main budget were taken at once. -/
def took (limit : Sem → Nat) (k : Sem) (h : Holder) : Bool :=
  decide (k = .main) && h.drawsOn .main && decide (limit .main ≤ h.len + chunkCost)

/-- What a holder of a budget has: what it took less what was written, but always the chunk's own
cost. -/
structure Ok (limit : Sem → Nat) (h : Holder) : Prop where
  written : h.written ≤ h.size
  size : h.size ≤ h.len + chunkCost
  slot : ∀ p, h.slot = some p → p = ⟨.slots, 1⟩
  lane : ∀ p, h.budget = some p → p.semaphore = .main ∨ p.semaphore = .control
  budget : ∀ p, h.budget = some p →
    p.permits = cost (limit p.semaphore) h.len -
      min h.written (cost (limit p.semaphore) h.len - chunkCost)

end Holder

def Reserving.holder (r : Reserving) : Holder := ⟨some r.budget, r.slot, r.len, 0, 0⟩

def InputPermit.holder (permit : InputPermit) : Holder :=
  ⟨permit.budget, permit.slot, permit.len, 0, 0⟩

def Queued.holder (q : Queued) : Holder := ⟨q.input.budget, q.slot, q.len, q.input.bytes.length, 0⟩

def InputChunk.holder (chunk : InputChunk) : Holder :=
  ⟨chunk.input.budget, none, chunk.len, chunk.input.bytes.length, chunk.written⟩

/-- All who hold room in a channel. -/
def InputChannel.holders (ch : InputChannel) : Multiset Holder :=
  (ch.funded.map Reserving.holder : Multiset Holder) + ch.waitSlot.map Reserving.holder +
    ch.placed.map Reserving.holder + ch.permits.map InputPermit.holder +
      ch.queue.map Queued.holder + ch.chunks.map InputChunk.holder

/-- Holders hold what they may, and the rest is free. -/
structure Funds (limit free : Sem → Nat) (holders : Multiset Holder) : Prop where
  ok : ∀ h ∈ holders, h.Ok limit
  balanced : Balanced Holder.held (Holder.took limit) limit free holders

variable {limit free free' : Sem → Nat} {holders : Multiset Holder} {h h' : Holder}

theorem heldOf_nil (k : Sem) : heldOf k [] = 0 := rfl

theorem Holder.held_budget (k : Sem) (p : OwnedPermit Sem) (len size written : Nat) :
    Holder.held k ⟨some p, none, len, size, written⟩ = if p.semaphore = k then p.permits else 0 :=
  heldOf_singleton k p

theorem Holder.held_eq (k : Sem) (h : Holder) :
    h.held k = heldOf k h.budget.toList + heldOf k h.slot.toList := heldOf_append _ _ _

/-- Slots are no budget. -/
theorem Holder.Ok.held_main (hok : h.Ok limit) {p : OwnedPermit Sem} (hp : h.budget = some p)
    (k : Sem) (hk : p.semaphore = k) : h.held k = p.permits := by
  rw [held_eq, hp]
  have hbudget : heldOf k [p] = p.permits := by rw [heldOf_singleton, if_pos hk]
  have hslot : heldOf k h.slot.toList = 0 := by
    cases hs : h.slot with
    | none => rfl
    | some q =>
      rw [hok.slot q hs]
      refine (heldOf_singleton _ _).trans (if_neg fun heq => ?_)
      rcases hok.lane p hp with hlane | hlane
      all_goals cases hlane.symm.trans (hk.trans heq.symm)
  show heldOf k [p] + _ = _
  rw [hbudget, hslot, Nat.add_zero]

/-- A chunk never gives its own cost back before it is dropped. -/
theorem Holder.Ok.cost_le (hok : h.Ok limit) {p : OwnedPermit Sem} (hp : h.budget = some p)
    (hroom : chunkCost ≤ limit p.semaphore) : chunkCost ≤ p.permits := by
  rw [hok.budget p hp]
  unfold cost
  omega

theorem Holder.took_iff {k : Sem} : h.took limit k = true ↔
    k = .main ∧ (∃ p, h.budget = some p ∧ p.semaphore = .main) ∧
      limit .main ≤ h.len + chunkCost := by
  unfold took drawsOn
  rw [Bool.and_eq_true, Bool.and_eq_true, decide_eq_true_iff, decide_eq_true_iff, and_assoc]
  refine and_congr_right fun _ => and_congr_left fun _ => ?_
  cases h.budget with
  | none => simp
  | some p => simp

/-- Whoever took all of the main budget still holds some of it. -/
theorem Holder.Ok.alive (hok : h.Ok limit) (hroom : chunkCost ≤ limit .main) {k : Sem}
    (htook : h.took limit k = true) : 0 < h.held k := by
  obtain ⟨rfl, ⟨p, hp, hmain⟩, -⟩ := took_iff.mp htook
  have hcost := hok.cost_le hp (hmain ▸ hroom)
  have hpos : 0 < chunkCost := by decide
  rw [hok.held_main hp _ hmain]
  omega

namespace Funds

/-- A holder that has given everything back. -/
theorem give (hf : Funds limit free (h ::ₘ holders)) :
    Funds limit (release free h.owned) holders where
  ok other hmem := hf.ok other (Multiset.mem_cons_of_mem hmem)
  balanced := hf.balanced.give fun _ => rfl

/-- A holder of all permits that it may take. -/
theorem take (hf : Funds limit free holders) (hok : h.Ok limit) (hroom : chunkCost ≤ limit .main)
    (hfresh : h.written = 0) (hfree : ∀ k, free' k + h.held k = free k) :
    Funds limit free' (h ::ₘ holders) where
  ok := Multiset.forall_mem_cons.mpr ⟨hok, hf.ok⟩
  balanced := by
    refine hf.balanced.take hfree fun k htook => ?_
    obtain ⟨rfl, ⟨p, hp, hmain⟩, hall⟩ := Holder.took_iff.mp htook
    have hbudget := hok.budget p hp
    have hpos : 0 < chunkCost := by decide
    rw [hfresh, Nat.zero_min, Nat.sub_zero, hmain] at hbudget
    rw [hok.held_main hp _ hmain, hbudget]
    unfold cost
    omega

/-- A holder that goes on, having given some permits back. -/
theorem change (hf : Funds limit free (h ::ₘ holders)) (hok : h'.Ok limit)
    (hroom : chunkCost ≤ limit .main) (hlen : h'.len = h.len)
    (hlane : h'.drawsOn .main = h.drawsOn .main)
    (hfree : ∀ k, free' k + h'.held k = free k + h.held k) :
    Funds limit free' (h' ::ₘ holders) where
  ok := Multiset.forall_mem_cons.mpr ⟨hok, fun other hmem =>
    hf.ok other (Multiset.mem_cons_of_mem hmem)⟩
  balanced := by
    refine hf.balanced.change hfree fun k htook => ⟨?_, hok.alive hroom htook⟩
    unfold Holder.took at htook ⊢
    rwa [hlen, hlane] at htook

end Funds

namespace InputChannel

variable {ch : InputChannel}
variable {α : Type}

/-- The accounts of a channel. -/
def Funded (ch : InputChannel) : Prop := Funds ch.limit ch.free ch.holders

/-- A part of a list, and the rest of it. -/
theorem coe_eraseIdx {xs : List α} {i : Nat} {a : α} (f : α → Holder) (h : xs[i]? = some a) :
    (xs.map f : Multiset Holder) = f a ::ₘ ((xs.eraseIdx i).map f : Multiset Holder) := by
  obtain ⟨hlt, rfl⟩ := List.getElem?_eq_some_iff.mp h
  refine Multiset.coe_eq_coe.mpr ?_
  exact ((getElem_cons_eraseIdx_perm hlt).symm.map f)

theorem coe_append (xs ys : List α) (f : α → Holder) :
    ((xs ++ ys).map f : Multiset Holder) = (xs.map f : Multiset Holder) + ys.map f := by
  rw [map_append, Multiset.coe_add]

theorem coe_concat (xs : List α) (a : α) (f : α → Holder) :
    ((xs ++ [a]).map f : Multiset Holder) = f a ::ₘ (xs.map f : Multiset Holder) := by
  rw [coe_append, add_comm]
  rfl

/-- A fresh share of the main budget. -/
theorem ok_fresh {sem : Sem} (hlane : sem = .main ∨ sem = .control) (len : Nat)
    {slot : Option (OwnedPermit Sem)} (hslot : ∀ p, slot = some p → p = ⟨.slots, 1⟩) :
    Holder.Ok limit ⟨some ⟨sem, cost (limit sem) len⟩, slot, len, 0, 0⟩ where
  written := le_rfl
  size := Nat.zero_le _
  slot := hslot
  lane p hp := by
    cases hp
    exact hlane
  budget p hp := by
    cases hp
    rw [Nat.zero_min, Nat.sub_zero]

theorem Funded.grantBudget (hf : ch.Funded) (hroom : chunkCost ≤ ch.limit .main) :
    ch.grantBudget.Funded := by
  obtain ⟨hok, hb⟩ := hf
  have hnoslot : ∀ p, (none : Option (OwnedPermit Sem)) = some p → p = ⟨.slots, 1⟩ := fun p hp => by
    cases hp
  have hfresh : ∀ len, Holder.Ok ch.limit
      (Reserving.holder ⟨⟨.main, cost (ch.limit .main) len⟩, none, len⟩) := fun len =>
    ok_fresh (.inl rfl) len hnoslot
  have hgrant := hb.grant (cost (ch.limit .main)) .main
    (fun len => Reserving.holder ⟨⟨.main, cost (ch.limit .main) len⟩, none, len⟩)
    (fun len => (hfresh len).held_main rfl _ rfl)
    (fun len j hj => (Holder.held_budget _ _ _ _ _).trans (if_neg (Ne.symm hj)))
    (fun len j htook => by
      have hpos := (hfresh len).alive hroom htook
      obtain ⟨rfl, -, hall⟩ := Holder.took_iff.mp htook
      have hheld := (hfresh len).held_main rfl .main rfl
      have hcost : cost (ch.limit .main) len = ch.limit .main := Nat.min_eq_right hall
      rw [hheld] at hpos ⊢
      exact ⟨hcost, hcost ▸ hpos⟩)
    ch.waitBudget
  have hholders : ch.grantBudget.holders =
      ((grant (cost (ch.limit .main)) (ch.free .main) ch.waitBudget).2.2.map
        (fun len => Reserving.holder ⟨⟨.main, cost (ch.limit .main) len⟩, none, len⟩) :
          Multiset Holder) + ch.holders := by
    unfold InputChannel.grantBudget holders
    dsimp only
    rw [coe_append, map_map]
    simp only [add_assoc, add_left_comm, comp_def]
  refine ⟨?_, ?_⟩
  · rw [hholders]
    intro h hmem
    rcases Multiset.mem_add.mp hmem with hnew | hold
    · obtain ⟨len, -, rfl⟩ := mem_map.mp (Multiset.mem_coe.mp hnew)
      exact hfresh len
    · exact hok h hold
  · rw [hholders]
    exact hgrant

/-- A future with a slot, and without one. -/
def withSlot (r : Reserving) : Holder := Reserving.holder { r with slot := some ⟨.slots, 1⟩ }

def withoutSlot (r : Reserving) : Holder := Reserving.holder { r with slot := none }

theorem map_withoutSlot {waiting : List Reserving} (h : ∀ r ∈ waiting, r.slot = none) :
    waiting.map Reserving.holder = waiting.map withoutSlot := by
  refine map_congr_left fun r hr => ?_
  unfold withoutSlot
  rw [← h r hr]

theorem held_withSlot (k : Sem) (r : Reserving) :
    (withSlot r).held k = (withoutSlot r).held k + if Sem.slots = k then 1 else 0 := by
  rw [Holder.held_eq, Holder.held_eq]
  show heldOf k [r.budget] + heldOf k [⟨.slots, 1⟩] = heldOf k [r.budget] + heldOf k [] + _
  rw [heldOf_singleton k ⟨.slots, 1⟩, heldOf_nil, Nat.add_zero]

theorem ok_withSlot {r : Reserving} (h : (withoutSlot r).Ok limit) : (withSlot r).Ok limit :=
  ⟨h.written, h.size, fun p hp => by cases hp; rfl, h.lane, h.budget⟩

theorem Funded.grantSlot (hf : ch.Funded) (hroom : chunkCost ≤ ch.limit .main)
    (hwait : ∀ r ∈ ch.waitSlot, r.slot = none) : ch.grantSlot.Funded := by
  obtain ⟨hok, hb⟩ := hf
  obtain ⟨others, hothers⟩ : ∃ others : Multiset Holder, others =
      (ch.funded.map Reserving.holder : Multiset Holder) + ch.placed.map Reserving.holder +
        ch.permits.map InputPermit.holder + ch.queue.map Queued.holder +
          ch.chunks.map InputChunk.holder := ⟨_, rfl⟩
  have hsplit : ch.holders = (ch.waitSlot.map withoutSlot : Multiset Holder) + others := by
    unfold holders
    rw [map_withoutSlot hwait, hothers]
    abel
  have hline := grant_split (fun _ : Reserving => 1) (ch.free .slots) ch.waitSlot
  have hrest : ∀ r ∈ (grant (fun _ : Reserving => 1) (ch.free .slots) ch.waitSlot).2.1,
      r.slot = none := fun r hr => hwait r (hline ▸ mem_append_right _ hr)
  have hholders : ch.grantSlot.holders =
      ((grant (fun _ => 1) (ch.free .slots) ch.waitSlot).2.1.map withoutSlot : Multiset Holder) +
        (((grant (fun _ => 1) (ch.free .slots) ch.waitSlot).2.2.map withSlot : Multiset Holder) +
          others) := by
    unfold InputChannel.grantSlot holders
    dsimp only
    rw [coe_append, map_withoutSlot hrest, map_map, hothers]
    have hserved : Reserving.holder ∘ (fun r : Reserving => { r with slot := some ⟨.slots, 1⟩ }) =
        withSlot := rfl
    rw [hserved]
    abel
  have hokAll : ∀ r ∈ ch.waitSlot, (withoutSlot r).Ok ch.limit := fun r hr => by
    refine hok _ ?_
    rw [hsplit]
    exact Multiset.mem_add.mpr (.inl (Multiset.mem_coe.mpr (mem_map_of_mem hr)))
  refine ⟨?_, ?_⟩
  · rw [hholders]
    intro h hmem
    rcases Multiset.mem_add.mp hmem with hstill | hmem
    · obtain ⟨r, hr, rfl⟩ := mem_map.mp (Multiset.mem_coe.mp hstill)
      exact hokAll r (hline ▸ mem_append_right _ hr)
    · rcases Multiset.mem_add.mp hmem with hserved | hother
      · obtain ⟨r, hr, rfl⟩ := mem_map.mp (Multiset.mem_coe.mp hserved)
        exact ok_withSlot (hokAll r (hline ▸ mem_append_left _ hr))
      · refine hok h ?_
        rw [hsplit]
        exact Multiset.mem_add.mpr (.inr hother)
  · rw [hholders]
    rw [hsplit] at hb
    refine hb.grantMore .slots withoutSlot withSlot (fun r => ?_) (fun r j hj => ?_)
      ch.waitSlot fun r hr j htook => ?_
    · rw [held_withSlot, if_pos rfl]
    · rw [held_withSlot, if_neg (Ne.symm hj), Nat.add_zero]
    · exact ⟨htook, (ok_withSlot (hokAll r hr)).alive hroom htook⟩

/-! ## What holds in every state -/

/-- Chunks are in order, and no future has a slot before it gets one. -/
structure Orderly (ch : InputChannel) : Prop where
  main : chunkCost ≤ ch.limit .main
  limit : ch.limit = channel.limit
  unslotted : ∀ r ∈ ch.funded ++ ch.waitSlot, r.slot = none
  order : ch.received <+: ch.sent
  pending : ch.closed = false → ch.sent = ch.received ++ ch.queue.map fun q => q.input.bytes
  drained : ch.closed = true → ch.queue = []

/-- The order is no matter of what is free, of who waits, of the permits or of the chunks on
their way. -/
theorem Orderly.keep (h : ch.Orderly) {free waitBudget placed permits chunks} :
    Orderly { ch with free, waitBudget, placed, permits, chunks } :=
  ⟨h.main, h.limit, h.unslotted, h.order, h.pending, h.drained⟩

/-- The first who waits for the budget has to. -/
def Stuck (ch : InputChannel) : Prop :=
  ∀ len rest, ch.waitBudget = len :: rest → ch.free .main < cost (ch.limit .main) len

structure Sound (ch : InputChannel) : Prop where
  funded : ch.Funded
  orderly : ch.Orderly
  stuck : ch.Stuck

theorem Orderly.grantBudget (h : ch.Orderly) : ch.grantBudget.Orderly := by
  refine ⟨h.main, h.limit, ?_, h.order, h.pending, h.drained⟩
  intro r hr
  unfold InputChannel.grantBudget at hr
  dsimp only at hr
  rcases mem_append.mp hr with hr | hr
  · rcases mem_append.mp hr with hr | hr
    · exact h.unslotted r (mem_append_left _ hr)
    · obtain ⟨len, -, rfl⟩ := mem_map.mp hr
      rfl
  · exact h.unslotted r (mem_append_right _ hr)

theorem Orderly.grantSlot (h : ch.Orderly) : ch.grantSlot.Orderly := by
  refine ⟨h.main, h.limit, ?_, h.order, h.pending, h.drained⟩
  intro r hr
  unfold InputChannel.grantSlot at hr
  dsimp only at hr
  refine h.unslotted r ?_
  rcases mem_append.mp hr with hr | hr
  · exact mem_append_left _ hr
  · have hline := grant_split (fun _ : Reserving => 1) (ch.free .slots) ch.waitSlot
    rw [hline]
    exact mem_append_right _ (mem_append_right _ hr)

theorem stuck_grantBudget (ch : InputChannel) : ch.grantBudget.Stuck := by
  intro len rest hwait
  show update ch.free .main _ .main < _
  rw [update_self]
  exact grant_stuck _ _ _ hwait

theorem Stuck.grantSlot (h : ch.Stuck) : ch.grantSlot.Stuck := by
  intro len rest hwait
  have hfree : ch.grantSlot.free = update ch.free .slots
      (grant (fun _ => 1) (ch.free .slots) ch.waitSlot).1 := rfl
  rw [hfree, update_of_ne (show Sem.main ≠ Sem.slots by decide)]
  exact h len rest hwait

/-- Permits that are dropped go to those who wait. -/
theorem sound_giveBack {owned : List (OwnedPermit Sem)} (horderly : ch.Orderly)
    (hfunds : Funds ch.limit (release ch.free owned) ch.holders) :
    (ch.giveBack owned).Sound := by
  have hback : Funded { ch with free := release ch.free owned } := hfunds
  have hback' : Orderly { ch with free := release ch.free owned } :=
    ⟨horderly.main, horderly.limit, horderly.unslotted, horderly.order, horderly.pending,
      horderly.drained⟩
  have hbudget := hback.grantBudget horderly.main
  have hbudget' := hback'.grantBudget
  refine ⟨?_, hbudget'.grantSlot, (stuck_grantBudget _).grantSlot⟩
  exact hbudget.grantSlot horderly.main fun r hr => hbudget'.unslotted r (mem_append_right _ hr)

/-- A holder is dropped. -/
theorem sound_drop {ch' : InputChannel} (hs : ch.Sound) (horderly : ch'.Orderly)
    (hlimit : ch'.limit = ch.limit) (hfree : ch'.free = ch.free)
    (hholders : ch.holders = h ::ₘ ch'.holders) : (ch'.giveBack h.owned).Sound := by
  refine sound_giveBack horderly ?_
  have hfunds : Funds ch.limit ch.free (h ::ₘ ch'.holders) := hholders ▸ hs.funded
  rw [hlimit, hfree]
  exact hfunds.give

theorem Sound.reserve (hs : ch.Sound) (len : Nat) : (ch.step (.reserve len)).Sound := by
  unfold step
  split_ifs
  · exact hs
  · have hfunded : Funded { ch with waitBudget := ch.waitBudget ++ [len] } := hs.funded
    have horderly : Orderly { ch with waitBudget := ch.waitBudget ++ [len] } := hs.orderly.keep
    exact ⟨hfunded.grantBudget hs.orderly.main, horderly.grantBudget, stuck_grantBudget _⟩

theorem mem_of_mem_eraseIdx {xs : List α} {i : Nat} {a : α} (h : a ∈ xs.eraseIdx i) :
    a ∈ xs := (eraseIdx_sublist xs i).subset h

section

variable {i : Nat} {r : Reserving}

theorem holders_funded (hr : ch.funded[i]? = some r) :
    ch.holders = r.holder ::ₘ { ch with funded := ch.funded.eraseIdx i }.holders := by
  unfold holders
  rw [coe_eraseIdx _ hr]
  simp only [Multiset.cons_add]

theorem orderly_funded (h : ch.Orderly) : { ch with funded := ch.funded.eraseIdx i }.Orderly := by
  refine ⟨h.main, h.limit, fun r hr => h.unslotted r ?_, h.order, h.pending, h.drained⟩
  rcases mem_append.mp hr with hr | hr
  · exact mem_append_left _ (mem_of_mem_eraseIdx hr)
  · exact mem_append_right _ hr

theorem holders_waitSlot (hr : ch.waitSlot[i]? = some r) :
    ch.holders = r.holder ::ₘ { ch with waitSlot := ch.waitSlot.eraseIdx i }.holders := by
  unfold holders
  rw [coe_eraseIdx _ hr]
  simp only [Multiset.cons_add, Multiset.add_cons]

theorem orderly_waitSlot (h : ch.Orderly) :
    { ch with waitSlot := ch.waitSlot.eraseIdx i }.Orderly := by
  refine ⟨h.main, h.limit, fun r hr => h.unslotted r ?_, h.order, h.pending, h.drained⟩
  rcases mem_append.mp hr with hr | hr
  · exact mem_append_left _ hr
  · exact mem_append_right _ (mem_of_mem_eraseIdx hr)

theorem holders_placed (hr : ch.placed[i]? = some r) :
    ch.holders = r.holder ::ₘ { ch with placed := ch.placed.eraseIdx i }.holders := by
  unfold holders
  rw [coe_eraseIdx _ hr]
  simp only [Multiset.cons_add, Multiset.add_cons]

theorem holders_permits {permit : InputPermit} (hp : ch.permits[i]? = some permit) :
    ch.holders = permit.holder ::ₘ { ch with permits := ch.permits.eraseIdx i }.holders := by
  unfold holders
  rw [coe_eraseIdx _ hp]
  simp only [Multiset.cons_add, Multiset.add_cons]

theorem holders_chunks {chunk : InputChunk} (hc : ch.chunks[i]? = some chunk) :
    ch.holders = chunk.holder ::ₘ { ch with chunks := ch.chunks.eraseIdx i }.holders := by
  unfold holders
  rw [coe_eraseIdx _ hc]
  simp only [Multiset.add_cons]

section

variable (hs : ch.Sound)
include hs

theorem Sound.askSlot (i : Nat) : (ch.step (.askSlot i)).Sound := by
  unfold step
  dsimp only
  cases hr : ch.funded[i]? with
  | none => exact hs
  | some r =>
    have horderly := orderly_funded (i := i) hs.orderly
    dsimp only
    unfold runFunded
    split_ifs with hclosed
    · have hdrop := sound_drop hs horderly rfl rfl (holders_funded hr)
      exact hdrop
    · have hslot := hs.orderly.unslotted r
        (mem_append_left _ (mem_of_getElem? hr))
      have hsame : { ch with
          funded := ch.funded.eraseIdx i, waitSlot := ch.waitSlot ++ [r] }.holders =
          ch.holders := by
        rw [holders_funded hr]
        unfold holders
        dsimp only
        rw [coe_concat]
        simp only [Multiset.cons_add, Multiset.add_cons]
      have hwait : ∀ r' ∈ ch.waitSlot ++ [r], r'.slot = none := by
        intro r' hr'
        rcases mem_append.mp hr' with hr' | hr'
        · exact hs.orderly.unslotted r' (mem_append_right _ hr')
        · exact mem_singleton.mp hr' ▸ hslot
      have hfunded : Funded { ch with
          funded := ch.funded.eraseIdx i, waitSlot := ch.waitSlot ++ [r] } := by
        unfold Funded
        rw [hsame]
        exact hs.funded
      have horderly' : Orderly { ch with
          funded := ch.funded.eraseIdx i, waitSlot := ch.waitSlot ++ [r] } := by
        refine ⟨hs.orderly.main, hs.orderly.limit, fun r' hr' => ?_, hs.orderly.order,
          hs.orderly.pending, hs.orderly.drained⟩
        rcases mem_append.mp hr' with hr' | hr'
        · exact horderly.unslotted r' (mem_append_left _ hr')
        · exact hwait r' hr'
      have hstuck : Stuck { ch with
          funded := ch.funded.eraseIdx i, waitSlot := ch.waitSlot ++ [r] } := hs.stuck
      exact ⟨hfunded.grantSlot hs.orderly.main hwait, horderly'.grantSlot, hstuck.grantSlot⟩

theorem Sound.finish (i : Nat) : (ch.step (.finish i)).Sound := by
  unfold step
  dsimp only
  cases hr : ch.placed[i]? with
  | none => exact hs
  | some r =>
    have horderly : Orderly { ch with placed := ch.placed.eraseIdx i } := hs.orderly.keep
    dsimp only
    unfold runPlaced
    split_ifs with hclosed
    · have hdrop := sound_drop hs horderly rfl rfl (holders_placed hr)
      exact hdrop
    · refine ⟨?_, hs.orderly.keep, hs.stuck⟩
      have hsame : { ch with
          placed := ch.placed.eraseIdx i
          permits := ch.permits ++ [InputPermit.mk r.slot (some r.budget) r.len] }.holders =
          ch.holders := by
        rw [holders_placed hr]
        unfold holders
        dsimp only
        rw [coe_concat]
        simp only [Multiset.cons_add, Multiset.add_cons]
        rfl
      unfold Funded
      dsimp only
      rw [hsame]
      exact hs.funded

theorem Sound.abandonBudget (i : Nat) : (ch.step (.abandonBudget i)).Sound := by
  have horderly : Orderly { ch with waitBudget := ch.waitBudget.eraseIdx i } := hs.orderly.keep
  exact sound_giveBack horderly hs.funded

theorem Sound.abandonFunded (i : Nat) : (ch.step (.abandonFunded i)).Sound := by
  unfold step
  dsimp only
  cases hr : ch.funded[i]? with
  | none => exact hs
  | some r =>
    have hdrop := sound_drop hs (orderly_funded hs.orderly) rfl rfl (holders_funded hr)
    exact hdrop

theorem Sound.abandonSlot (i : Nat) : (ch.step (.abandonSlot i)).Sound := by
  unfold step
  dsimp only
  cases hr : ch.waitSlot[i]? with
  | none => exact hs
  | some r =>
    have hdrop := sound_drop hs (orderly_waitSlot hs.orderly) rfl rfl (holders_waitSlot hr)
    exact hdrop

theorem Sound.abandonPlaced (i : Nat) : (ch.step (.abandonPlaced i)).Sound := by
  unfold step
  dsimp only
  cases hr : ch.placed[i]? with
  | none => exact hs
  | some r =>
    have horderly : Orderly { ch with placed := ch.placed.eraseIdx i } := hs.orderly.keep
    have hdrop := sound_drop hs horderly rfl rfl (holders_placed hr)
    exact hdrop

theorem Sound.dropPermit (i : Nat) : (ch.step (.dropPermit i)).Sound := by
  unfold step
  dsimp only
  cases hp : ch.permits[i]? with
  | none => exact hs
  | some permit =>
    have horderly : Orderly { ch with permits := ch.permits.eraseIdx i } := hs.orderly.keep
    have hdrop := sound_drop hs horderly rfl rfl (holders_permits hp)
    exact hdrop

theorem Sound.dropChunk (i : Nat) : (ch.step (.dropChunk i)).Sound := by
  unfold step
  dsimp only
  cases hc : ch.chunks[i]? with
  | none => exact hs
  | some chunk =>
    have howned : chunk.holder.owned = chunk.input.budget.toList := append_nil _
    have horderly : Orderly { ch with chunks := ch.chunks.eraseIdx i } := hs.orderly.keep
    have hdrop := sound_drop hs horderly rfl rfl (holders_chunks hc)
    rw [howned] at hdrop
    exact hdrop

theorem Sound.send (i : Nat) (bytes : Bytes) : (ch.step (.send i bytes)).Sound := by
  unfold step
  dsimp only
  cases hp : ch.permits[i]? with
  | none => exact hs
  | some permit =>
    have horderly : Orderly { ch with permits := ch.permits.eraseIdx i } := hs.orderly.keep
    dsimp only
    by_cases hlong : permit.len + chunkCost < bytes.length
    · rw [if_pos hlong]
      exact hs
    rw [if_neg hlong]
    unfold sendWith
    split_ifs with hclosed
    · have hdrop := sound_drop hs horderly rfl rfl (holders_permits hp)
      exact hdrop
    · have hfunds : Funds ch.limit ch.free
          (permit.holder ::ₘ { ch with permits := ch.permits.eraseIdx i }.holders) :=
        holders_permits hp ▸ hs.funded
      have hok := hfunds.ok _ (Multiset.mem_cons_self _ _)
      have hnew : Holder.Ok ch.limit (Queued.holder ⟨⟨bytes, permit.budget⟩, permit.slot,
          permit.len⟩) :=
        ⟨Nat.zero_le _, Nat.not_lt.mp hlong, hok.slot, hok.lane, hok.budget⟩
      have hchange : Funds ch.limit ch.free (_ ::ₘ _) :=
        hfunds.change hnew hs.orderly.main rfl rfl fun _ => rfl
      have hsame : { ch with
          permits := ch.permits.eraseIdx i
          queue := ch.queue ++ [Queued.mk (PaneInput.mk bytes permit.budget) permit.slot permit.len]
          sent := ch.sent ++ [bytes] }.holders =
          Queued.holder ⟨⟨bytes, permit.budget⟩, permit.slot, permit.len⟩ ::ₘ
            { ch with permits := ch.permits.eraseIdx i }.holders := by
        unfold holders
        dsimp only
        rw [coe_concat]
        simp only [Multiset.cons_add, Multiset.add_cons]
      refine ⟨?_, ⟨hs.orderly.main, hs.orderly.limit, hs.orderly.unslotted, ?_, fun hopen => ?_,
        fun hclosed' => (hclosed hclosed').elim⟩, hs.stuck⟩
      · unfold Funded
        dsimp only
        rw [hsame]
        exact hchange
      · exact hs.orderly.order.trans (prefix_append _ _)
      · dsimp only
        rw [hs.orderly.pending hopen, map_append, append_assoc]
        rfl

theorem Sound.receive : (ch.step .receive).Sound := by
  unfold step
  dsimp only
  cases hq : ch.queue with
  | nil => exact hs
  | cons front rest =>
    obtain ⟨ch', hch'⟩ : ∃ ch', ch' = { ch with
      queue := rest
      chunks := ch.chunks ++ [InputChunk.mk front.input 0 front.len]
      received := ch.received ++ [front.input.bytes] } := ⟨_, rfl⟩
    obtain ⟨others, hothers⟩ : ∃ others : Multiset Holder, others =
        { ch with queue := rest }.holders := ⟨_, rfl⟩
    have hbefore : ch.holders = front.holder ::ₘ others := by
      rw [hothers]
      unfold holders
      rw [hq, map_cons, ← Multiset.cons_coe]
      simp only [Multiset.cons_add, Multiset.add_cons]
    have hafter : ch'.holders = InputChunk.holder ⟨front.input, 0, front.len⟩ ::ₘ others := by
      rw [hch', hothers]
      unfold holders
      dsimp only
      rw [coe_concat]
      simp only [Multiset.add_cons]
    have hfunds : Funds ch.limit ch.free (front.holder ::ₘ others) := hbefore ▸ hs.funded
    have hok := hfunds.ok _ (Multiset.mem_cons_self _ _)
    have hnew : Holder.Ok ch.limit (InputChunk.holder ⟨front.input, 0, front.len⟩) :=
      ⟨Nat.zero_le _, hok.size, (fun p hp => by cases hp), hok.lane, hok.budget⟩
    have hfree : ∀ k, release ch.free front.slot.toList k +
        (InputChunk.holder ⟨front.input, 0, front.len⟩).held k =
          ch.free k + front.holder.held k := by
      intro k
      rw [Holder.held_eq, Holder.held_eq]
      show ch.free k + heldOf k front.slot.toList + (heldOf k front.input.budget.toList + 0) =
        ch.free k + (heldOf k front.input.budget.toList + heldOf k front.slot.toList)
      omega
    have hchange := hfunds.change hnew hs.orderly.main rfl rfl hfree
    have hopen : ch.closed = false := by
      by_contra hclosed
      have hnil := hs.orderly.drained (Bool.eq_true_of_not_eq_false hclosed)
      rw [hq] at hnil
      cases hnil
    have hsent := hs.orderly.pending hopen
    rw [hq, map_cons, append_cons] at hsent
    dsimp only
    rw [← hch']
    refine sound_giveBack ?_ ?_
    · rw [hch']
      refine ⟨hs.orderly.main, hs.orderly.limit, hs.orderly.unslotted, ?_, fun _ => hsent,
        fun hclosed => ?_⟩
      · dsimp only
        rw [hsent]
        exact prefix_append _ _
      · rw [hopen] at hclosed
        cases hclosed
    · rw [hafter, hch']
      exact hchange

end

theorem sub_min_sub_min (c w n k : Nat) :
    c - min w (c - k) - min n (c - min w (c - k) - k) = c - min (w + n) (c - k) := by
  have hsum : min w (c - k) + min n (c - k - w) = min (w + n) (c - k) := by omega
  have hrest : c - min w (c - k) - k = c - k - w := by clear hsum; omega
  rw [hrest, Nat.sub_sub, hsum]

/-- Writing some of a chunk gives as many permits back, while it has more than its own cost. -/
theorem ok_wrote {chunk : InputChunk} {n : Nat} (hok : chunk.holder.Ok limit)
    (hn : chunk.written + n ≤ chunk.input.bytes.length) :
    (InputChunk.mk (chunk.input.wrote n).1 (chunk.written + n) chunk.len).holder.Ok limit := by
  have hbytes := PaneInput.wrote_bytes chunk.input n
  have hwritten : chunk.written + n ≤ (chunk.input.wrote n).1.bytes.length := hbytes.symm ▸ hn
  have hsize : (chunk.input.wrote n).1.bytes.length ≤ chunk.len + chunkCost :=
    hbytes.symm ▸ hok.size
  cases hbudget : chunk.input.budget with
  | none =>
    have hsame : (chunk.input.wrote n).1 = chunk.input := by
      unfold PaneInput.wrote
      rw [hbudget]
    rw [hsame]
    refine ⟨hn, hok.size, hok.slot, hok.lane, fun p hp => ?_⟩
    cases hbudget.symm.trans hp
  | some budget =>
    have hleft : (chunk.input.wrote n).1.budget =
        some { budget with permits := budget.permits - min n (budget.permits - chunkCost) } := by
      unfold PaneInput.wrote
      rw [hbudget]
    have hheld := hok.budget budget hbudget
    refine ⟨hwritten, hsize, hok.slot, fun p hp => ?_, fun p hp => ?_⟩
    · cases hleft.symm.trans hp
      exact hok.lane budget hbudget
    · cases hleft.symm.trans hp
      show budget.permits - min n (budget.permits - chunkCost) =
        cost (limit budget.semaphore) chunk.len -
          min (chunk.written + n) (cost (limit budget.semaphore) chunk.len - chunkCost)
      replace hheld : budget.permits = cost (limit budget.semaphore) chunk.len -
          min chunk.written (cost (limit budget.semaphore) chunk.len - chunkCost) := hheld
      rw [hheld]
      exact sub_min_sub_min ..

theorem wrote_drawsOn (k : Sem) (chunk : InputChunk) (n : Nat) :
    (InputChunk.mk (chunk.input.wrote n).1 (chunk.written + n) chunk.len).holder.drawsOn k =
      chunk.holder.drawsOn k := by
  show (chunk.input.wrote n).1.budget.any _ = chunk.input.budget.any _
  unfold PaneInput.wrote
  cases hbudget : chunk.input.budget with
  | none =>
    dsimp only
    rw [hbudget]
  | some budget => rfl

theorem coe_set {xs : List α} {i : Nat} {a : α} (b : α) (f : α → Holder) (h : xs[i]? = some a) :
    ((xs.set i b).map f : Multiset Holder) = f b ::ₘ ((xs.eraseIdx i).map f : Multiset Holder) := by
  obtain ⟨hlt, -⟩ := List.getElem?_eq_some_iff.mp h
  have hset : (xs.set i b)[i]? = some b := List.getElem?_set_self hlt
  rw [coe_eraseIdx f hset, eraseIdx_set_eq]

theorem Sound.wrote (hs : ch.Sound) (i n : Nat) : (ch.step (.wrote i n)).Sound := by
  unfold step
  dsimp only
  cases hc : ch.chunks[i]? with
  | none => exact hs
  | some chunk =>
    dsimp only
    by_cases hlong : chunk.input.bytes.length < chunk.written + n
    · rw [if_pos hlong]
      exact hs
    rw [if_neg hlong]
    obtain ⟨chunk', hchunk'⟩ : ∃ chunk', chunk' =
        InputChunk.mk (chunk.input.wrote n).1 (chunk.written + n) chunk.len := ⟨_, rfl⟩
    have hfunds : Funds ch.limit ch.free
        (chunk.holder ::ₘ { ch with chunks := ch.chunks.eraseIdx i }.holders) :=
      holders_chunks hc ▸ hs.funded
    have hok := hfunds.ok _ (Multiset.mem_cons_self _ _)
    have hnew : chunk'.holder.Ok ch.limit := hchunk' ▸ ok_wrote hok (Nat.not_lt.mp hlong)
    have hfree : ∀ k, release ch.free (chunk.input.wrote n).2.toList k +
        chunk'.holder.held k = ch.free k + chunk.holder.held k := by
      intro k
      have hsplit := PaneInput.wrote_held k chunk.input n
      rw [Holder.held_eq, Holder.held_eq, hchunk']
      show ch.free k + heldOf k (chunk.input.wrote n).2.toList +
          (heldOf k (chunk.input.wrote n).1.budget.toList + 0) =
        ch.free k + (heldOf k chunk.input.budget.toList + 0)
      omega
    have hlane : chunk'.holder.drawsOn .main = chunk.holder.drawsOn .main :=
      hchunk' ▸ wrote_drawsOn .main chunk n
    have hlen : chunk'.holder.len = chunk.holder.len := by
      rw [hchunk']
      rfl
    have hchange := hfunds.change hnew hs.orderly.main hlen hlane hfree
    have hafter : { ch with chunks := ch.chunks.set i chunk' }.holders =
        chunk'.holder ::ₘ { ch with chunks := ch.chunks.eraseIdx i }.holders := by
      unfold holders
      dsimp only
      rw [coe_set chunk' _ hc]
      simp only [Multiset.add_cons]
    have horderly : Orderly { ch with chunks := ch.chunks.set i chunk' } := hs.orderly.keep
    rw [← hchunk']
    refine sound_giveBack horderly ?_
    rw [hafter]
    exact hchange

/-- Taking free permits, in full and when nobody waits for them. -/
theorem tryTake_eq_some {sem : Sem} {n : Nat} {taken : OwnedPermit Sem} {ch' : InputChannel}
    (h : ch.tryTake sem n = some (taken, ch')) : n ≤ ch.free sem ∧ taken = ⟨sem, n⟩ ∧
      ch' = { ch with free := update ch.free sem (ch.free sem - n) } := by
  unfold tryTake at h
  dsimp only at h
  split_ifs at h with hfree
  cases h
  exact ⟨hfree.2, rfl, rfl⟩

/-- Room taken and given back at once. -/
theorem release_taken {sem : Sem} {n : Nat} (h : n ≤ free sem) :
    release (update free sem (free sem - n)) [⟨sem, n⟩] = free := by
  funext k
  unfold release
  rw [heldOf_singleton]
  by_cases hk : k = sem
  · subst hk
    rw [update_self, if_pos rfl, Nat.sub_add_cancel h]
  · rw [update_of_ne hk, if_neg (Ne.symm hk), Nat.add_zero]

/-- Room for a chunk is held by whoever asked for it. -/
theorem sound_keep (hs : ch.Sound) {permit : InputPermit} (hok : permit.holder.Ok ch.limit)
    (hfree : ∀ k, free' k + permit.holder.held k = ch.free k) :
    { ch with free := free', permits := ch.permits ++ [permit] }.Sound := by
  have htake := hs.funded.take hok hs.orderly.main rfl hfree
  have hafter : { ch with free := free', permits := ch.permits ++ [permit] }.holders =
      permit.holder ::ₘ ch.holders := by
    unfold holders
    dsimp only
    rw [coe_concat]
    simp only [Multiset.cons_add, Multiset.add_cons]
  refine ⟨?_, hs.orderly.keep, fun len rest hwait => ?_⟩
  · unfold Funded
    rw [hafter]
    exact htake
  · have hle : free' .main ≤ ch.free .main := (Nat.le_add_right _ _).trans_eq (hfree .main)
    exact hle.trans_lt (hs.stuck len rest hwait)

theorem Sound.tryReserveFrom (hs : ch.Sound) {sem : Sem} (hlane : sem = .main ∨ sem = .control)
    (len : Nat) : (keep (ch.tryReserveFrom sem len)).Sound := by
  unfold InputChannel.tryReserveFrom
  split_ifs with hclosed
  · exact hs
  cases htake : ch.tryTake sem (cost (ch.limit sem) len) with
  | none => exact hs
  | some taken =>
    obtain ⟨taken, ch₁⟩ := taken
    obtain ⟨hle, rfl, hch₁⟩ := tryTake_eq_some htake
    have hne : Sem.slots ≠ sem := by
      rcases hlane with rfl | rfl
      · decide
      · decide
    dsimp only
    cases hslot : ch₁.tryTake .slots 1 with
    | none =>
      have horderly : ch₁.Orderly := by
        rw [hch₁]
        exact hs.orderly.keep
      refine sound_giveBack horderly ?_
      rw [hch₁]
      dsimp only
      rw [release_taken hle]
      exact hs.funded
    | some slot =>
      obtain ⟨slot, ch₂⟩ := slot
      obtain ⟨hone, rfl, hch₂⟩ := tryTake_eq_some hslot
      have hok : Holder.Ok ch.limit
          ⟨some ⟨sem, cost (ch.limit sem) len⟩, some ⟨.slots, 1⟩, len, 0, 0⟩ :=
        ok_fresh hlane len fun p hp => by
          cases hp
          rfl
      have hfree : ∀ k, ch₂.free k + Holder.held k ⟨some ⟨sem, cost (ch.limit sem) len⟩,
          some ⟨.slots, 1⟩, len, 0, 0⟩ = ch.free k := ?_
      · have hkept := @sound_keep ch₂.free ch hs
          ⟨some ⟨.slots, 1⟩, some ⟨sem, cost (ch.limit sem) len⟩, len⟩ hok hfree
        rw [hch₂, hch₁] at hkept ⊢
        exact hkept
      · intro k
        have hfree₁ : ch₁.free =
            update ch.free sem (ch.free sem - cost (ch.limit sem) len) := by
          rw [hch₁]
        have hslots : ch₁.free .slots = ch.free .slots := by
          rw [hfree₁]
          exact update_of_ne hne _ _
        rw [hslots] at hone
        rw [Holder.held_eq]
        show ch₂.free k + (heldOf k [⟨sem, cost (ch.limit sem) len⟩] +
          heldOf k [⟨.slots, 1⟩]) = ch.free k
        rw [heldOf_singleton, heldOf_singleton, hch₂]
        dsimp only
        rw [hslots, hfree₁]
        by_cases hk : k = .slots
        · subst hk
          rw [update_self, if_neg hne.symm, if_pos rfl]
          omega
        · rw [update_of_ne hk, if_neg (Ne.symm hk)]
          by_cases hsem : k = sem
          · subst hsem
            rw [update_self, if_pos rfl]
            omega
          · rw [update_of_ne hsem, if_neg (Ne.symm hsem), Nat.add_zero]

/-- Urgent input takes no room at all. -/
theorem Sound.urgent (hs : ch.Sound) (len : Nat) : (keep (.ok ⟨none, none, len⟩, ch)).Sound := by
  refine sound_keep hs ⟨le_rfl, Nat.zero_le _, fun p hp => ?_, fun p hp => ?_, fun p hp => ?_⟩
    fun k => rfl
  · cases hp
  · cases hp
  · cases hp

/-- What each reserve keeps, and the urgent lane where it is asked for, the three lanes keep. -/
theorem keep_tryReserveIn {P : InputChannel → Prop} {len : Nat} {lane : Lane}
    (hfrom : ∀ ch sem, sem = .main ∨ sem = .control → P ch → P (keep (ch.tryReserveFrom sem len)))
    (hurgent : ∀ ch, lane = .urgent → P ch → P (keep (.ok ⟨none, none, len⟩, ch))) (h : P ch) :
    P (keep (ch.tryReserveIn len lane)) := by
  have hmain := hfrom ch .main (.inl rfl) h
  unfold InputChannel.tryReserveIn
  cases hfirst : ch.tryReserveFrom .main len with
  | mk permit ch₁ =>
    rw [hfirst] at hmain
    dsimp only
    cases permit with
    | ok permit => exact hmain
    | error e =>
      cases e with
      | closed => exact hmain
      | full =>
        by_cases hlane : lane = Lane.main
        · subst hlane
          exact hmain
        · have hcontrol := hfrom ch₁ .control (.inr rfl) hmain
          dsimp only
          rw [if_neg hlane]
          cases hsecond : ch₁.tryReserveFrom .control len with
          | mk permit ch₂ =>
            rw [hsecond] at hcontrol
            cases permit with
            | ok permit => exact hcontrol
            | error e =>
              cases e with
              | closed => exact hcontrol
              | full =>
                dsimp only
                split_ifs with hlast
                · exact hurgent ch₂ hlast hcontrol
                · exact hcontrol

theorem Sound.tryReserveIn (hs : ch.Sound) (len : Nat) (lane : Lane) :
    (ch.step (.tryReserveIn len lane)).Sound :=
  keep_tryReserveIn (fun _ _ hsem hs => hs.tryReserveFrom hsem len)
    (fun _ _ hs => hs.urgent len) hs

/-- Chunks that were not received are dropped with the receiver. -/
theorem funds_drain (queue : List Queued) {free : Sem → Nat} {others : Multiset Holder}
    (hf : Funds limit free ((queue.map Queued.holder : Multiset Holder) + others)) :
    Funds limit (release free
      (queue.flatMap fun q : Queued => q.input.budget.toList ++ q.slot.toList)) others := by
  induction queue generalizing free with
  | nil => exact (zero_add others) ▸ hf
  | cons q queue ih =>
    rw [map_cons, ← Multiset.cons_coe, Multiset.cons_add] at hf
    have hrest := ih hf.give
    have hrelease : release (release free q.holder.owned)
        (queue.flatMap fun q : Queued => q.input.budget.toList ++ q.slot.toList) =
        release free
          ((q :: queue).flatMap fun q : Queued => q.input.budget.toList ++ q.slot.toList) := by
      funext k
      unfold release
      rw [flatMap_cons, heldOf_append, Nat.add_assoc]
      rfl
    rw [hrelease] at hrest
    exact hrest

theorem Sound.dropReceiver (hs : ch.Sound) : (ch.step .dropReceiver).Sound := by
  have horderly : Orderly { ch with queue := [], closed := true } :=
    ⟨hs.orderly.main, hs.orderly.limit, hs.orderly.unslotted, hs.orderly.order,
      (fun hopen => by cases hopen), fun _ => rfl⟩
  refine sound_giveBack horderly ?_
  have hsplit : ch.holders = (ch.queue.map Queued.holder : Multiset Holder) +
      { ch with queue := [], closed := true }.holders := by
    unfold holders
    dsimp only
    rw [map_nil, Multiset.coe_nil]
    abel
  have hfunds : Funds ch.limit ch.free _ := hs.funded
  rw [hsplit] at hfunds
  exact funds_drain ch.queue hfunds

end

theorem Sound.step (hs : ch.Sound) (action : ChannelAction) : (ch.step action).Sound := by
  cases action with
  | reserve len => exact hs.reserve len
  | askSlot i => exact hs.askSlot i
  | finish i => exact hs.finish i
  | abandonBudget i => exact hs.abandonBudget i
  | abandonFunded i => exact hs.abandonFunded i
  | abandonSlot i => exact hs.abandonSlot i
  | abandonPlaced i => exact hs.abandonPlaced i
  | tryReserveIn len lane => exact hs.tryReserveIn len lane
  | send i bytes => exact hs.send i bytes
  | receive => exact hs.receive
  | wrote i n => exact hs.wrote i n
  | dropPermit i => exact hs.dropPermit i
  | dropChunk i => exact hs.dropChunk i
  | dropReceiver => exact hs.dropReceiver

theorem sound_channel : channel.Sound where
  funded := ⟨fun _ hmem => absurd hmem (Multiset.notMem_zero _), Balanced.new _ _ _⟩
  orderly := by
    refine ⟨by decide, rfl, fun r hr => ?_, nil_prefix, fun _ => rfl, fun _ => rfl⟩
    cases hr
  stuck len rest hwait := by cases hwait

theorem sound_run (actions : List ChannelAction) : (run actions).Sound := by
  unfold run
  induction actions using List.reverseRecOn with
  | nil => exact sound_channel
  | append_singleton actions action ih =>
    rw [foldl_append]
    exact ih.step action

/-! ## What a pane's input may rely on -/

/-- Chunks that were sent and not dropped yet. -/
def admitted (ch : InputChannel) : List InputChunk :=
  ch.queue.map (fun q => InputChunk.mk q.input 0 q.len) ++ ch.chunks

/-- Those that take their budget from a semaphore. -/
def admittedThrough (ch : InputChannel) (sem : Sem) : List InputChunk :=
  ch.admitted.filter fun c => c.input.budget.any fun p => decide (p.semaphore = sem)

end InputChannel

/-- What of a chunk is still to be written. -/
def InputChunk.unwritten (c : InputChunk) : Nat := c.input.bytes.length - c.written

/-- What was reserved for a chunk, less what was written of it. -/
def InputChunk.reserved (limit : Sem → Nat) (c : InputChunk) (p : OwnedPermit Sem) : Nat :=
  cost (limit p.semaphore) c.len - c.written

namespace Holder

/-- What of a holder's chunk is still to be written, if it uses the main budget. -/
def owing (h : Holder) : Nat := if h.drawsOn .main then h.size - h.written else 0

theorem Ok.covers (hok : h.Ok limit) {p : OwnedPermit Sem} (hp : h.budget = some p) :
    min (h.size - h.written) (cost (limit p.semaphore) h.len - h.written) ≤ p.permits := by
  rw [hok.budget p hp]
  omega

theorem drawsOn_iff {k : Sem} : h.drawsOn k = true ↔ ∃ p, h.budget = some p ∧ p.semaphore = k := by
  unfold drawsOn
  cases h.budget with
  | none => simp
  | some p => simp

/-- A chunk that fits into the budget is covered by what it holds. -/
theorem Ok.owing_le (hok : h.Ok limit) (hfits : h.took limit .main = false) :
    h.owing ≤ h.held .main := by
  unfold owing
  split_ifs with hdraws
  · obtain ⟨p, hp, hmain⟩ := drawsOn_iff.mp hdraws
    have hsmall : h.len + chunkCost < limit .main := by
      by_contra hbig
      refine Bool.false_ne_true (hfits.symm.trans ?_)
      exact took_iff.mpr ⟨rfl, ⟨p, hp, hmain⟩, Nat.not_lt.mp hbig⟩
    have hbudget := hok.budget p hp
    have hsize := hok.size
    rw [hmain, cost, Nat.min_eq_left hsmall.le] at hbudget
    rw [hok.held_main hp _ hmain, hbudget]
    omega
  · exact Nat.zero_le _

/-- A chunk larger than the budget owes what was written of it less than it has bytes. -/
theorem Ok.owing_took (hok : h.Ok limit) (htook : h.took limit .main = true) :
    h.owing + limit .main ≤ h.size + h.held .main := by
  obtain ⟨-, ⟨p, hp, hmain⟩, hbig⟩ := took_iff.mp htook
  have hbudget := hok.budget p hp
  have hwritten := hok.written
  rw [hmain, cost, Nat.min_eq_right hbig] at hbudget
  rw [hok.held_main hp _ hmain, hbudget]
  unfold owing
  rw [if_pos (drawsOn_iff.mpr ⟨p, hp, hmain⟩)]
  omega

end Holder

/-- Without a chunk that took the whole budget, all that is owed is held. -/
theorem owing_le_held (hok : ∀ h ∈ holders, h.Ok limit)
    (hfit : ∀ h ∈ holders, h.took limit .main = false) :
    (holders.map Holder.owing).sum ≤ (holders.map (Holder.held .main)).sum :=
  Multiset.sum_map_le_sum_map _ _ fun h hmem => (hok h hmem).owing_le (hfit h hmem)

/-- What is owed fits into the budget, or into the one chunk that is larger. -/
theorem Funds.owing_le (hf : Funds limit free holders) {longest : Nat}
    (hlongest : ∀ h ∈ holders, h.drawsOn .main = true → h.size ≤ longest) :
    (holders.map Holder.owing).sum ≤ max (limit .main) longest := by
  by_cases hall : ∃ h ∈ holders, h.took limit .main = true
  · obtain ⟨h, hmem, htook⟩ := hall
    obtain ⟨others, rfl⟩ := Multiset.exists_cons_of_mem hmem
    have halone := hf.balanced.alone .main
    rw [Multiset.countP_cons, if_pos htook] at halone
    have hnone : others.countP (fun h => Holder.took limit .main h = true) = 0 := by omega
    have hfit : ∀ other ∈ others, other.took limit .main = false := fun other hother =>
      Bool.eq_false_of_not_eq_true (Multiset.countP_eq_zero.mp hnone other hother)
    have hothers := owing_le_held
      (fun other hother => hf.ok other (Multiset.mem_cons_of_mem hother)) hfit
    have hheld := hf.balanced.held_le .main
    have hone := (hf.ok h hmem).owing_took htook
    have hsize := hlongest h hmem (Holder.drawsOn_iff.mpr (Holder.took_iff.mp htook).2.1)
    rw [Multiset.map_cons, Multiset.sum_cons] at hheld ⊢
    omega
  · have hfit : ∀ h ∈ holders, h.took limit .main = false := fun h hmem =>
      Bool.eq_false_of_not_eq_true fun htook => hall ⟨h, hmem, htook⟩
    have hheld := hf.balanced.held_le .main
    have hsum := owing_le_held hf.ok hfit
    omega

namespace InputChannel

variable {ch : InputChannel}

/-- The chunk that is still to be received. -/
def chunkOf (q : Queued) : InputChunk := ⟨q.input, 0, q.len⟩

theorem admitted_eq (ch : InputChannel) : ch.admitted = ch.queue.map chunkOf ++ ch.chunks := rfl

/-- What holds of a chunk that was admitted, from its holder. -/
theorem mem_holders {c : InputChunk} (h : c ∈ ch.admitted) :
    ∃ slot, Holder.mk c.input.budget slot c.len c.input.bytes.length c.written ∈ ch.holders := by
  unfold holders
  rcases mem_append.mp h with hqueue | hchunks
  · obtain ⟨q, hq, rfl⟩ := mem_map.mp hqueue
    refine ⟨q.slot, Multiset.mem_add.mpr (.inl (Multiset.mem_add.mpr (.inr ?_)))⟩
    exact Multiset.mem_coe.mpr (mem_map_of_mem hq)
  · refine ⟨none, Multiset.mem_add.mpr (.inr ?_)⟩
    exact Multiset.mem_coe.mpr (mem_map_of_mem hchunks)

theorem sum_map_filter {α : Type} (xs : List α) (p : α → Bool) (f : α → Nat) :
    ((xs.filter p).map f).sum = (xs.map fun x => if p x then f x else 0).sum := by
  induction xs with
  | nil => rfl
  | cons x xs ih =>
    rw [filter_cons, map_cons, sum_cons, ← ih]
    split_ifs
    · rw [map_cons, sum_cons]
    · rw [Nat.zero_add]

/-- Whoever has sent nothing owes nothing. -/
theorem sum_owing_zero {α : Type} (xs : List α) (f : α → Holder) (h : ∀ x, (f x).size = 0) :
    (((xs.map f : List Holder) : Multiset Holder).map Holder.owing).sum = 0 := by
  have hzero : ∀ x, (f x).owing = 0 := fun x => by
    unfold Holder.owing
    rw [h, Nat.zero_sub, ite_self]
  rw [Multiset.map_coe, Multiset.sum_coe, map_map]
  refine sum_eq_zero fun n hn => ?_
  obtain ⟨x, -, rfl⟩ := mem_map.mp hn
  exact hzero x

theorem sum_owing (ch : InputChannel) : (ch.holders.map Holder.owing).sum =
      ((ch.admittedThrough .main).map InputChunk.unwritten).sum := by
  unfold holders admittedThrough
  simp only [Multiset.map_add, Multiset.sum_add]
  rw [sum_owing_zero ch.funded _ fun _ => rfl, sum_owing_zero ch.waitSlot _ fun _ => rfl,
    sum_owing_zero ch.placed _ fun _ => rfl, sum_owing_zero ch.permits _ fun _ => rfl]
  rw [sum_map_filter, admitted_eq, map_append, sum_append, map_map]
  simp only [Multiset.map_coe, Multiset.sum_coe, map_map, Nat.zero_add]
  rfl

/-- Who uses the main budget and has sent something is among the chunks. -/
theorem drawsOn_longest {longest : Nat}
    (hlongest : ∀ c ∈ ch.admittedThrough .main, c.input.bytes.length ≤ longest) :
    ∀ h ∈ ch.holders, h.drawsOn .main = true → h.size ≤ longest := by
  have hempty : ∀ {α : Type} (xs : List α) (f : α → Holder), (∀ x, (f x).size = 0) →
      ∀ h ∈ ((xs.map f : List Holder) : Multiset Holder), h.size ≤ longest := by
    intro α xs f hf h hmem
    obtain ⟨x, -, rfl⟩ := mem_map.mp (Multiset.mem_coe.mp hmem)
    exact hf x ▸ Nat.zero_le _
  unfold holders
  intro h hmem hdraws
  simp only [Multiset.mem_add] at hmem
  rcases hmem with ((((hmem | hmem) | hmem) | hmem) | hmem) | hmem
  · exact hempty ch.funded _ (fun _ => rfl) h hmem
  · exact hempty ch.waitSlot _ (fun _ => rfl) h hmem
  · exact hempty ch.placed _ (fun _ => rfl) h hmem
  · exact hempty ch.permits _ (fun _ => rfl) h hmem
  · obtain ⟨q, hq, rfl⟩ := mem_map.mp (Multiset.mem_coe.mp hmem)
    refine hlongest (chunkOf q) (mem_filter.mpr ⟨?_, hdraws⟩)
    exact mem_append_left _ (mem_map_of_mem hq)
  · obtain ⟨c, hc, rfl⟩ := mem_map.mp (Multiset.mem_coe.mp hmem)
    exact hlongest c (mem_filter.mpr ⟨mem_append_right _ hc, hdraws⟩)

/-- With nobody left, all room is free and nobody waits for it. -/
theorem Sound.idle (hs : ch.Sound) (h : ch.holders = 0) :
    ch.free = ch.limit ∧ ch.waitBudget = [] := by
  have hfree : ch.free = ch.limit := by
    funext k
    have htotal := hs.funded.balanced.total k
    rw [h, Multiset.map_zero, Multiset.sum_zero, Nat.add_zero] at htotal
    exact htotal
  refine ⟨hfree, ?_⟩
  cases hwait : ch.waitBudget with
  | nil => rfl
  | cons len rest =>
    have hless := hs.stuck len rest hwait
    have hcost : cost (ch.limit .main) len ≤ ch.limit .main := Nat.min_le_right _ _
    rw [hfree] at hless
    exact absurd hcost (Nat.not_le.mpr hless)

/-- Everything in the channel came through a budget. -/
structure Budgeted (ch : InputChannel) : Prop where
  permits : ∀ permit ∈ ch.permits, permit.budget ≠ none
  queue : ∀ q ∈ ch.queue, q.input.budget ≠ none
  chunks : ∀ c ∈ ch.chunks, c.input.budget ≠ none

/-- Only the urgent lane gives room outside the budgets. -/
theorem tryReserveFrom_budget {sem : Sem} {len : Nat} {permit : InputPermit} {ch' : InputChannel}
    (h : ch.tryReserveFrom sem len = (.ok permit, ch')) : permit.budget ≠ none := by
  unfold tryReserveFrom at h
  split_ifs at h
  · cases h
  split at h
  · cases h
  · split at h
    · cases h
    · cases h
      exact Option.some_ne_none _

theorem tryReserveFrom_same (ch : InputChannel) (sem : Sem) (len : Nat) :
    (ch.tryReserveFrom sem len).2.permits = ch.permits ∧
      (ch.tryReserveFrom sem len).2.queue = ch.queue ∧
      (ch.tryReserveFrom sem len).2.chunks = ch.chunks := by
  unfold tryReserveFrom
  split_ifs
  · exact ⟨rfl, rfl, rfl⟩
  cases htake : ch.tryTake sem (cost (ch.limit sem) len) with
  | none => exact ⟨rfl, rfl, rfl⟩
  | some taken =>
    obtain ⟨taken, ch₁⟩ := taken
    obtain ⟨-, -, hch₁⟩ := tryTake_eq_some htake
    have hsame : ch₁.permits = ch.permits ∧ ch₁.queue = ch.queue ∧ ch₁.chunks = ch.chunks := by
      rw [hch₁]
      exact ⟨rfl, rfl, rfl⟩
    dsimp only
    cases hslot : ch₁.tryTake .slots 1 with
    | none => exact hsame
    | some slot =>
      obtain ⟨slot, ch₂⟩ := slot
      obtain ⟨-, -, hch₂⟩ := tryTake_eq_some hslot
      dsimp only
      rw [hch₂]
      exact hsame

theorem Budgeted.concat (hb : ch.Budgeted) {permit : InputPermit} (h : permit.budget ≠ none) :
    { ch with permits := ch.permits ++ [permit] }.Budgeted :=
  ⟨forall_mem_append.mpr ⟨hb.permits, forall_mem_singleton.mpr h⟩, hb.queue, hb.chunks⟩

theorem Budgeted.tryReserveFrom (hb : ch.Budgeted) (sem : Sem) (len : Nat) :
    (keep (ch.tryReserveFrom sem len)).Budgeted := by
  obtain ⟨hpermits, hqueue, hchunks⟩ := tryReserveFrom_same ch sem len
  cases hroom : ch.tryReserveFrom sem len with
  | mk permit ch' =>
    rw [hroom] at hpermits hqueue hchunks
    have hsame : ch'.Budgeted :=
      ⟨hpermits.symm ▸ hb.permits, hqueue.symm ▸ hb.queue, hchunks.symm ▸ hb.chunks⟩
    cases permit with
    | error e => exact hsame
    | ok permit => exact hsame.concat (tryReserveFrom_budget hroom)

theorem Budgeted.tryReserveIn (hb : ch.Budgeted) (len : Nat) {lane : Lane}
    (hlane : lane ≠ .urgent) : (keep (ch.tryReserveIn len lane)).Budgeted :=
  keep_tryReserveIn (fun _ sem _ hb => hb.tryReserveFrom sem len)
    (fun _ hurgent => absurd hurgent hlane) hb

theorem Budgeted.sendWith (hb : ch.Budgeted) {permit : InputPermit} (h : permit.budget ≠ none)
    (bytes : Bytes) : (ch.sendWith permit bytes).Budgeted := by
  unfold InputChannel.sendWith
  split_ifs
  · exact ⟨hb.permits, hb.queue, hb.chunks⟩
  · exact ⟨hb.permits, forall_mem_append.mpr ⟨hb.queue, forall_mem_singleton.mpr h⟩, hb.chunks⟩

theorem Budgeted.receive (hb : ch.Budgeted) : (ch.step .receive).Budgeted := by
  unfold InputChannel.step
  dsimp only
  cases hq : ch.queue with
  | nil => exact hb
  | cons front rest =>
    have hqueue := hb.queue
    rw [hq] at hqueue
    obtain ⟨hfront, hrest⟩ := forall_mem_cons.mp hqueue
    exact ⟨hb.permits, hrest, forall_mem_append.mpr ⟨hb.chunks, forall_mem_singleton.mpr hfront⟩⟩

theorem wrote_budget {input : PaneInput Sem} (h : input.budget ≠ none) (n : Nat) :
    (input.wrote n).1.budget ≠ none := by
  unfold PaneInput.wrote
  cases hsome : input.budget with
  | none => exact absurd hsome h
  | some budget => exact Option.some_ne_none _

theorem Budgeted.step (hb : ch.Budgeted) {action : ChannelAction}
    (haction : ∀ len, action ≠ .tryReserveIn len .urgent) : (ch.step action).Budgeted := by
  have hsame : ∀ {ch' : InputChannel}, ch'.permits = ch.permits → ch'.queue = ch.queue →
      ch'.chunks = ch.chunks → ch'.Budgeted := fun hpermits hqueue hchunks =>
    ⟨hpermits ▸ hb.permits, hqueue ▸ hb.queue, hchunks ▸ hb.chunks⟩
  have herase : ∀ i, { ch with permits := ch.permits.eraseIdx i }.Budgeted := fun i =>
    ⟨fun other hother => hb.permits other (mem_of_mem_eraseIdx hother), hb.queue, hb.chunks⟩
  unfold InputChannel.step
  cases action with
  | reserve len =>
    dsimp only
    split
    · exact hb
    · exact hsame rfl rfl rfl
  | askSlot i =>
    dsimp only
    split
    · exact hb
    · unfold runFunded
      split
      · exact hsame rfl rfl rfl
      · exact hsame rfl rfl rfl
  | finish i =>
    dsimp only
    split
    · exact hb
    · unfold runPlaced
      split
      · exact hsame rfl rfl rfl
      · exact (hsame rfl rfl rfl : { ch with placed := ch.placed.eraseIdx i }.Budgeted).concat
          (Option.some_ne_none _)
  | abandonBudget i => exact hsame rfl rfl rfl
  | abandonFunded i | abandonSlot i | abandonPlaced i =>
    dsimp only
    split
    · exact hb
    · exact hsame rfl rfl rfl
  | tryReserveIn len lane => exact hb.tryReserveIn len fun hlane => haction len (hlane ▸ rfl)
  | send i bytes =>
    dsimp only
    split
    · exact hb
    · next permit hp =>
      split
      · exact hb
      · exact (herase i).sendWith (hb.permits permit (mem_of_getElem? hp)) bytes
  | receive => exact hb.receive
  | wrote i n =>
    dsimp only
    split
    · exact hb
    · next chunk hc =>
      split
      · exact hb
      refine ⟨hb.permits, hb.queue, fun c hmem => ?_⟩
      rcases mem_or_eq_of_mem_set hmem with hold | rfl
      · exact hb.chunks c hold
      · exact wrote_budget (hb.chunks chunk (mem_of_getElem? hc)) n
  | dropPermit i =>
    dsimp only
    split
    · exact hb
    · exact ⟨(herase i).permits, hb.queue, hb.chunks⟩
  | dropChunk i =>
    dsimp only
    split
    · exact hb
    · exact ⟨hb.permits, hb.queue, fun c hc => hb.chunks c (mem_of_mem_eraseIdx hc)⟩
  | dropReceiver => exact ⟨hb.permits, forall_mem_nil _, hb.chunks⟩

/-- Without urgent input, everything comes through a budget. -/
theorem budgeted_run {actions : List ChannelAction}
    (h : ∀ len, .tryReserveIn len .urgent ∉ actions) : (run actions).Budgeted := by
  unfold run
  induction actions using List.reverseRecOn with
  | nil => exact ⟨fun _ hp => (not_mem_nil hp).elim, fun _ hq => (not_mem_nil hq).elim,
      fun _ hc => (not_mem_nil hc).elim⟩
  | append_singleton actions action ih =>
    rw [foldl_append]
    refine (ih fun len hmem => h len (mem_append_left _ hmem)).step fun len heq => ?_
    exact h len (mem_append_right _ (mem_singleton.mpr heq.symm))

theorem le_foldr_max {n : Nat} {sizes : List Nat} (h : n ∈ sizes) : n ≤ sizes.foldr max 0 := by
  induction sizes with
  | nil => cases h
  | cons size sizes ih =>
    rcases mem_cons.mp h with rfl | h
    · exact Nat.le_max_left _ _
    · exact (ih h).trans (Nat.le_max_right _ _)

/-- Every chunk that came through a budget holds what was reserved for it less what was written,
or enough for the rest of it, and always its own cost; only urgent input comes through none. The
bytes that wait for the main budget fit into it, or into the one chunk that is larger. When
everything is dropped, all room is free. Chunks are received once, in the order they were sent. -/
theorem input_budget (actions : List ChannelAction) :
    (∀ c ∈ (run actions).admitted, ∀ p, c.input.budget = some p →
      min c.unwritten (c.reserved channel.limit p) ≤ p.permits ∧ chunkCost ≤ p.permits) ∧
    ((∀ len, .tryReserveIn len .urgent ∉ actions) →
      ∀ c ∈ (run actions).admitted, c.input.budget ≠ none) ∧
    (((run actions).admittedThrough .main).map InputChunk.unwritten).sum ≤ max budgetLimit
      ((((run actions).admittedThrough .main).map fun c => c.input.bytes.length).foldr max 0) ∧
    ((run actions).holders = 0 →
      (run actions).free = channel.limit ∧ (run actions).waitBudget = []) ∧
    (run actions).received <+: (run actions).sent ∧
    ((run actions).closed = false →
      (run actions).sent = (run actions).received ++ (run actions).queue.map fun q =>
        q.input.bytes) := by
  have hs := sound_run actions
  have hlimit := hs.orderly.limit
  refine ⟨fun c hc p hp => ?_, fun hcalm c hc => ?_, ?_, fun hnobody => ?_, hs.orderly.order,
    hs.orderly.pending⟩
  · obtain ⟨slot, hmem⟩ := mem_holders hc
    have hok := hs.funded.ok _ hmem
    rw [hlimit] at hok
    refine ⟨hok.covers hp, hok.cost_le hp ?_⟩
    rcases hok.lane p hp with hlane | hlane
    · rw [hlane]
      decide
    · rw [hlane]
      decide
  · have hbudgeted := budgeted_run hcalm
    rcases mem_append.mp hc with hqueue | hchunks
    · obtain ⟨q, hq, rfl⟩ := mem_map.mp hqueue
      exact hbudgeted.queue q hq
    · exact hbudgeted.chunks c hchunks
  · have howing := hs.funded.owing_le (drawsOn_longest fun c hc =>
      le_foldr_max (mem_map_of_mem (f := fun c => c.input.bytes.length) hc))
    rw [sum_owing, hlimit] at howing
    exact howing
  · rw [← hlimit]
    exact hs.idle hnobody

/-- Urgent input that found every budget full holds nothing while it is written. -/
theorem urgent_chunk_unfunded :
    ¬ ∀ actions : List ChannelAction, ∀ c ∈ (run actions).chunks,
      chunkCost ≤ heldOf .main c.input.budget.toList + heldOf .control c.input.budget.toList := by
  intro h
  have hchunk := h [.tryReserveIn budgetLimit .main, .tryReserveIn controlLimit .control,
    .tryReserveIn 1 .urgent, .send 2 [97], .receive] ⟨⟨[97], none⟩, 0, 1⟩
    (mem_singleton.mpr rfl)
  exact absurd hchunk (by decide)

end InputChannel

end Shux.Io
