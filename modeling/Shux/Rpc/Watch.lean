/-
# Following the events

`events.watch` answers with the events from a sequence number on and the number to go on from.
Each call subscribes first and then reads the history, so the two overlap, and it waits on the
subscription only until it has something to answer. Events are published between any two of
its steps.

The broadcast channel is everything it ever carried, and a receiver is a place in it. When the
receiver fell behind, it is told so before it gets anything else.
-/

import Mathlib.Data.List.Destutter
import Mathlib.Data.List.Sort
import Shux.Core.History

namespace Shux

open List

variable {δ : Type}

/-- The entity a caller named. Events about another one are not for it. -/
structure EventScope where
  pane : Option Str
  window : Option Str
  session : Option Str

namespace EventScope

def isAll (scope : EventScope) : Bool :=
  scope.pane.isNone && scope.window.isNone && scope.session.isNone

/-- Whether an event is about the entity, by the text fields of its serialized payload. -/
def admits (field : δ → Str → Option Str) (scope : EventScope) (event : BusEvent δ) : Bool :=
  if scope.isAll then true
  else
    [(scope.pane, "pane_id".toList), (scope.window, "window_id".toList),
      (scope.session, "session_id".toList)].all fun (want, key) =>
        want.isNone || field event.data key == want

end EventScope

/-- What stays the same along a chain of calls: the filters, the scope, and how a payload is
read. -/
structure Watcher (δ : Type) where
  fullEventType : δ → Str
  field : δ → Str → Option Str
  filters : List Str
  scope : EventScope

namespace Watcher

variable (w : Watcher δ)

/-- Whether the subscription passes an event on. -/
def «matches» (event : BusEvent δ) : Bool :=
  if w.filters.isEmpty then true else w.filters.any event.matchesFilter

/-- Whether an event is for this caller. -/
def wants (event : BusEvent δ) : Bool := w.matches event && w.scope.admits w.field event

/-- The events of the history from a sequence number on, and the gap before them. -/
def history (bus : HistoryBus δ) : Option Nat → List (BusEvent δ) × Nat
  | some fromSeq =>
    let (events, gap) := bus.history.eventsFromSeq fromSeq
    (if w.filters.isEmpty then events
      else events.filter fun e => w.filters.any e.matchesFilter, gap)
  | none => ([], 0)

end Watcher

/-- The most events a call answers with. -/
def maxEvents (asked : Option Nat) : Nat := min (asked.getD 100) 1000

/-- `sort_by_key` and `dedup_by_key` on the sequence number. -/
def dedupBySeq (collected : List (BusEvent δ)) : List (BusEvent δ) :=
  (collected.insertionSort fun a b => a.seq ≤ b.seq).destutter fun a b => a.seq ≠ b.seq

/-- The events a call answers with: in order, each once, no more than the limit. -/
def settle (limit : Nat) (collected : List (BusEvent δ)) : List (BusEvent δ) :=
  (dedupBySeq collected).take limit

/-- The number a caller goes on from. -/
def nextSeq (events : List (BusEvent δ)) (fromSeq : Option Nat) (head : Nat) : Nat :=
  match events.getLast? with
  | some event => event.seq + 1
  | none => fromSeq.getD head

/-- What a call answers, with the number it was asked from. -/
structure Answer (δ : Type) where
  fromSeq : Nat
  events : List (BusEvent δ)
  nextSeq : Nat
  gap : Nat
  lagged : Bool
deriving DecidableEq

/-- How far a call has come. -/
inductive Call (δ : Type) where
  | subscribed (limit receiver : Nat)
  | headed (limit receiver head : Nat)
  | tailing (limit receiver head gap : Nat) (collected : List (BusEvent δ))
  | ended (limit head gap : Nat) (collected : List (BusEvent δ)) (lagged : Bool)

/-- The bus, its broadcast channel, and a caller that follows it. -/
structure Following (δ : Type) where
  bus : HistoryBus δ
  channel : List (BusEvent δ)
  call : Option (Call δ)
  fromSeq : Nat
  answers : List (Answer δ)

/-- A step of the publishers or of the caller. A wait on the subscription ends with an event, a
lag, or nothing: the deadline, an empty queue, a bus that shut down. -/
inductive WatchStep (δ : Type) where
  | publish (post : Post δ)
  | subscribe (asked : Option Nat)
  | readHead
  | snapshot
  | receive
  | lag
  | stop
  | answer

namespace Following

variable (w : Watcher δ)

/-- A caller that starts from a number, on a bus that has published some posts. -/
def start (capacity : Nat) (posts : List (Post δ)) (fromSeq : Nat) : Following δ where
  bus := .run w.fullEventType capacity posts
  channel := HistoryBus.issued w.fullEventType posts
  call := none
  fromSeq := fromSeq
  answers := []

def step (f : Following δ) : WatchStep δ → Option (Following δ)
  | .publish post =>
    some { f with
      bus := f.bus.publishWithCorrelation w.fullEventType post
      channel := f.channel ++
        [⟨f.bus.seqCounter, w.fullEventType post.1, post.2, post.1⟩] }
  | .subscribe asked =>
    match f.call with
    | none => some { f with call := some (.subscribed (maxEvents asked) f.channel.length) }
    | _ => none
  | .readHead =>
    match f.call with
    | some (.subscribed limit receiver) =>
      some { f with call := some (.headed limit receiver f.bus.seqCounter) }
    | _ => none
  | .snapshot =>
    match f.call with
    | some (.headed limit receiver head) =>
      let (history, gap) := w.history f.bus (some f.fromSeq)
      some { f with
        call := some (.tailing limit receiver head gap
          (history.filter fun e => w.scope.admits w.field e)) }
    | _ => none
  | .receive =>
    match f.call with
    | some (.tailing limit receiver head gap collected) =>
      match f.channel[receiver]? with
      | some event =>
        if collected.length < limit then
          some { f with
            call := some (.tailing limit (receiver + 1) head gap
              (if w.matches event && w.scope.admits w.field event then collected ++ [event]
               else collected)) }
        else none
      | none => none
    | _ => none
  | .lag =>
    match f.call with
    | some (.tailing limit receiver head gap collected) =>
      if collected.length < limit ∧ receiver < f.channel.length then
        some { f with call := some (.ended limit head gap collected true) }
      else none
    | _ => none
  | .stop =>
    match f.call with
    | some (.tailing limit _ head gap collected) =>
      some { f with call := some (.ended limit head gap collected false) }
    | _ => none
  | .answer =>
    match f.call with
    | some (.ended limit head gap collected lagged) =>
      let events := settle limit collected
      let next := nextSeq events (some f.fromSeq) head
      some { f with
        call := none
        fromSeq := next
        answers := f.answers ++ [⟨f.fromSeq, events, next, gap, lagged⟩] }
    | _ => none

/-- The steps one after another, in the order they interleave. -/
def run (f : Following δ) (steps : List (WatchStep δ)) : Option (Following δ) :=
  steps.foldlM (step w) f

end Following

section Settle

variable {collected : List (BusEvent δ)}
variable {e : BusEvent δ}

theorem exists_seq_destutter' {l : List (BusEvent δ)} {a : BusEvent δ} :
    ∀ e ∈ a :: l, ∃ e' ∈ l.destutter' (fun a b => a.seq ≠ b.seq) a, e'.seq = e.seq := by
  induction l generalizing a with
  | nil =>
    intro e he
    rw [mem_singleton.1 he]
    exact ⟨a, by simp, rfl⟩
  | cons b l ih =>
    rw [List.destutter']
    split_ifs with hne
    · refine forall_mem_cons.2 ⟨⟨a, by simp, rfl⟩, fun e he => ?_⟩
      obtain ⟨e', hmem, hseq⟩ := ih e he
      exact ⟨e', mem_cons_of_mem _ hmem, hseq⟩
    · have hsame : a.seq = b.seq := not_not.1 hne
      obtain ⟨a', hmem, hseq⟩ := ih a mem_cons_self
      refine forall_mem_cons.2 ⟨⟨a', hmem, hseq⟩, ?_⟩
      refine forall_mem_cons.2 ⟨⟨a', hmem, hseq.trans hsame⟩, fun e he => ?_⟩
      exact ih e (mem_cons_of_mem _ he)

theorem mem_of_mem_dedupBySeq (h : e ∈ dedupBySeq collected) : e ∈ collected :=
  (mem_insertionSort _).1 ((destutter_sublist _ _).subset h)

/-- No number goes missing. -/
theorem exists_seq_dedupBySeq (h : e ∈ collected) :
    ∃ e' ∈ dedupBySeq collected, e'.seq = e.seq := by
  have hsorted : e ∈ collected.insertionSort fun a b => a.seq ≤ b.seq := (mem_insertionSort _).2 h
  unfold dedupBySeq
  cases hl : collected.insertionSort fun a b => a.seq ≤ b.seq with
  | nil =>
    rw [hl] at hsorted
    simp at hsorted
  | cons a l =>
    rw [hl] at hsorted
    exact exists_seq_destutter' e hsorted

/-- Sorted and without neighbours of the same number is strictly sorted. -/
theorem pairwise_dedupBySeq (collected : List (BusEvent δ)) :
    (dedupBySeq collected).Pairwise fun a b => a.seq < b.seq := by
  have htotal : Std.Total fun a b : BusEvent δ => a.seq ≤ b.seq := ⟨fun a b => le_total a.seq b.seq⟩
  have htrans : IsTrans (BusEvent δ) fun a b => a.seq ≤ b.seq := ⟨fun _ _ _ => le_trans⟩
  have hstrict : IsTrans (BusEvent δ) fun a b => a.seq < b.seq := ⟨fun _ _ _ => lt_trans⟩
  have hle : (dedupBySeq collected).Pairwise fun a b => a.seq ≤ b.seq :=
    (pairwise_insertionSort _ collected).sublist (destutter_sublist _ _)
  have hne : (dedupBySeq collected).IsChain fun a b => a.seq ≠ b.seq := isChain_destutter _ _
  refine List.IsChain.pairwise (isChain_iff_getElem.2 fun i hi => ?_)
  exact lt_of_le_of_ne (isChain_iff_getElem.1 hle.isChain i hi)
    (isChain_iff_getElem.1 hne i hi)

theorem pairwise_settle (limit : Nat) (collected : List (BusEvent δ)) :
    (settle limit collected).Pairwise fun a b => a.seq < b.seq :=
  (pairwise_dedupBySeq collected).sublist (take_sublist limit _)

theorem mem_of_mem_settle {limit : Nat} (h : e ∈ settle limit collected) :
    e ∈ collected := mem_of_mem_dedupBySeq (mem_of_mem_take h)

/-- What is left out is past the last event that is answered. -/
theorem mem_settle_of_le {limit : Nat} {last : BusEvent δ}
    (hunique : ∀ a ∈ collected, ∀ b ∈ collected, a.seq = b.seq → a = b) (he : e ∈ collected)
    (hlast : (settle limit collected).getLast? = some last) (hle : e.seq ≤ last.seq) :
    e ∈ settle limit collected := by
  obtain ⟨e', hmem, hseq⟩ := exists_seq_dedupBySeq he
  obtain rfl := hunique e' (mem_of_mem_dedupBySeq hmem) e he hseq
  have hpairwise := pairwise_dedupBySeq collected
  rw [← take_append_drop limit (dedupBySeq collected)] at hmem hpairwise
  rcases mem_append.1 hmem with htaken | hleft
  · exact htaken
  · have hlt := (pairwise_append.1 hpairwise).2.2 last (mem_of_getLast? hlast) e' hleft
    omega

end Settle

namespace Following

variable {w : Watcher δ} {f f' : Following δ} {first : Nat}
variable {e : BusEvent δ} {events : List (BusEvent δ)}

/-- The channel carried what the bus numbered, and the history holds the end of it. -/
structure Carried (f : Following δ) : Prop where
  counter : f.bus.seqCounter = f.channel.length + 1
  capacity : 1 ≤ f.bus.history.capacity
  follows : f.bus.history.Follows f.channel
  numbered : f.channel.map BusEvent.seq = List.range' 1 f.channel.length

/-- A number lies in a gap that a call reported. -/
def InGap (answers : List (Answer δ)) (seq : Nat) : Prop :=
  ∃ a ∈ answers, 0 < a.gap ∧ a.fromSeq ≤ seq ∧ seq < a.fromSeq + a.gap

/-- Everything that was answered. -/
def answered (f : Following δ) : List (BusEvent δ) := f.answers.flatMap Answer.events

/-- What was answered from the first number to the next one: in order, nothing twice, nothing
missing but what a call reported. -/
structure Answered (w : Watcher δ) (first : Nat) (f : Following δ) : Prop where
  increasing : f.answered.Pairwise fun a b => a.seq < b.seq
  within : ∀ e ∈ f.answered, e ∈ f.channel ∧ w.wants e = true ∧ first ≤ e.seq ∧ e.seq < f.fromSeq
  complete : ∀ e ∈ f.channel, w.wants e = true → first ≤ e.seq → e.seq < f.fromSeq →
    e ∈ f.answered ∨ InGap f.answers e.seq
  next : first ≤ f.fromSeq ∧ f.fromSeq ≤ f.channel.length + 1

/-- What a call collected below some number, past its gap. -/
structure Gathered (w : Watcher δ) (f : Following δ) (gap top : Nat)
    (collected : List (BusEvent δ)) : Prop where
  within : ∀ e ∈ collected, e ∈ f.channel ∧ w.wants e = true ∧ f.fromSeq ≤ e.seq ∧ e.seq < top
  complete : ∀ e ∈ f.channel, w.wants e = true → f.fromSeq + gap ≤ e.seq → e.seq < top →
    e ∈ collected
  top : top ≤ f.channel.length + 1

/-- How far a call has come, in terms of what it collected. -/
def Progress (w : Watcher δ) (f : Following δ) : Call δ → Prop
  | .subscribed _ receiver => f.fromSeq ≤ receiver + 1 ∧ receiver ≤ f.channel.length
  | .headed _ receiver _ => f.fromSeq ≤ receiver + 1 ∧ receiver ≤ f.channel.length
  | .tailing _ receiver _ gap collected => f.fromSeq ≤ receiver + 1 ∧
      ∃ top, receiver + 1 ≤ top ∧ Gathered w f gap top collected
  | .ended _ _ gap collected _ => ∃ top, Gathered w f gap top collected

/-- What holds between any two steps. -/
structure Kept (w : Watcher δ) (first : Nat) (f : Following δ) : Prop where
  carried : Carried f
  answered : Answered w first f
  progress : ∀ call, f.call = some call → Progress w f call

namespace Carried

theorem seq_of_getElem? (h : Carried f) {i : Nat} (he : f.channel[i]? = some e) :
    e.seq = i + 1 := by
  obtain ⟨hi, heq⟩ := List.getElem?_eq_some_iff.1 he
  have hseq : (f.channel.map BusEvent.seq)[i]? = (List.range' 1 f.channel.length)[i]? := by
    rw [h.numbered]
  rw [List.getElem?_map, he, List.getElem?_range' hi] at hseq
  simp only [Option.map_some, Option.some.injEq] at hseq
  omega

theorem seq_bounds (h : Carried f) (he : e ∈ f.channel) : 1 ≤ e.seq ∧ e.seq ≤ f.channel.length := by
  obtain ⟨i, hi⟩ := mem_iff_getElem?.1 he
  have hseq := h.seq_of_getElem? hi
  have hlt := (List.getElem?_eq_some_iff.1 hi).1
  omega

/-- A number belongs to one event. -/
theorem unique (h : Carried f) {a b : BusEvent δ} (ha : a ∈ f.channel) (hb : b ∈ f.channel)
    (hseq : a.seq = b.seq) : a = b := by
  obtain ⟨i, hi⟩ := mem_iff_getElem?.1 ha
  obtain ⟨j, hj⟩ := mem_iff_getElem?.1 hb
  have hai := h.seq_of_getElem? hi
  have hbj := h.seq_of_getElem? hj
  obtain rfl : i = j := by omega
  rw [hi] at hj
  exact Option.some.inj hj

end Carried

/-- The event a post becomes. -/
def next (w : Watcher δ) (f : Following δ) (post : Post δ) : BusEvent δ :=
  ⟨f.bus.seqCounter, w.fullEventType post.1, post.2, post.1⟩

/-- The bus with one more event. -/
def published (w : Watcher δ) (f : Following δ) (post : Post δ) : Following δ :=
  { f with
    bus := f.bus.publishWithCorrelation w.fullEventType post
    channel := f.channel ++ [next w f post] }

theorem Carried.published (h : Carried f) (post : Post δ) : Carried (published w f post) where
  counter := by
    show f.bus.seqCounter + 1 = (f.channel ++ [next w f post]).length + 1
    rw [h.counter, length_append, length_singleton]
  capacity := h.capacity
  follows := h.follows.push h.capacity _
  numbered := by
    show (f.channel ++ [next w f post]).map BusEvent.seq =
      List.range' 1 (f.channel ++ [next w f post]).length
    rw [map_append, h.numbered, length_append, length_singleton,
      range'_concat, Nat.one_mul, Nat.add_comm 1]
    show _ ++ [f.bus.seqCounter] = _
    rw [h.counter]

/-- A new event is past everything a caller went through. -/
theorem mem_channel_of_lt (h : Carried f) {post : Post δ}
    (he : e ∈ (published w f post).channel) {n : Nat} (hn : n ≤ f.channel.length + 1)
    (hlt : e.seq < n) : e ∈ f.channel := by
  rcases mem_append.1 he with hold | hnew
  · exact hold
  · have hseq : e.seq = f.bus.seqCounter := by rw [mem_singleton.1 hnew, next]
    rw [h.counter] at hseq
    omega

theorem length_published (w : Watcher δ) (f : Following δ) (post : Post δ) :
    (published w f post).channel.length = f.channel.length + 1 := by
  simp [published]

theorem Answered.published (h : Answered w first f) (hcarried : Carried f) (post : Post δ) :
    Answered w first (published w f post) where
  increasing := h.increasing
  within e he := ⟨mem_append_left _ (h.within e he).1, (h.within e he).2⟩
  complete e he hwants hfirst hlt :=
    h.complete e (mem_channel_of_lt hcarried he h.next.2 hlt) hwants hfirst hlt
  next := ⟨h.next.1, h.next.2.trans (by rw [length_published]; omega)⟩

theorem Gathered.published {gap top : Nat} {collected : List (BusEvent δ)}
    (h : Gathered w f gap top collected) (hcarried : Carried f) (post : Post δ) :
    Gathered w (published w f post) gap top collected where
  within e he := ⟨mem_append_left _ (h.within e he).1, (h.within e he).2⟩
  complete e he hwants hfrom hlt :=
    h.complete e (mem_channel_of_lt hcarried he h.top hlt) hwants hfrom hlt
  top := h.top.trans (by rw [length_published]; omega)

theorem Progress.published {call : Call δ} (h : Progress w f call) (hcarried : Carried f)
    (post : Post δ) : Progress w (published w f post) call := by
  cases call with
  | subscribed limit receiver | headed limit receiver head =>
    exact ⟨h.1, h.2.trans (by rw [length_published]; omega)⟩
  | tailing limit receiver head gap collected =>
    obtain ⟨hfrom, top, htop, hgathered⟩ := h
    exact ⟨hfrom, top, htop, hgathered.published hcarried post⟩
  | ended limit head gap collected lagged =>
    obtain ⟨top, hgathered⟩ := h
    exact ⟨top, hgathered.published hcarried post⟩

theorem mem_history :
    e ∈ (if w.filters.isEmpty then events
        else events.filter fun e => w.filters.any e.matchesFilter).filter
          (fun e => w.scope.admits w.field e) ↔ e ∈ events ∧ w.wants e = true := by
  unfold Watcher.wants Watcher.matches
  split_ifs with hempty
  · simp
  · simp only [mem_filter, Bool.and_eq_true]
    tauto

/-- The history from a number on, with the gap before it. -/
theorem gathered_history (h : Carried f) :
    Gathered w f (w.history f.bus (some f.fromSeq)).2 (f.channel.length + 1)
      ((w.history f.bus (some f.fromSeq)).1.filter fun e => w.scope.admits w.field e) where
  within e he := by
    obtain ⟨hmem, hwants⟩ := mem_history.1 he
    obtain ⟨hbuffer, hfrom⟩ := mem_filter.1 hmem
    rw [h.follows] at hbuffer
    have hchannel := mem_of_mem_drop hbuffer
    exact ⟨hchannel, hwants, of_decide_eq_true hfrom, Nat.lt_succ_of_le (h.seq_bounds hchannel).2⟩
  complete e he hwants hfrom _ := by
    refine mem_history.2 ⟨mem_filter.2 ⟨?_, ?_⟩, hwants⟩
    · obtain ⟨i, hi⟩ := mem_iff_getElem?.1 he
      have hseq := h.seq_of_getElem? hi
      have hlt := (List.getElem?_eq_some_iff.1 hi).1
      -- The oldest event of the history stands right after what the ring dropped.
      have hdropped : f.bus.history.dropped f.channel < f.channel.length := by
        have := h.capacity
        unfold Ring.dropped
        omega
      obtain ⟨oldest, holdest⟩ :
          ∃ oldest, f.channel[f.bus.history.dropped f.channel]? = some oldest :=
        ⟨_, List.getElem?_eq_getElem hdropped⟩
      have hgap : (w.history f.bus (some f.fromSeq)).2 =
          f.bus.history.dropped f.channel + 1 - f.fromSeq := by
        show f.bus.history.oldestSeq.getD 0 - f.fromSeq = _
        rw [EventHistory.oldestSeq, h.follows, List.head?_drop, holdest]
        simp [h.seq_of_getElem? holdest]
      rw [hgap] at hfrom
      rw [h.follows, mem_iff_getElem?]
      refine ⟨i - f.bus.history.dropped f.channel, ?_⟩
      rw [List.getElem?_drop, ← hi]
      congr 1
      omega
    · exact decide_eq_true (by omega)
  top := le_rfl

/-- One more event from the subscription. -/
theorem Gathered.receive (h : Carried f) {gap top receiver : Nat}
    {collected : List (BusEvent δ)} (hgathered : Gathered w f gap top collected)
    (hfrom : f.fromSeq ≤ receiver + 1) (htop : receiver + 1 ≤ top)
    (he : f.channel[receiver]? = some e) :
    Gathered w f gap (max top (receiver + 2))
      (if w.wants e then collected ++ [e] else collected) where
  within a ha := by
    have hseq := h.seq_of_getElem? he
    have hold : a ∈ collected → a ∈ f.channel ∧ w.wants a = true ∧ f.fromSeq ≤ a.seq ∧
        a.seq < max top (receiver + 2) := by
      intro hmem
      obtain ⟨hchannel, hwants, hle, hlt⟩ := hgathered.within a hmem
      exact ⟨hchannel, hwants, hle, by omega⟩
    split_ifs at ha with hwants
    · rcases mem_append.1 ha with hmem | hnew
      · exact hold hmem
      · rw [mem_singleton.1 hnew]
        exact ⟨mem_of_getElem? he, hwants, by omega, by omega⟩
    · exact hold ha
  complete a ha hwants hle hlt := by
    have hseq := h.seq_of_getElem? he
    by_cases hbelow : a.seq < top
    · have hmem := hgathered.complete a ha hwants hle hbelow
      split_ifs
      · exact mem_append_left _ hmem
      · exact hmem
    · -- The number at the top is the one just received.
      obtain rfl : a = e := h.unique ha (mem_of_getElem? he) (by omega)
      rw [if_pos hwants]
      simp
  top := by
    have hlt := (List.getElem?_eq_some_iff.1 he).1
    have := hgathered.top
    omega

/-- The follower after a call has answered. -/
def answering (f : Following δ) (events : List (BusEvent δ)) (next gap : Nat) (lagged : Bool) :
    Following δ :=
  { f with
    call := none
    fromSeq := next
    answers := f.answers ++ [⟨f.fromSeq, events, next, gap, lagged⟩] }

theorem mem_answered_answering {next gap : Nat} {lagged : Bool} :
    e ∈ (answering f events next gap lagged).answered ↔ e ∈ f.answered ∨ e ∈ events := by
  simp [answered, answering]

theorem InGap.answering {seq : Nat} (h : InGap f.answers seq) (events : List (BusEvent δ))
    (next gap : Nat) (lagged : Bool) : InGap (answering f events next gap lagged).answers seq := by
  obtain ⟨a, ha, hgap⟩ := h
  exact ⟨a, mem_append_left _ ha, hgap⟩

/-- The number after a nonempty answer is past its last event; an empty answer stays. -/
theorem nextSeq_cases (events : List (BusEvent δ)) (fromSeq head : Nat) :
    (∃ last, events.getLast? = some last ∧ nextSeq events (some fromSeq) head = last.seq + 1) ∨
      events = [] ∧ nextSeq events (some fromSeq) head = fromSeq := by
  cases hlast : events.getLast? with
  | none => exact .inr ⟨List.getLast?_eq_none_iff.1 hlast, by simp [nextSeq, hlast]⟩
  | some last => exact .inl ⟨last, rfl, by simp [nextSeq, hlast]⟩

/-- An answer goes on where the last one ended. -/
theorem Answered.answering (h : Answered w first f) (hcarried : Carried f) {limit head gap : Nat}
    {collected : List (BusEvent δ)} (lagged : Bool) {top : Nat}
    (hgathered : Gathered w f gap top collected) :
    Answered w first (answering f (settle limit collected)
      (nextSeq (settle limit collected) (some f.fromSeq) head) gap lagged) := by
  have hunique : ∀ a ∈ collected, ∀ b ∈ collected, a.seq = b.seq → a = b := fun a ha b hb =>
    hcarried.unique (hgathered.within a ha).1 (hgathered.within b hb).1
  have hmem : ∀ e ∈ settle limit collected, e ∈ f.channel ∧ w.wants e = true ∧
      f.fromSeq ≤ e.seq ∧ e.seq < top := fun e he => hgathered.within e (mem_of_mem_settle he)
  have hnext := h.next
  rcases nextSeq_cases (settle limit collected) f.fromSeq head with
    ⟨last, hlast, hseq⟩ | ⟨hnil, hseq⟩
  · rw [hseq]
    obtain ⟨hchannel, -, hfrom, htop⟩ := hmem last (mem_of_getLast? hlast)
    have hle : ∀ e ∈ settle limit collected, e.seq ≤ last.seq := by
      intro e he
      obtain ⟨front, hfront⟩ := List.getLast?_eq_some_iff.1 hlast
      have hpairwise := pairwise_settle limit collected
      rw [hfront] at he hpairwise
      rcases mem_append.1 he with hin | hin
      · exact ((pairwise_append.1 hpairwise).2.2 e hin last (by simp)).le
      · rw [mem_singleton.1 hin]
    refine ⟨?_, ?_, ?_, ?_⟩
    · rw [answered, Following.answering, flatMap_append, flatMap_singleton]
      refine pairwise_append.2 ⟨h.increasing, pairwise_settle limit collected, ?_⟩
      intro a ha b hb
      exact (h.within a ha).2.2.2.trans_le (hmem b hb).2.2.1
    · intro e he
      rcases mem_answered_answering.1 he with hold | hnew
      · obtain ⟨hin, hwants, hfirst, hlt⟩ := h.within e hold
        exact ⟨hin, hwants, hfirst, by show e.seq < last.seq + 1; omega⟩
      · obtain ⟨hin, hwants, hge, -⟩ := hmem e hnew
        exact ⟨hin, hwants, hnext.1.trans hge, Nat.lt_succ_of_le (hle e hnew)⟩
    · intro e he hwants hfirst hlt
      have hlt' : e.seq < last.seq + 1 := hlt
      by_cases hbelow : e.seq < f.fromSeq
      · rcases h.complete e he hwants hfirst hbelow with hin | hin
        · exact .inl (mem_answered_answering.2 (.inl hin))
        · exact .inr (hin.answering _ _ _ _)
      · by_cases hgap : f.fromSeq + gap ≤ e.seq
        · have hin := hgathered.complete e he hwants hgap (by omega)
          refine .inl (mem_answered_answering.2 (.inr ?_))
          exact mem_settle_of_le hunique hin hlast (by omega)
        · exact .inr ⟨_, mem_append_right _ (mem_singleton_self _),
            by show 0 < gap; omega, by show f.fromSeq ≤ e.seq; omega,
            by show e.seq < f.fromSeq + gap; omega⟩
    · refine ⟨by show first ≤ last.seq + 1; omega, ?_⟩
      have := (hcarried.seq_bounds hchannel).2
      show last.seq + 1 ≤ f.channel.length + 1
      omega
  · rw [hseq, hnil]
    refine ⟨?_, ?_, ?_, hnext⟩
    · rw [answered, Following.answering, flatMap_append, flatMap_singleton, append_nil]
      exact h.increasing
    · intro e he
      exact h.within e ((mem_answered_answering.1 he).resolve_right (by simp))
    · intro e he hwants hfirst hlt
      exact (h.complete e he hwants hfirst hlt).imp
        (fun hin => mem_answered_answering.2 (.inl hin)) fun hin => hin.answering _ _ _ _

/-- A call's own steps leave the bus and the answers alone. -/
theorem Kept.calling (h : Kept w first f) {call : Call δ} (hcall : Progress w f call) :
    Kept w first { f with call := some call } where
  carried := ⟨h.carried.1, h.carried.2, h.carried.3, h.carried.4⟩
  answered := ⟨h.answered.1, h.answered.2, h.answered.3, h.answered.4⟩
  progress := by
    intro made hmade
    cases hmade
    cases call with
    | subscribed limit receiver => exact hcall
    | headed limit receiver head => exact hcall
    | tailing limit receiver head gap collected =>
      obtain ⟨hfrom, top, htop, hgathered⟩ := hcall
      exact ⟨hfrom, top, htop, ⟨hgathered.1, hgathered.2, hgathered.3⟩⟩
    | ended limit head gap collected lagged =>
      obtain ⟨top, hgathered⟩ := hcall
      exact ⟨top, ⟨hgathered.1, hgathered.2, hgathered.3⟩⟩

/-- Every step keeps it. -/
theorem step_kept (h : Kept w first f) {move : WatchStep δ} (hstep : f.step w move = some f') :
    Kept w first f' := by
  cases move with
  | publish post =>
    cases hstep
    exact ⟨h.carried.published post, h.answered.published h.carried post,
      fun call hcall => (h.progress call hcall).published h.carried post⟩
  | subscribe asked =>
    simp only [step] at hstep
    split at hstep
    · cases hstep
      exact h.calling ⟨h.answered.next.2, le_rfl⟩
    · cases hstep
  | readHead =>
    simp only [step] at hstep
    split at hstep
    · rename_i limit receiver hcall
      cases hstep
      obtain ⟨hfrom, hle⟩ := h.progress _ hcall
      exact h.calling ⟨hfrom, hle⟩
    · cases hstep
  | snapshot =>
    simp only [step] at hstep
    split at hstep
    · rename_i limit receiver head hcall
      cases hstep
      obtain ⟨hfrom, hle⟩ := h.progress _ hcall
      exact h.calling ⟨hfrom, _, Nat.succ_le_succ hle, gathered_history h.carried⟩
    · cases hstep
  | receive =>
    simp only [step] at hstep
    split at hstep
    · rename_i limit receiver head gap collected hcall
      split at hstep
      · rename_i e he
        split at hstep
        · cases hstep
          obtain ⟨hfrom, top, htop, hgathered⟩ := h.progress _ hcall
          refine h.calling ⟨Nat.le_succ_of_le hfrom, _, ?_,
            hgathered.receive h.carried hfrom htop he⟩
          omega
        · cases hstep
      · cases hstep
    · cases hstep
  | lag =>
    simp only [step] at hstep
    split at hstep
    · rename_i limit receiver head gap collected hcall
      split at hstep
      · cases hstep
        obtain ⟨-, top, -, hgathered⟩ := h.progress _ hcall
        exact h.calling ⟨top, hgathered⟩
      · cases hstep
    · cases hstep
  | stop =>
    simp only [step] at hstep
    split at hstep
    · rename_i limit receiver head gap collected hcall
      cases hstep
      obtain ⟨-, top, -, hgathered⟩ := h.progress _ hcall
      exact h.calling ⟨top, hgathered⟩
    · cases hstep
  | answer =>
    simp only [step] at hstep
    split at hstep
    · rename_i limit head gap collected lagged hcall
      cases hstep
      obtain ⟨top, hgathered⟩ := h.progress _ hcall
      refine ⟨⟨h.carried.1, h.carried.2, h.carried.3, h.carried.4⟩,
        h.answered.answering h.carried lagged hgathered, fun call hnew => ?_⟩
      cases hnew
    · cases hstep

theorem run_kept {steps : List (WatchStep δ)} (h : Kept w first f)
    (hrun : f.run w steps = some f') : Kept w first f' := by
  induction steps generalizing f with
  | nil =>
    cases hrun
    exact h
  | cons move rest ih =>
    rw [run, foldlM_cons] at hrun
    obtain ⟨mid, hmid, hrest⟩ := Option.bind_eq_some_iff.1 hrun
    exact ih (step_kept h hmid) hrest

theorem kept_start {capacity : Nat} (hcap : 1 ≤ capacity) (posts : List (Post δ)) {fromSeq : Nat}
    (hfrom : fromSeq ≤ (start w capacity posts fromSeq).bus.seqCounter) :
    Kept w fromSeq (start w capacity posts fromSeq) := by
  obtain ⟨hcounter, hcapacity, hfollows⟩ := @HistoryBus.run_follows _ _ w.fullEventType hcap posts
  have hlength := @HistoryBus.length_issued _ posts w.fullEventType
  refine ⟨⟨?_, ?_, hfollows, ?_⟩, ⟨.nil, by simp [answered, start], ?_, le_rfl, ?_⟩, ?_⟩
  · show (HistoryBus.run w.fullEventType capacity posts).seqCounter = _
    rw [hcounter, start, hlength]
  · show 1 ≤ (HistoryBus.run w.fullEventType capacity posts).history.capacity
    rw [hcapacity]
    exact hcap
  · show (HistoryBus.issued w.fullEventType posts).map BusEvent.seq = _
    rw [HistoryBus.seq_issued, start, hlength]
  · intro e _ _ hle hlt
    exact absurd hlt (Nat.not_lt.2 hle)
  · refine hfrom.trans ?_
    show (HistoryBus.run w.fullEventType capacity posts).seqCounter ≤ _
    rw [hcounter, start, hlength]
  · intro call hcall
    cases hcall

/-- A caller that goes on from each answer gets every event that is for it, in order and once,
from the number it started at up to the number it would go on from, but for what a call
reported as a gap. -/
theorem watch_chain (w : Watcher δ) {capacity : Nat} (hcap : 1 ≤ capacity) (posts : List (Post δ))
    {fromSeq : Nat} (hfrom : fromSeq ≤ (start w capacity posts fromSeq).bus.seqCounter)
    {steps : List (WatchStep δ)} {f : Following δ}
    (hrun : (start w capacity posts fromSeq).run w steps = some f) :
    (f.answered.Pairwise fun a b => a.seq < b.seq) ∧
      (∀ e ∈ f.answered, fromSeq ≤ e.seq ∧ e ∈ f.channel ∧ w.wants e = true) ∧
      ∀ e ∈ f.channel, w.wants e = true → fromSeq ≤ e.seq → e.seq < f.fromSeq →
        e ∈ f.answered ∨ InGap f.answers e.seq := by
  obtain ⟨-, hanswered, -⟩ := run_kept (kept_start hcap posts hfrom) hrun
  refine ⟨hanswered.increasing, fun e he => ?_, hanswered.complete⟩
  obtain ⟨hchannel, hwants, hle, -⟩ := hanswered.within e he
  exact ⟨hle, hchannel, hwants⟩

namespace Sample

/-- A caller without filters or scope. -/
def watcher : Watcher Unit := ⟨fun _ => [], fun _ _ => none, [], ⟨none, none, none⟩⟩

def steps : List (WatchStep Unit) :=
  [.subscribe none, .publish ((), none), .readHead, .snapshot, .receive, .stop, .answer]

theorem steps_run : ((start watcher 2 [((), none)] 1).run watcher steps).isSome = true := by decide

/-- An event that is published between the subscription and the history is answered once. -/
theorem watch_chain_overlap :
    ∃ f, (start watcher 2 [((), none)] 1).run watcher steps = some f ∧
      f.answered.map BusEvent.seq = [1, 2] ∧ f.fromSeq = 3 ∧
        ∀ e ∈ f.channel, watcher.wants e = true → 1 ≤ e.seq → e.seq < f.fromSeq →
          e ∈ f.answered ∨ InGap f.answers e.seq := by
  refine ⟨_, (Option.some_get steps_run).symm, by decide, by decide, ?_⟩
  exact (watch_chain watcher (by decide) [((), none)] (by decide)
    (Option.some_get steps_run).symm).2.2

end Sample

end Following

end Shux
