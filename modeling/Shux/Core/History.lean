/-
# The event history

The bus numbers the events it publishes from one and keeps the newest of them in a ring, from
which a subscriber replays what it missed. The payload of an event is of no concern here, but
for the text of its type.
-/

import Shux.Core.Text
import Shux.Lib.Ring

namespace Shux

open List

variable {δ : Type}

/-- An event of the control plane. -/
structure BusEvent (δ : Type) where
  seq : Nat
  eventType : Str
  correlationId : Option Str
  data : δ
deriving DecidableEq, Repr

/-- A type prefix, of which the empty one matches everything. -/
def BusEvent.matchesFilter (event : BusEvent δ) (filter : Str) : Bool :=
  if filter.isEmpty then true else filter.isPrefixOf event.eventType

/-- The ring of recent events, oldest first. -/
abbrev EventHistory (δ : Type) := Ring (BusEvent δ)

namespace EventHistory

/-- The oldest sequence number in the history. -/
def oldestSeq (history : EventHistory δ) : Option Nat := history.buffer.head?.map BusEvent.seq

/-- The events from a sequence number on, and how far it is before the oldest of them. -/
def eventsFromSeq (history : EventHistory δ) (fromSeq : Nat) : List (BusEvent δ) × Nat :=
  let oldest := (oldestSeq history).getD 0
  (history.buffer.filter fun event => decide (fromSeq ≤ event.seq), oldest - fromSeq)

end EventHistory

/-- The control plane of the bus: the next sequence number and the history. -/
structure HistoryBus (δ : Type) where
  seqCounter : Nat
  history : EventHistory δ
deriving DecidableEq, Repr

/-- Something to publish: its payload, and the batch it belongs to. -/
abbrev Post (δ : Type) := δ × Option Str

namespace HistoryBus

variable {capacity : Nat} (posts : List (Post δ))

def withCapacity (capacity : Nat) : HistoryBus δ := ⟨1, .new capacity⟩

variable (fullEventType : δ → Str)

/-- Number an event and put it into the history. -/
def publishWithCorrelation (bus : HistoryBus δ) (post : Post δ) : HistoryBus δ where
  seqCounter := bus.seqCounter + 1
  history := bus.history.push ⟨bus.seqCounter, fullEventType post.1, post.2, post.1⟩

/-- The bus after everything in a list is published. -/
def run (capacity : Nat) (posts : List (Post δ)) : HistoryBus δ :=
  posts.foldl (publishWithCorrelation fullEventType) (withCapacity capacity)

/-- The events issued for a list of posts, numbered from one, with none evicted. -/
def issued (posts : List (Post δ)) : List (BusEvent δ) :=
  (posts.zipIdx 1).map fun post => ⟨post.2, fullEventType post.1.1, post.1.2, post.1.1⟩

variable {fullEventType}

theorem issued_append (post : Post δ) :
    issued fullEventType (posts ++ [post]) = issued fullEventType posts ++
      [⟨posts.length + 1, fullEventType post.1, post.2, post.1⟩] := by
  unfold issued
  rw [zipIdx_append, map_append, Nat.add_comm 1]
  rfl

theorem length_issued : (issued fullEventType posts).length = posts.length := by
  unfold issued
  rw [length_map, length_zipIdx]

theorem seq_issued :
    (issued fullEventType posts).map BusEvent.seq = List.range' 1 posts.length := by
  unfold issued
  rw [map_map, ← zipIdx_map_snd 1 posts]
  rfl

/-- A run numbers every post and its history follows what is issued. -/
theorem run_follows (hcap : 1 ≤ capacity) (posts : List (Post δ)) :
    (run fullEventType capacity posts).seqCounter = posts.length + 1 ∧
      (run fullEventType capacity posts).history.capacity = capacity ∧
      (run fullEventType capacity posts).history.Follows (issued fullEventType posts) := by
  -- from the end of the list, which is the order of publication
  induction posts using List.reverseRecOn with
  | nil => exact ⟨rfl, rfl, Ring.follows_new capacity⟩
  | append_singleton posts post ih =>
    obtain ⟨hseq, hcapacity, hfollows⟩ := ih
    unfold run at hseq hcapacity hfollows ⊢
    rw [foldl_append, foldl_cons, foldl_nil]
    refine ⟨?_, hcapacity, ?_⟩
    · show _ + 1 = _
      rw [hseq, length_append, length_singleton]
    · rw [issued_append, ← hseq]
      exact hfollows.push (by rw [hcapacity]; exact hcap) _

/-- The sequence numbers of the history are those of the last events issued. -/
theorem seq_history (hcap : 1 ≤ capacity) (posts : List (Post δ)) :
    (run fullEventType capacity posts).history.buffer.map BusEvent.seq =
      List.range' (posts.length - capacity + 1) (min posts.length capacity) := by
  obtain ⟨-, hcapacity, hfollows⟩ := @run_follows _ _ fullEventType hcap posts
  rw [hfollows, Ring.dropped, length_issued, hcapacity, map_drop, seq_issued, drop_range']
  congr 1
  · omega
  · omega

/-- The events of the log that have been evicted are numbered from one. -/
theorem seq_evicted :
    ((issued fullEventType posts).take (posts.length - capacity)).map BusEvent.seq =
      List.range' 1 (posts.length - capacity) := by
  rw [map_take, seq_issued, take_range'_of_length_ge (Nat.sub_le ..)]

/-- How many of the numbers from one up to `k` a request asks for. -/
theorem length_filter_range' (fromSeq k : Nat) :
    ((List.range' 1 k).filter fun seq => decide (fromSeq ≤ seq)).length =
      k + 1 - max fromSeq 1 := by
  induction k with
  | zero =>
    rw [range'_zero, filter_nil, length_nil]
    omega
  | succ k ih =>
    rw [range'_concat, filter_append, length_append, ih, Nat.one_mul]
    by_cases hk : fromSeq ≤ 1 + k
    · rw [filter_cons_of_pos (by simpa using hk), filter_nil, length_singleton]
      omega
    · rw [filter_cons_of_neg (by simpa using hk), filter_nil, length_nil]
      omega

/-- The evicted events that a request asks for. -/
def evictedFrom (fullEventType : δ → Str) (capacity : Nat) (posts : List (Post δ)) (fromSeq : Nat) :
    List (BusEvent δ) :=
  ((issued fullEventType posts).take (posts.length - capacity)).filter fun event =>
    decide (fromSeq ≤ event.seq)

theorem length_evictedFrom (capacity : Nat) (posts : List (Post δ)) (fromSeq : Nat) :
    (evictedFrom fullEventType capacity posts fromSeq).length =
      posts.length - capacity + 1 - max fromSeq 1 := by
  rw [← length_filter_range', ← @seq_evicted _ capacity posts fullEventType, filter_map, length_map]
  rfl

/-- The history is the end of what was issued. A replay gives the events of it that were asked
for and reports how many more there were, and one too many when it is asked for number zero. -/
theorem replay_run (fullEventType : δ → Str) {capacity : Nat} (hcap : 1 ≤ capacity)
    (posts : List (Post δ)) :
    ((run fullEventType capacity posts).seqCounter = posts.length + 1 ∧
      (run fullEventType capacity posts).history.buffer.map BusEvent.seq =
        List.range' (posts.length - capacity + 1) (min posts.length capacity)) ∧
    ∀ fromSeq,
      ((run fullEventType capacity posts).history.eventsFromSeq fromSeq).1 =
        ((issued fullEventType posts).drop (posts.length - capacity)).filter
          (fun event => decide (fromSeq ≤ event.seq)) ∧
      ((run fullEventType capacity posts).history.eventsFromSeq fromSeq).2 =
        (evictedFrom fullEventType capacity posts fromSeq).length +
          if fromSeq = 0 ∧ posts ≠ [] then 1 else 0 := by
  obtain ⟨hseq, hcapacity, hfollows⟩ := @run_follows _ _ fullEventType hcap posts
  have hnumbers := @seq_history _ _ fullEventType hcap posts
  refine ⟨⟨hseq, hnumbers⟩, fun fromSeq => ⟨?_, ?_⟩⟩
  · unfold EventHistory.eventsFromSeq
    rw [hfollows, Ring.dropped, length_issued, hcapacity]
  · have holdest : ((run fullEventType capacity posts).history.oldestSeq).getD 0 =
        if posts = [] then 0 else posts.length - capacity + 1 := by
      unfold EventHistory.oldestSeq
      rw [← List.head?_map, hnumbers]
      cases posts with
      | nil => simp
      | cons post posts =>
        obtain ⟨n, hn⟩ : ∃ n, min (post :: posts).length capacity = n + 1 :=
          ⟨min (post :: posts).length capacity - 1, by rw [length_cons]; omega⟩
        rw [hn, range'_succ, if_neg (cons_ne_nil post posts)]
        rfl
    show (run fullEventType capacity posts).history.oldestSeq.getD 0 - fromSeq = _
    rw [holdest, length_evictedFrom]
    by_cases hposts : posts = []
    · rw [if_pos hposts, if_neg fun h => h.2 hposts, hposts, length_nil]
      omega
    · rw [if_neg hposts]
      by_cases hzero : fromSeq = 0
      · rw [if_pos ⟨hzero, hposts⟩]
        omega
      · rw [if_neg fun h => hzero h.1]
        omega

/-- Three events in a ring of two, replayed from the first. -/
theorem replay_run_three :
    (1 ≤ 2) ∧
    ((run (fun _ => []) 2 [((), none), ((), none), ((), none)]).history.eventsFromSeq 1).2 =
      (evictedFrom (fun _ => []) 2 [((), none), ((), none), ((), none)] 1).length +
        if (1 = 0) ∧ [((), (none : Option Str)), ((), none), ((), none)] ≠ [] then 1 else 0 :=
  ⟨by decide, ((replay_run (fun _ => []) (by decide) [((), none), ((), none), ((), none)]).2 1).2⟩

/-- Nothing is evicted, and a replay from zero reports an event lost. -/
theorem gap_from_zero :
    ((run (fun _ => []) 1 [((), none)]).history.eventsFromSeq 0).2 = 1 ∧
      (evictedFrom (fun _ => []) 1 [((), none)] 0).length = 0 := by
  decide

end HistoryBus

end Shux
