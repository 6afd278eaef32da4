/-
# The input queue of a PTY task

Terminal replies and user input are bound for the same program. Replies go between input chunks,
never inside one or inside a bracketed paste, so at most one reply or one chunk is half written
at any time, and what comes next is read off the queue: a chunk that is begun goes on, a paste
that is open holds replies back, and a reply that is begun goes on because neither can happen
meanwhile.

A chunk holds its share of its pane's budget until it is written. Budgets are told apart by the
semaphores they come from.
-/

import Shux.Lib.Chunks
import Shux.Io.Paste

namespace Shux.Io

open Chunks List

variable {κ : Type}
variable (k : κ)

/-- What a chunk costs on top of its bytes until it is written. -/
def chunkCost : Nat := 64

/-- Permits that are held of a semaphore. -/
structure OwnedPermit (κ : Type) where
  semaphore : κ
  permits : Nat

/-- A chunk of input, with what it holds of the budget. -/
structure PaneInput (κ : Type) where
  bytes : Bytes
  budget : Option (OwnedPermit κ)

/-- More bytes of a chunk were written: their budget goes back, all but the chunk's own cost. -/
def PaneInput.wrote (input : PaneInput κ) (n : Nat) : PaneInput κ × Option (OwnedPermit κ) :=
  match input.budget with
  | none => (input, none)
  | some budget =>
    let n := min n (budget.permits - chunkCost)
    ({ input with budget := some { budget with permits := budget.permits - n } },
      some { budget with permits := n })

structure PtyInputQueue (κ : Type) where
  replies : Bytes
  input : List (PaneInput κ)
  /-- Bytes of the first chunk that were already written. -/
  written : Nat
  /-- The input written so far left the program inside a bracketed paste. -/
  inPaste : Bool

/-- Where a marker stands last in a chunk. -/
def lastWindow (chunk marker : Bytes) : Option Nat :=
  ((List.range (chunk.length + 1 - marker.length)).filter fun i =>
    marker.isPrefixOf (chunk.drop i)).getLast?

/-- Whether a program that read a chunk is inside a paste. -/
def pasteAfter (chunk : Bytes) (inPaste : Bool) : Bool :=
  match lastWindow chunk pasteStart, lastWindow chunk pasteEnd with
  | some start, some «end» => decide («end» < start)
  | some _, none => true
  | none, some _ => false
  | none, none => inPaste

namespace PtyInputQueue

def default : PtyInputQueue κ := ⟨[], [], 0, false⟩

/-- Replies stop queueing early: a program that ignores them gets none. -/
def cap : Nat := 4096

/-- Queue a reply, or drop it whole. -/
def push (q : PtyInputQueue κ) (reply : Bytes) : PtyInputQueue κ × Bool :=
  if cap < q.replies.length + reply.length then (q, false)
  else ({ q with replies := q.replies ++ reply }, true)

/-- Queue a chunk; with no bytes it is dropped, and its budget goes back. -/
def pushInput (q : PtyInputQueue κ) (data : PaneInput κ) :
    PtyInputQueue κ × List (OwnedPermit κ) :=
  if data.bytes.isEmpty then (q, data.budget.toList)
  else ({ q with input := q.input ++ [data] }, [])

/-- Nothing to write now: replies held for a paste's end wait for input. -/
def isEmpty (q : PtyInputQueue κ) : Bool := q.input.isEmpty && (q.inPaste || q.replies.isEmpty)

def replying (q : PtyInputQueue κ) : Bool := q.written == 0 && !q.inPaste && !q.replies.isEmpty

/-- The bytes to write next. -/
def next (q : PtyInputQueue κ) : Bytes :=
  if q.replying then q.replies
  else
    match q.input with
    | [] => []
    | front :: _ => front.bytes.drop q.written

/-- Bytes of the next ones were written. The permits go back. -/
def consume (q : PtyInputQueue κ) (n : Nat) : PtyInputQueue κ × List (OwnedPermit κ) :=
  if q.replying then ({ q with replies := q.replies.drop n }, [])
  else
    match q.input with
    | [] => ({ q with written := q.written + n }, [])
    | front :: rest =>
      let (front, back) := front.wrote n
      if front.bytes.length = q.written + n then
        ({ q with
            input := rest
            written := 0
            inPaste := pasteAfter front.bytes q.inPaste },
          back.toList ++ front.budget.toList)
      else ({ q with input := front :: rest, written := q.written + n }, back.toList)

end PtyInputQueue

variable [DecidableEq κ]

/-- Permits of a semaphore that a list of owners holds. -/
def heldOf (k : κ) (owned : List (OwnedPermit κ)) : Nat :=
  (owned.map fun p => if p.semaphore = k then p.permits else 0).sum

/-- Permits of a semaphore that chunks hold. -/
def heldBy (k : κ) (chunks : List (PaneInput κ)) : Nat :=
  heldOf k (chunks.flatMap fun c => c.budget.toList)

/-- The queue, what the program got, the permits that are free, and what came so far. -/
structure InputTask (κ : Type) where
  queue : PtyInputQueue κ
  output : Bytes
  free : κ → Nat
  /-- The replies that were not refused. -/
  accepted : List Bytes
  /-- The chunks that were received. -/
  received : List (PaneInput κ)

/-- What a turn of the task's loop may do to the queue. -/
inductive InputEvent (κ : Type) where
  | reply (text : Bytes)
  | input (data : PaneInput κ)
  /-- The program took one byte of those offered, and so many more if there were. -/
  | write (more : Nat)
  /-- A program out of paste mode is out of any paste. -/
  | leavePaste

namespace InputTask

def new (free : κ → Nat) : InputTask κ := ⟨.default, [], free, [], []⟩

/-- Permits go back. -/
def release (free : κ → Nat) (owned : List (OwnedPermit κ)) : κ → Nat :=
  fun k => free k + heldOf k owned

def step (task : InputTask κ) : InputEvent κ → InputTask κ
  | .reply text =>
    let (queue, fits) := task.queue.push text
    { task with
      queue := queue
      accepted := if fits then task.accepted ++ [text] else task.accepted }
  | .input data =>
    let (queue, back) := task.queue.pushInput data
    { task with
      queue := queue
      free := release task.free back
      received := task.received ++ [data] }
  | .write more =>
    if task.queue.isEmpty then task
    else
      let n := min (more + 1) task.queue.next.length
      let (queue, back) := task.queue.consume n
      { task with
        queue := queue
        output := task.output ++ task.queue.next.take n
        free := release task.free back }
  | .leavePaste => { task with queue := { task.queue with inPaste := false } }

def run (free : κ → Nat) (events : List (InputEvent κ)) : InputTask κ :=
  events.foldl step (new free)

end InputTask

/-- What the program got as a whole. -/
inductive Item (κ : Type) where
  | reply (text : Bytes)
  | chunk (data : PaneInput κ)

namespace Item

def bytes : Item κ → Bytes
  | reply text => text
  | chunk data => data.bytes

def reply? : Item κ → Option Bytes
  | reply text => some text
  | chunk _ => none

def chunk? : Item κ → Option (PaneInput κ)
  | reply _ => none
  | chunk data => some data

end Item

/-- The output is whole replies and chunks, in their orders, and a part of the next one. -/
structure Delivered (task : InputTask κ) (sent : List (Item κ)) (part : Bytes)
    (replies : List Bytes) (chunks : List (PaneInput κ)) : Prop where
  output : task.output = sent.flatMap Item.bytes ++ part
  accepted : task.accepted = sent.filterMap Item.reply? ++ replies
  received : task.received.filter (fun c => !c.bytes.isEmpty) = sent.filterMap Item.chunk? ++ chunks

/-- What is written next, read off the queue. -/
inductive Stage (q : PtyInputQueue κ) (part : Bytes) (replies : List Bytes)
    (chunks : List (PaneInput κ)) : Prop where
  /-- Between chunks: a reply may be begun. -/
  | between (hwritten : q.written = 0) (hpaste : part = [] ∨ q.inPaste = false)
      (hreplies : part ++ q.replies = replies.flatten) (hpart : PartOf part replies)
      (hchunks : q.input = chunks)
  /-- Inside a chunk, which has given back some of its budget. -/
  | inside (front : PaneInput κ) (data : PaneInput κ) (rest : List (PaneInput κ))
      (hinput : q.input = front :: rest) (hchunks : chunks = data :: rest)
      (hbytes : front.bytes = data.bytes) (hpos : 0 < q.written)
      (hlt : q.written < data.bytes.length) (hpart : part = data.bytes.take q.written)
      (hreplies : q.replies = replies.flatten)

omit [DecidableEq κ] in
theorem PaneInput.wrote_bytes (input : PaneInput κ) (n : Nat) :
    (input.wrote n).1.bytes = input.bytes := by
  unfold PaneInput.wrote
  cases input.budget with
  | none => rfl
  | some budget => rfl

theorem heldOf_append (owned more : List (OwnedPermit κ)) :
    heldOf k (owned ++ more) = heldOf k owned + heldOf k more := by
  unfold heldOf
  rw [map_append, sum_append]

theorem heldOf_singleton (p : OwnedPermit κ) :
    heldOf k [p] = if p.semaphore = k then p.permits else 0 := Nat.add_zero _

theorem heldBy_append (chunks more : List (PaneInput κ)) :
    heldBy k (chunks ++ more) = heldBy k chunks + heldBy k more := by
  unfold heldBy
  rw [flatMap_append, heldOf_append]

theorem heldBy_cons (chunk : PaneInput κ) (rest : List (PaneInput κ)) :
    heldBy k (chunk :: rest) = heldOf k chunk.budget.toList + heldBy k rest := by
  unfold heldBy
  rw [flatMap_cons, heldOf_append]

theorem heldBy_singleton (chunk : PaneInput κ) :
    heldBy k [chunk] = heldOf k chunk.budget.toList := by
  rw [heldBy_cons]
  rfl

/-- Splitting a permit loses nothing. -/
theorem PaneInput.wrote_held (input : PaneInput κ) (n : Nat) :
    heldOf k (input.wrote n).2.toList + heldOf k (input.wrote n).1.budget.toList =
      heldOf k input.budget.toList := by
  unfold PaneInput.wrote
  cases hbudget : input.budget with
  | none =>
    dsimp only
    rw [hbudget]
    rfl
  | some budget =>
    have hle : min n (budget.permits - chunkCost) ≤ budget.permits :=
      (Nat.min_le_right _ _).trans (Nat.sub_le _ _)
    dsimp only [Option.toList_some]
    rw [heldOf_singleton, heldOf_singleton, heldOf_singleton]
    dsimp only
    split_ifs
    · omega
    · rfl

namespace PtyInputQueue

variable (q : PtyInputQueue κ)

theorem pushInput_held (data : PaneInput κ) :
    heldOf k (q.pushInput data).2 + heldBy k (q.pushInput data).1.input =
      heldBy k q.input + heldBy k [data] := by
  unfold pushInput
  rw [heldBy_singleton]
  split_ifs
  · exact Nat.add_comm _ _
  · dsimp only
    rw [heldBy_append, heldBy_singleton]
    exact Nat.zero_add _

theorem consume_held (n : Nat) :
    heldOf k (q.consume n).2 + heldBy k (q.consume n).1.input = heldBy k q.input := by
  unfold consume
  split_ifs with hreplying
  · exact Nat.zero_add _
  · cases hinput : q.input with
    | nil => rfl
    | cons front rest =>
      have hsplit := front.wrote_held k n
      dsimp only
      split_ifs
      · rw [heldOf_append, hsplit, heldBy_cons]
      · rw [heldBy_cons, heldBy_cons, ← hsplit, Nat.add_assoc]

section

omit [DecidableEq κ]

theorem consume_length (n : Nat) : (q.consume n).1.replies.length ≤ q.replies.length := by
  unfold consume
  split_ifs with hreplying
  · rw [length_drop]
    exact Nat.sub_le _ _
  · cases q.input with
    | nil => exact le_rfl
    | cons front rest =>
      dsimp only
      split_ifs
      · exact le_rfl
      · exact le_rfl

theorem push_length (reply : Bytes) (h : q.replies.length ≤ cap) :
    (q.push reply).1.replies.length ≤ cap := by
  unfold push
  split_ifs with hfull
  · exact h
  · show (q.replies ++ reply).length ≤ cap
    rw [length_append]
    exact Nat.not_lt.mp hfull

theorem push_refused (reply : Bytes) (h : (q.push reply).2 = false) : (q.push reply).1 = q := by
  unfold push at h ⊢
  split_ifs at h ⊢
  rfl

end

end PtyInputQueue

/-- The permits are free or held by the chunks that wait, and replies stay below their bound. -/
structure Bounded (free : κ → Nat) (task : InputTask κ) : Prop where
  permits : ∀ k, task.free k + heldBy k task.queue.input = free k + heldBy k task.received
  replies : task.queue.replies.length ≤ PtyInputQueue.cap

theorem Bounded.step {free : κ → Nat} {task : InputTask κ} (h : Bounded free task)
    (event : InputEvent κ) : Bounded free (task.step event) := by
  cases event with
  | reply text =>
    refine ⟨fun k => ?_, task.queue.push_length text h.replies⟩
    have hinput : (task.queue.push text).1.input = task.queue.input := by
      unfold PtyInputQueue.push
      split_ifs
      · rfl
      · rfl
    show task.free k + heldBy k (task.queue.push text).1.input = _
    rw [hinput]
    exact h.permits k
  | input data =>
    refine ⟨fun k => ?_, ?_⟩
    · have hpush := task.queue.pushInput_held k data
      have hpermits := h.permits k
      show task.free k + heldOf k (task.queue.pushInput data).2 +
        heldBy k (task.queue.pushInput data).1.input = _ + heldBy k (task.received ++ [data])
      rw [heldBy_append]
      omega
    · show (task.queue.pushInput data).1.replies.length ≤ _
      unfold PtyInputQueue.pushInput
      split_ifs
      · exact h.replies
      · exact h.replies
  | write more =>
    unfold InputTask.step
    dsimp only
    split_ifs
    · exact h
    · refine ⟨fun k => ?_, (task.queue.consume_length _).trans h.replies⟩
      have hconsume := task.queue.consume_held k (min (more + 1) task.queue.next.length)
      have hpermits := h.permits k
      show task.free k + heldOf k (task.queue.consume _).2 +
        heldBy k (task.queue.consume _).1.input = free k + heldBy k task.received
      omega
  | leavePaste => exact ⟨h.permits, h.replies⟩

variable {q : PtyInputQueue κ} {part : Bytes} {replies : List Bytes}
  {chunks : List (PaneInput κ)}

section

omit [DecidableEq κ]

theorem Item.bytes_replies (replies : List Bytes) :
    (replies.map Item.reply).flatMap (Item.bytes (κ := κ)) = replies.flatten := by
  rw [flatMap_map]
  exact flatMap_id

theorem Item.reply?_replies (replies : List Bytes) :
    (replies.map Item.reply).filterMap (Item.reply? (κ := κ)) = replies := by
  rw [filterMap_map]
  exact filterMap_some

theorem Item.chunk?_replies (replies : List Bytes) :
    (replies.map Item.reply).filterMap (Item.chunk? (κ := κ)) = [] := by
  rw [filterMap_map]
  exact filterMap_eq_nil_iff.mpr fun _ _ => rfl

/-- A reply that is begun is what is written next. -/
theorem replying_of_part (hwritten : q.written = 0) (hpaste : part = [] ∨ q.inPaste = false)
    (hreplies : part ++ q.replies = replies.flatten) (hpart : PartOf part replies)
    (hne : part ≠ []) : q.replying = true := by
  have hwaits : q.replies ≠ [] := by
    rintro hnil
    obtain ⟨r, rs, rfl, -, hlt⟩ := hpart.resolve_left hne
    have hlength := congrArg List.length hreplies
    rw [hnil, append_nil, flatten_cons, length_append] at hlength
    omega
  unfold PtyInputQueue.replying
  rw [hwritten, hpaste.resolve_left hne, isEmpty_eq_false_iff.mpr hwaits]
  rfl

/-- Replies are written from the front, as a whole but for the last one. -/
theorem write_replies (hreplying : q.replying = true)
    (hreplies : part ++ q.replies = replies.flatten) (hchunks : q.input = chunks) (n : Nat) :
    ∃ whole rest part', replies = whole ++ rest ∧
      part ++ q.replies.take n = whole.flatten ++ part' ∧
      Stage (q.consume n).1 part' rest chunks := by
  obtain ⟨whole, rest, part', rfl, htake, hdrop, hpart'⟩ :=
    Chunks.exists_cut replies (part.length + n)
  rw [← hreplies, take_length_add_append] at htake
  rw [← hreplies, drop_length_add_append] at hdrop
  refine ⟨whole, rest, part', rfl, htake, ?_⟩
  have hflags := hreplying
  unfold PtyInputQueue.replying at hflags
  rw [Bool.and_eq_true, Bool.and_eq_true, Bool.not_eq_true', beq_iff_eq] at hflags
  unfold PtyInputQueue.consume
  rw [if_pos hreplying]
  exact .between hflags.1.1 (.inr hflags.1.2) hdrop hpart' hchunks

/-- A chunk is written to its end, or goes on. -/
theorem write_chunk (hreplying : q.replying = false) {front data : PaneInput κ}
    {rest : List (PaneInput κ)} (hinput : q.input = front :: rest)
    (hbytes : front.bytes = data.bytes) (hreplies : q.replies = replies.flatten) {n : Nat}
    (hn : 0 < n) (hle : q.written + n ≤ data.bytes.length) :
    q.next = data.bytes.drop q.written ∧
      (q.written + n = data.bytes.length ∧ Stage (q.consume n).1 [] replies rest ∨
        Stage (q.consume n).1 (data.bytes.take (q.written + n)) replies (data :: rest)) := by
  have hno : ¬q.replying = true := Bool.eq_false_iff.mp hreplying
  constructor
  · unfold PtyInputQueue.next
    rw [if_neg hno, hinput]
    exact congrArg (List.drop q.written) hbytes
  · unfold PtyInputQueue.consume
    rw [if_neg hno, hinput]
    dsimp only
    rw [front.wrote_bytes, hbytes]
    by_cases hend : data.bytes.length = q.written + n
    · rw [if_pos hend]
      exact .inl ⟨hend.symm, .between rfl (.inl rfl) hreplies (.nil _) rfl⟩
    · rw [if_neg hend]
      refine .inr (.inside _ data rest rfl rfl ?_ ?_ ?_ rfl hreplies)
      · rw [front.wrote_bytes, hbytes]
      · show 0 < q.written + n
        omega
      · show q.written + n < data.bytes.length
        omega

end

/-- The output is accounted for, and so is what is written next. -/
structure Serving (task : InputTask κ) (sent : List (Item κ)) (part : Bytes)
    (replies : List Bytes) (chunks : List (PaneInput κ)) : Prop where
  delivered : Delivered task sent part replies chunks
  stage : Stage task.queue part replies chunks

variable {task : InputTask κ} {sent : List (Item κ)}

omit [DecidableEq κ] in
/-- Chunks with no bytes are never queued. -/
theorem Delivered.length_pos (h : Delivered task sent part replies chunks) {data : PaneInput κ}
    (hdata : data ∈ chunks) : 0 < data.bytes.length := by
  have hmem : data ∈ task.received.filter fun c => !c.bytes.isEmpty := by
    rw [h.received]
    exact mem_append_right _ hdata
  have hne := (mem_filter.mp hmem).2
  rw [Bool.not_eq_true', isEmpty_eq_false_iff] at hne
  exact length_pos_iff.mpr hne

namespace Serving

section

variable (h : Serving task sent part replies chunks)
include h

theorem reply (text : Bytes) :
    ∃ replies', Serving (task.step (.reply text)) sent part replies' chunks := by
  unfold InputTask.step PtyInputQueue.push
  dsimp only
  by_cases hfull : PtyInputQueue.cap < task.queue.replies.length + text.length
  · rw [if_pos hfull]
    exact ⟨replies, ⟨h.delivered.output, h.delivered.accepted, h.delivered.received⟩, h.stage⟩
  · rw [if_neg hfull]
    refine ⟨replies ++ [text], ⟨h.delivered.output, ?_, h.delivered.received⟩, ?_⟩
    · show task.accepted ++ [text] = _
      rw [h.delivered.accepted, append_assoc]
    · have hflatten : (replies ++ [text]).flatten = replies.flatten ++ text := by
        rw [flatten_append, flatten_singleton]
      cases h.stage with
      | between hwritten hpaste hreplies hpart hchunks =>
        refine .between hwritten hpaste ?_ (hpart.append _) hchunks
        rw [hflatten, ← hreplies, append_assoc]
      | inside front data rest hinput hchunks hbytes hpos hlt hpart hreplies =>
        refine .inside front data rest hinput hchunks hbytes hpos hlt hpart ?_
        rw [hflatten, ← hreplies]

theorem input (data : PaneInput κ) :
    ∃ chunks', Serving (task.step (.input data)) sent part replies chunks' := by
  unfold InputTask.step PtyInputQueue.pushInput
  dsimp only
  by_cases hempty : data.bytes.isEmpty = true
  · rw [if_pos hempty]
    refine ⟨chunks, ⟨h.delivered.output, h.delivered.accepted, ?_⟩, h.stage⟩
    show (task.received ++ [data]).filter _ = _
    rw [filter_append, h.delivered.received, filter_singleton, hempty]
    exact append_nil _
  · rw [if_neg hempty]
    refine ⟨chunks ++ [data], ⟨h.delivered.output, h.delivered.accepted, ?_⟩, ?_⟩
    · show (task.received ++ [data]).filter _ = _
      rw [filter_append, h.delivered.received, filter_singleton,
        Bool.eq_false_iff.mpr hempty, append_assoc]
      rfl
    · cases h.stage with
      | between hwritten hpaste hreplies hpart hchunks =>
        exact .between hwritten hpaste hreplies hpart (congrArg (· ++ [data]) hchunks)
      | inside front first rest hinput hchunks hbytes hpos hlt hpart hreplies =>
        exact .inside front first (rest ++ [data]) (congrArg (· ++ [data]) hinput)
          (congrArg (· ++ [data]) hchunks) hbytes hpos hlt hpart hreplies

theorem leavePaste : Serving (task.step .leavePaste) sent part replies chunks := by
  refine ⟨⟨h.delivered.output, h.delivered.accepted, h.delivered.received⟩, ?_⟩
  cases h.stage with
  | between hwritten hpaste hreplies hpart hchunks =>
    exact .between hwritten (.inr rfl) hreplies hpart hchunks
  | inside front data rest hinput hchunks hbytes hpos hlt hpart hreplies =>
    exact .inside front data rest hinput hchunks hbytes hpos hlt hpart hreplies

/-- A chunk is begun, goes on, or ends. -/
theorem writeChunk (hreplying : task.queue.replying = false) {front data : PaneInput κ}
    {rest : List (PaneInput κ)} (hinput : task.queue.input = front :: rest)
    (hchunks : chunks = data :: rest) (hbytes : front.bytes = data.bytes)
    (hlt : task.queue.written < data.bytes.length)
    (hpart : part = data.bytes.take task.queue.written)
    (hreplies : task.queue.replies = replies.flatten) (more : Nat) :
    ∃ sent' part' chunks', Serving (task.step (.write more)) sent' part' replies chunks' := by
  have hbusy : ¬task.queue.isEmpty = true := by
    unfold PtyInputQueue.isEmpty
    rw [hinput]
    exact Bool.false_ne_true
  have hnext : task.queue.next = data.bytes.drop task.queue.written := by
    unfold PtyInputQueue.next
    rw [if_neg (Bool.eq_false_iff.mp hreplying), hinput]
    exact congrArg (List.drop task.queue.written) hbytes
  have hlength : task.queue.next.length = data.bytes.length - task.queue.written := by
    rw [hnext, length_drop]
  obtain ⟨-, hstage⟩ := write_chunk (n := min (more + 1) task.queue.next.length) hreplying hinput
    hbytes hreplies (by omega) (by omega)
  have hout : task.output ++ task.queue.next.take (min (more + 1) task.queue.next.length) =
      sent.flatMap Item.bytes ++
        data.bytes.take (task.queue.written + min (more + 1) task.queue.next.length) := by
    rw [h.delivered.output, hpart, append_assoc, hnext, take_add]
  unfold InputTask.step
  dsimp only
  rw [if_neg hbusy]
  rcases hstage with ⟨hend, hstage⟩ | hstage
  · refine ⟨sent ++ [.chunk data], [], rest, ⟨⟨?_, ?_, ?_⟩, hstage⟩⟩
    · show task.output ++ _ = _
      rw [hout, hend, take_length, flatMap_append, append_nil]
      exact congrArg (_ ++ ·) (append_nil _).symm
    · show task.accepted = _
      rw [filterMap_append, h.delivered.accepted]
      exact congrArg (· ++ _) (append_nil _).symm
    · show task.received.filter _ = _
      rw [filterMap_append, h.delivered.received, hchunks, append_assoc]
      rfl
  · exact ⟨sent, _, data :: rest, ⟨hout, h.delivered.accepted, hchunks ▸ h.delivered.received⟩,
      hstage⟩

theorem write (more : Nat) :
    ∃ sent' part' replies' chunks',
      Serving (task.step (.write more)) sent' part' replies' chunks' := by
  cases h.stage with
  | inside front data rest hinput hchunks hbytes hpos hlt hpart hreplies =>
    have hreplying : task.queue.replying = false := by
      unfold PtyInputQueue.replying
      rw [beq_eq_false_iff_ne.mpr hpos.ne', Bool.false_and, Bool.false_and]
    obtain ⟨sent', part', chunks', hserving⟩ :=
      h.writeChunk hreplying hinput hchunks hbytes hlt hpart hreplies more
    exact ⟨sent', part', replies, chunks', hserving⟩
  | between hwritten hpaste hreplies hpart hchunks =>
    cases hreplying : task.queue.replying with
    | true =>
      have hbusy : ¬task.queue.isEmpty = true := by
        unfold PtyInputQueue.replying at hreplying
        rw [Bool.and_eq_true, Bool.and_eq_true, Bool.not_eq_true', Bool.not_eq_true']
          at hreplying
        unfold PtyInputQueue.isEmpty
        rw [hreplying.1.2, hreplying.2, Bool.or_false, Bool.and_false]
        exact Bool.false_ne_true
      have hnext : task.queue.next = task.queue.replies := if_pos hreplying
      obtain ⟨whole, rest, part', rfl, hout, hstage⟩ := write_replies hreplying hreplies
        hchunks (min (more + 1) task.queue.next.length)
      unfold InputTask.step
      dsimp only
      rw [if_neg hbusy]
      refine ⟨sent ++ whole.map .reply, part', rest, chunks, ⟨⟨?_, ?_, ?_⟩, hstage⟩⟩
      · show task.output ++ task.queue.next.take _ = _
        rw [h.delivered.output, append_assoc, hnext]
        rw [hnext] at hout
        rw [hout, flatMap_append, Item.bytes_replies, append_assoc]
      · show task.accepted = _
        rw [filterMap_append, Item.reply?_replies, h.delivered.accepted, append_assoc]
      · show task.received.filter _ = _
        rw [filterMap_append, Item.chunk?_replies, append_nil, h.delivered.received]
    | false =>
      have hnil : part = [] := by
        by_contra hne
        rw [replying_of_part hwritten hpaste hreplies hpart hne] at hreplying
        cases hreplying
      rw [hnil, nil_append] at hreplies
      cases hinput : task.queue.input with
      | nil =>
        refine ⟨sent, part, replies, chunks, ?_⟩
        have hidle : task.queue.isEmpty = true := by
          unfold PtyInputQueue.replying at hreplying
          unfold PtyInputQueue.isEmpty
          rw [hwritten] at hreplying
          rw [hinput]
          cases hin : task.queue.inPaste with
          | true => rfl
          | false =>
            rw [hin] at hreplying
            have hnone : (!task.queue.replies.isEmpty) = false := hreplying
            rwa [Bool.not_eq_false'] at hnone
        unfold InputTask.step
        dsimp only
        rw [if_pos hidle]
        exact h
      | cons front rest =>
        have hfront : front ∈ chunks := by
          rw [← hchunks, hinput]
          exact mem_cons_self
        have hpos := h.delivered.length_pos hfront
        obtain ⟨sent', part', chunks', hserving⟩ := h.writeChunk hreplying hinput
          (hchunks.symm.trans hinput) rfl (hwritten ▸ hpos)
          (by rw [hnil, hwritten]; rfl) hreplies more
        exact ⟨sent', part', replies, chunks', hserving⟩

theorem step (event : InputEvent κ) :
    ∃ sent' part' replies' chunks', Serving (task.step event) sent' part' replies' chunks' := by
  cases event with
  | reply text =>
    obtain ⟨replies', hserving⟩ := h.reply text
    exact ⟨sent, part, replies', chunks, hserving⟩
  | input data =>
    obtain ⟨chunks', hserving⟩ := h.input data
    exact ⟨sent, part, replies, chunks', hserving⟩
  | write more => exact h.write more
  | leavePaste => exact ⟨sent, part, replies, chunks, h.leavePaste⟩

end

end Serving

theorem serving_run (free : κ → Nat) (events : List (InputEvent κ)) :
    Bounded free (InputTask.run free events) ∧
      ∃ sent part replies chunks, Serving (InputTask.run free events) sent part replies chunks := by
  induction events using List.reverseRecOn with
  | nil =>
    refine ⟨⟨fun _ => rfl, Nat.zero_le _⟩, [], [], [], [], ⟨rfl, rfl, rfl⟩, ?_⟩
    exact .between rfl (.inl rfl) rfl (.nil _) rfl
  | append_singleton events event ih =>
    obtain ⟨hbounded, sent, part, replies, chunks, hserving⟩ := ih
    unfold InputTask.run at hbounded hserving ⊢
    rw [foldl_append]
    exact ⟨hbounded.step event, hserving.step event⟩

omit [DecidableEq κ] in
/-- What was written when nothing waits any more. -/
theorem Serving.drained (h : Serving task sent part replies chunks)
    (hreplies : task.queue.replies = []) (hinput : task.queue.input = []) :
    Delivered task (sent ++ replies.map .reply) [] [] [] := by
  cases h.stage with
  | inside front data rest hfront => rw [hinput] at hfront; cases hfront
  | between hwritten hpaste hflatten hpart hchunks =>
    rw [hinput] at hchunks
    rw [hreplies, append_nil] at hflatten
    refine ⟨?_, ?_, ?_⟩
    · rw [h.delivered.output, flatMap_append, Item.bytes_replies, append_nil, hflatten]
    · rw [h.delivered.accepted, filterMap_append, Item.reply?_replies, append_nil]
    · rw [h.delivered.received, ← hchunks, filterMap_append, Item.chunk?_replies,
        append_nil, append_nil]

/-- However replies, chunks, writes of any size and ends of pastes follow each other, the program
gets whole replies and whole chunks, each kind in its order, and a part of the next one; the
others wait, and all permits but those of waiting chunks are free. Once nothing waits, all of
them were written. A reply that is refused changes nothing. -/
theorem run_delivers (free : κ → Nat) (events : List (InputEvent κ)) :
    let task := InputTask.run free events
    (∃ sent part replies chunks, Delivered task sent part replies chunks ∧
      Stage task.queue part replies chunks) ∧
    (∀ k, task.free k + heldBy k task.queue.input = free k + heldBy k task.received) ∧
    task.queue.replies.length ≤ PtyInputQueue.cap ∧
    (∀ reply, (task.queue.push reply).2 = false → (task.queue.push reply).1 = task.queue) ∧
    (task.queue.replies = [] → task.queue.input = [] → ∃ sent, Delivered task sent [] [] []) := by
  intro task
  obtain ⟨hbounded, sent, part, replies, chunks, hserving⟩ := serving_run free events
  refine ⟨⟨sent, part, replies, chunks, hserving.delivered, hserving.stage⟩, hbounded.permits,
    hbounded.replies, ?_, ?_⟩
  · exact fun reply => task.queue.push_refused reply
  · exact fun hreplies hinput => ⟨_, hserving.drained hreplies hinput⟩

/-- A chunk that is written with a reply behind it. -/
def sampleRun : InputTask Unit :=
  InputTask.run (fun _ => 0)
    [.input ⟨[0x61, 0x62], some ⟨(), 66⟩⟩, .write 0, .reply [0x63], .write 0, .write 0]

theorem run_delivers_sample : (sampleRun.queue.push (List.replicate 4097 0)).1 = sampleRun.queue ∧
      (∃ sent, Delivered sampleRun sent [] [] []) ∧ sampleRun.free () = 66 := by
  obtain ⟨-, -, -, hrefused, hdrained⟩ := run_delivers (κ := Unit) (fun _ => 0)
    [.input ⟨[0x61, 0x62], some ⟨(), 66⟩⟩, .write 0, .reply [0x63], .write 0, .write 0]
  refine ⟨hrefused _ ?_, hdrained (by decide) ?_, by decide⟩
  · unfold PtyInputQueue.push
    rw [length_replicate, if_pos (by decide)]
  · rfl

end Shux.Io
