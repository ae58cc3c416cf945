import GrpcEbcdic.Error
import GrpcEbcdic.Proto.Events
import Mathlib.Data.List.Infix

/-!
# The response stream

The parse task sends its events on a channel, and the transport polls the guard for them, which hands
them over in batches and ends the call with an error if the parse ended without its trailer. The two
run beside each other: a call of the guard is cut at its polls of the channel, and between any two of
them the task may send or be gone.
-/

namespace GrpcEbcdic

/-- What polling a future or a stream gives. -/
inductive Poll (α : Type) where
  | ready (value : α)
  | pending

/-- Encoded event bytes a batch gathers before the transport gets it. -/
def batchBytes : Nat := 256

variable [F64]

/-- An item of the response stream. -/
abbrev Item := Except Status Pb.ParseEbcdicResponse

/-- Whether an item is the last of its stream: an error, or the trailer. -/
def IsFinal : Item → Prop
  | .error _ => True
  | .ok response => ∃ status, response.event = some (.status status)

instance (item : Item) : Decidable (IsFinal item) :=
  match item with
  | .error _ => .isTrue trivial
  | .ok ⟨some (.status status)⟩ => .isTrue ⟨status, rfl⟩
  | .ok ⟨some (.layoutInfo _)⟩ => .isFalse fun ⟨_, eq⟩ => by cases eq
  | .ok ⟨some (.record _)⟩ => .isFalse fun ⟨_, eq⟩ => by cases eq
  | .ok ⟨some (.document _)⟩ => .isFalse fun ⟨_, eq⟩ => by cases eq
  | .ok ⟨none⟩ => .isFalse fun ⟨_, eq⟩ => by cases eq

/-- The error of a parse that ended without its trailer. -/
def noTrailer : Item := .error ⟨.internal, "the parse ended without a ParseStatus trailer"⟩

/-- The receiving half of the event channel: what was sent and has not been received, oldest first, and
whether the sender is gone. -/
structure ReceiverStream where
  queue : List Item
  closed : Bool

/-- Poll the channel. It may have the guard come back (`ready` is not set) whatever is in it. -/
def ReceiverStream.pollNext (events : ReceiverStream) (ready : Bool) :
    Poll (Option Item) × ReceiverStream :=
  if ready then
    match events.queue with
    | item :: queue => (.ready (some item), { events with queue := queue })
    | [] => (if events.closed then .ready none else .pending, events)
  else (.pending, events)

/-- The response stream: the parse's events, then an error if the parse ended without its trailer. -/
structure TrailerGuard where
  /-- The events the parse task sent. -/
  events : ReceiverStream
  /-- Set once a trailer or an error has gone out. -/
  finished : Bool
  /-- Events taken from the channel and not yet handed to the transport. -/
  batch : List Item
  /-- The encoded bytes of the events in `batch`. -/
  batchBytes : Nat
  /-- The batch holds the last event of the stream. -/
  batchFinal : Bool
  /-- The batch is going out. -/
  releasing : Bool
  /-- Whether a timer runs while a small batch waits for more events. -/
  wait : Bool

/-- Where a call of the guard stands: at its next poll of the channel, or at its end. -/
inductive Turn where
  | polls (guard : TrailerGuard)
  | returns (result : Poll (Option Item)) (guard : TrailerGuard)

namespace TrailerGuard

/-- Guard the events arriving on `events`. -/
def new (events : ReceiverStream) : TrailerGuard where
  events := events
  finished := false
  batch := []
  batchBytes := 0
  batchFinal := false
  releasing := false
  wait := false

/-- Whether the batch takes another event. -/
def Gathers (guard : TrailerGuard) : Prop :=
  guard.batchFinal = false ∧ guard.batchBytes < GrpcEbcdic.batchBytes

instance (guard : TrailerGuard) : Decidable guard.Gathers := inferInstanceAs (Decidable (_ ∧ _))

/-- Hand over the first event of the batch. -/
def release (guard : TrailerGuard) : Turn :=
  match guard.batch with
  | [] => .returns .pending guard
  | [item] =>
    .returns (.ready (some item))
      { guard with batch := [], releasing := false, batchBytes := 0, finished := guard.batchFinal }
  | item :: batch => .returns (.ready (some item)) { guard with batch := batch }

/-- Go on when the channel has no more for this batch: `elapsed` is what the timer says. -/
def gathered (elapsed : Bool) (guard : TrailerGuard) : Turn :=
  if guard.batch = [] then .returns .pending guard
  else if guard.Gathers ∧ elapsed = false then .returns .pending { guard with wait := true }
  else { guard with releasing := true, wait := false }.release

/-- Poll the channel for another event if the batch takes one. -/
def gather (elapsed : Bool) (guard : TrailerGuard) : Turn :=
  if guard.Gathers then .polls guard else guard.gathered elapsed

/-- Begin a call of the guard. -/
def pollNext (elapsed : Bool) (guard : TrailerGuard) : Turn :=
  if guard.finished then .returns (.ready none) guard
  else if guard.releasing then guard.release
  else guard.gather elapsed

variable (encodedLen : Pb.ParseEbcdicResponse → Nat)

/-- The encoded bytes an item adds to the batch. -/
def itemBytes : Item → Nat
  | .ok response => encodedLen response
  | .error _ => 0

/-- Gather one event. -/
def push (guard : TrailerGuard) (item : Item) : TrailerGuard :=
  { guard with
    batchFinal := decide (IsFinal item)
    batchBytes := guard.batchBytes + itemBytes encodedLen item
    batch := guard.batch ++ [item] }

omit encodedLen in
/-- Gather the error of a parse that ended without its trailer. -/
def pushEnd (guard : TrailerGuard) : TrailerGuard :=
  { guard with batchFinal := true, batch := guard.batch ++ [noTrailer] }

/-- Go on with what the channel said. -/
def answered (elapsed : Bool) (guard : TrailerGuard) : Poll (Option Item) → Turn
  | .pending => guard.gathered elapsed
  | .ready (some item) => (guard.push encodedLen item).gather elapsed
  | .ready none => guard.pushEnd.gather elapsed

end TrailerGuard

/-- One call of the guard: what the channel said each time it was polled, and what the call gave. -/
structure PollCall where
  answers : List (Poll (Option Item))
  result : Poll (Option Item)

/-- The item a call hands over. -/
def PollCall.item (call : PollCall) : Option Item :=
  match call.result with
  | .ready item => item
  | .pending => none

/-- The guard among the parse task and the transport. -/
structure GuardRun where
  guard : TrailerGuard
  /-- What the channel said in the call under way, if one is. -/
  call : Option (List (Poll (Option Item)))
  /-- Everything the task has sent. -/
  sent : List Item
  /-- The calls so far. -/
  calls : List PollCall

/-- What can happen next. -/
inductive Act where
  /-- The task sends an item. -/
  | send (item : Item)
  /-- The task is gone, and the channel closes. -/
  | close
  /-- The transport polls the guard. -/
  | poll (elapsed : Bool)
  /-- The call under way polls the channel. -/
  | resume (ready elapsed : Bool)

namespace GuardRun

/-- The run before anything has happened. -/
def start : GuardRun := ⟨.new ⟨[], false⟩, none, [], []⟩

/-- The call under way goes on to its next poll of the channel, or to its end. -/
def turn (run : GuardRun) (answers : List (Poll (Option Item))) : Turn → GuardRun
  | .polls guard => { run with guard := guard, call := some answers }
  | .returns result guard =>
    { run with guard := guard, call := none, calls := run.calls ++ [⟨answers, result⟩] }

/-- The channel with another item, or without its sender. -/
def withEvents (run : GuardRun) (events : ReceiverStream) : GuardRun :=
  { run with guard := { run.guard with events := events } }

variable (encodedLen : Pb.ParseEbcdicResponse → Nat)

/-- One thing happens: nothing is sent on a closed channel, and one call runs at a time. -/
def step (run : GuardRun) : Act → GuardRun
  | .send item =>
    if run.guard.events.closed then run
    else
      { run.withEvents ⟨run.guard.events.queue ++ [item], false⟩ with sent := run.sent ++ [item] }
  | .close => run.withEvents ⟨run.guard.events.queue, true⟩
  | .poll elapsed =>
    match run.call with
    | some _ => run
    | none => run.turn [] (run.guard.pollNext elapsed)
  | .resume ready elapsed =>
    match run.call with
    | none => run
    | some answers =>
      let polled := run.guard.events.pollNext ready
      run.turn (answers ++ [polled.1])
        ({ run.guard with events := polled.2 }.answered encodedLen elapsed polled.1)

/-- The run of some acts, one after the other. -/
def after (acts : List Act) : GuardRun := acts.foldl (step encodedLen) start

/-- The call under way goes on, or else the transport polls: the channel gives what it has, and the
timer has elapsed. -/
def advance (run : GuardRun) : GuardRun :=
  match run.call with
  | none => run.step encodedLen (.poll true)
  | some _ => run.step encodedLen (.resume true true)

end GuardRun

/-- The items some calls hand over. -/
def handedBy (calls : List PollCall) : List Item := calls.filterMap PollCall.item

/-- The items the transport is due of what was sent: up to the first that is final, and if there is none
and the sender is gone, the error of a parse without a trailer. -/
def due (closed : Bool) : List Item → List Item
  | [] => if closed then [noTrailer] else []
  | item :: sent => if IsFinal item then [item] else item :: due closed sent

/-! ## What is due -/

/-- In front of the first final item everything is due. -/
lemma due_append {front : List Item} (open_ : ∀ item ∈ front, ¬ IsFinal item) (closed : Bool)
    (sent : List Item) : due closed (front ++ sent) = front ++ due closed sent := by
  induction front with
  | nil => rfl
  | cons item front ih =>
    obtain ⟨not_final, open_⟩ := List.forall_mem_cons.mp open_
    rw [List.cons_append, due, if_neg not_final, ih open_, List.cons_append]

/-- Behind a final item nothing is due, whatever else is sent. -/
lemma due_final {sent : List Item} (final : ∃ item ∈ sent, IsFinal item) (closed closed' : Bool)
    (more : List Item) : due closed (sent ++ more) = due closed' sent := by
  induction sent with
  | nil => exact absurd final (by simp)
  | cons item sent ih =>
    rw [List.cons_append, due, due]
    by_cases is : IsFinal item
    · rw [if_pos is, if_pos is]
    · rw [if_neg is, if_neg is, ih]
      simpa [is] using final

/-- While the channel is open, only what was sent is due. -/
lemma due_open_le (sent : List Item) : due false sent <+: sent := by
  induction sent with
  | nil => exact List.prefix_rfl
  | cons item sent ih =>
    rw [due]
    split_ifs
    · exact ⟨sent, rfl⟩
    · exact List.prefix_cons_inj item |>.mpr ih

/-- A final item is the last that is due. -/
lemma due_last {closed : Bool} {sent front back : List Item} {item : Item}
    (eq : due closed sent = front ++ item :: back) (final : IsFinal item) : back = [] := by
  induction sent generalizing front with
  | nil =>
    rw [due] at eq
    split_ifs at eq
    · cases front with
      | nil => exact (List.cons.inj eq).2.symm
      | cons _ front => simp at eq
    · simp at eq
  | cons sent₀ sent ih =>
    rw [due] at eq
    split_ifs at eq with is
    · cases front with
      | nil => exact (List.cons.inj eq).2.symm
      | cons _ front => simp at eq
    · cases front with
      | nil => exact absurd final ((List.cons.inj eq).1 ▸ is)
      | cons _ front => exact ih (List.cons.inj eq).2

/-! ## One call -/

namespace TrailerGuard

/-- What a guard has, that has handed over some items of those sent. -/
structure Holds (sent handed : List Item) (guard : TrailerGuard) : Prop where
  /-- Until it has the last item, it has what was sent and is not in the channel. -/
  gathering : guard.batchFinal = false →
    (∀ item ∈ handed ++ guard.batch, ¬ IsFinal item) ∧
      handed ++ guard.batch ++ guard.events.queue = sent
  /-- When it has the last item, it has all that is due. -/
  final : guard.batchFinal = true →
    handed ++ guard.batch = due guard.events.closed sent ∧
      ∃ item ∈ handed ++ guard.batch, IsFinal item
  finished : guard.finished = true → guard.batch = [] ∧ guard.batchFinal = true
  releasing : guard.releasing = true → guard.batch ≠ []

/-- A guard between two calls. -/
structure Idle (guard : TrailerGuard) : Prop where
  gathers : guard.finished = false → guard.releasing = false → guard.Gathers
  /-- A timer runs for whatever waits. -/
  armed : guard.finished = false → guard.releasing = false → guard.batch ≠ [] → guard.wait = true

/-- A guard in a call, about to poll the channel. -/
structure Polling (guard : TrailerGuard) : Prop where
  unfinished : guard.finished = false
  unreleased : guard.releasing = false
  gathers : guard.Gathers

/-- What a call is to keep on its way and at its end: `polled` says whether the channel had nothing in
this call. -/
def Keeps (sent handed : List Item) (polled : Prop) : Turn → Prop
  | .polls guard => guard.Holds sent handed ∧ guard.Polling
  | .returns (.ready (some item)) guard => guard.Holds sent (handed ++ [item]) ∧ guard.Idle
  | .returns (.ready none) guard =>
    guard.Holds sent handed ∧ guard.Idle ∧ ∃ item ∈ handed, IsFinal item
  | .returns .pending guard => guard.Holds sent handed ∧ guard.Idle ∧ polled

variable {sent handed : List Item} {polled : Prop} {guard : TrailerGuard}

lemma Holds.release (holds : guard.Holds sent handed) (unfinished : guard.finished = false)
    (releasing : guard.releasing = true) : Keeps sent handed polled guard.release := by
  obtain ⟨gathering, final, _, nonempty⟩ := holds
  have some := nonempty releasing
  rcases eq : guard.batch with _ | ⟨item, _ | ⟨next, batch⟩⟩
  · exact absurd eq some
  · simp only [TrailerGuard.release, eq]
    rw [eq] at gathering final
    refine ⟨⟨?_, ?_, fun finished => ⟨rfl, finished⟩, fun absurd => ?_⟩,
      ⟨fun gathers _ => ⟨gathers, ?_⟩, fun _ _ none => absurd rfl none⟩⟩
    · simpa using gathering
    · simpa using final
    · cases absurd
    · exact Nat.zero_lt_succ 255
  · simp only [TrailerGuard.release, eq]
    rw [eq] at gathering final
    refine ⟨⟨?_, ?_, fun finished => ?_, fun _ => List.cons_ne_nil _ _⟩,
      ⟨fun _ idle => ?_, fun _ idle => ?_⟩⟩
    · simpa using gathering
    · simpa using final
    · exact absurd (unfinished.symm.trans finished) Bool.false_ne_true
    · exact absurd (idle.symm.trans releasing) Bool.false_ne_true
    · exact absurd (idle.symm.trans releasing) Bool.false_ne_true

/-- A batch that takes no more, or that the channel has no more for, waits or goes out. -/
lemma Holds.gathered (holds : guard.Holds sent handed) (unfinished : guard.finished = false)
    (empty : guard.batch = [] → guard.Gathers)
    (asked : guard.Gathers → polled) (elapsed : Bool) :
    Keeps sent handed polled (guard.gathered elapsed) := by
  unfold TrailerGuard.gathered
  split_ifs with none waits
  · have gathers := empty none
    exact ⟨holds, ⟨fun _ _ => gathers, fun _ _ some => absurd none some⟩, asked gathers⟩
  · obtain ⟨gathering, final, finished, releasing⟩ := holds
    exact ⟨⟨gathering, final, finished, releasing⟩, ⟨fun _ _ => waits.1, fun _ _ _ => rfl⟩,
      asked waits.1⟩
  · obtain ⟨gathering, final, finished, _⟩ := holds
    exact Holds.release ⟨gathering, final, finished, fun _ => none⟩ unfinished rfl

lemma Holds.gather (holds : guard.Holds sent handed) (unfinished : guard.finished = false)
    (unreleased : guard.releasing = false) (empty : guard.batch = [] → guard.Gathers)
    (elapsed : Bool) : Keeps sent handed polled (guard.gather elapsed) := by
  unfold TrailerGuard.gather
  split_ifs with gathers
  · exact ⟨holds, unfinished, unreleased, gathers⟩
  · exact holds.gathered unfinished empty (fun gathers' => absurd gathers' gathers) elapsed

/-- A call begins at a guard between two calls. -/
lemma Holds.pollNext (holds : guard.Holds sent handed) (idle : guard.Idle) (elapsed : Bool) :
    Keeps sent handed polled (guard.pollNext elapsed) := by
  unfold TrailerGuard.pollNext
  split_ifs with finished releasing
  · obtain ⟨none, last⟩ := holds.finished finished
    obtain ⟨_, final⟩ := holds.final last
    rw [none, List.append_nil] at final
    exact ⟨holds, idle, final⟩
  · exact holds.release (Bool.eq_false_iff.mpr finished) releasing
  · have unfinished := Bool.eq_false_iff.mpr finished
    have unreleased := Bool.eq_false_iff.mpr releasing
    exact holds.gather unfinished unreleased (fun _ => idle.gathers unfinished unreleased) elapsed

variable (encodedLen : Pb.ParseEbcdicResponse → Nat)

/-- The next item of the channel goes into the batch. -/
lemma Holds.push (holds : guard.Holds sent handed) (polling : guard.Polling) {item : Item}
    {queue : List Item} (next : guard.events.queue = item :: queue) :
    Holds sent handed
      ({ guard with events := { guard.events with queue := queue } }.push encodedLen item) := by
  obtain ⟨before, all⟩ := holds.gathering polling.gathers.1
  rw [next, List.append_cons] at all
  refine ⟨fun not_final => ⟨?_, ?_⟩, fun final => ⟨?_, item, ?_, of_decide_eq_true final⟩,
    fun finished => ?_, fun releasing => ?_⟩
  · have not_final := of_decide_eq_false not_final
    simp only [TrailerGuard.push, ← List.append_assoc]
    exact List.forall_mem_append.mpr ⟨before, List.forall_mem_singleton.mpr not_final⟩
  · simp only [TrailerGuard.push, ← List.append_assoc]
    exact all
  · have all_due : due guard.events.closed sent = handed ++ guard.batch ++ [item] := by
      rw [← all, List.append_assoc (handed ++ guard.batch), due_append before, List.singleton_append,
        due, if_pos (of_decide_eq_true final)]
    simp only [TrailerGuard.push, ← List.append_assoc]
    exact all_due.symm
  · exact List.mem_append_right _ (List.mem_append_right _ List.mem_cons_self)
  · exact absurd (polling.unfinished.symm.trans finished) Bool.false_ne_true
  · exact absurd (polling.unreleased.symm.trans releasing) Bool.false_ne_true

/-- When the channel has closed without a final item, the error takes its place. -/
lemma Holds.pushEnd (holds : guard.Holds sent handed) (polling : guard.Polling)
    (none : guard.events.queue = []) (closed : guard.events.closed = true) :
    Holds sent handed guard.pushEnd := by
  obtain ⟨before, all⟩ := holds.gathering polling.gathers.1
  rw [none, List.append_nil] at all
  refine ⟨fun absurd => ?_, fun _ => ⟨?_, noTrailer, ?_, trivial⟩, fun finished => ?_,
    fun releasing => ?_⟩
  · cases absurd
  · simp only [TrailerGuard.pushEnd, ← List.append_assoc]
    have last := due_append before true []
    rw [closed, ← all]
    rw [List.append_nil] at last
    exact last.symm
  · exact List.mem_append_right _ (List.mem_append_right _ List.mem_cons_self)
  · exact absurd (polling.unfinished.symm.trans finished) Bool.false_ne_true
  · exact absurd (polling.unreleased.symm.trans releasing) Bool.false_ne_true

/-- A call goes on from a poll of the channel. -/
lemma Holds.answered (holds : guard.Holds sent handed) (polling : guard.Polling)
    (ready elapsed : Bool) (asked : (guard.events.pollNext ready).1 = .pending → polled) :
    Keeps sent handed polled ({ guard with events := (guard.events.pollNext ready).2 }.answered
      encodedLen elapsed (guard.events.pollNext ready).1) := by
  have come_back (asked : polled) : Keeps sent handed polled (guard.gathered elapsed) :=
    holds.gathered polling.unfinished (fun _ => polling.gathers) (fun _ => asked) elapsed
  cases ready with
  | false => exact come_back (asked rfl)
  | true =>
    rcases next : guard.events.queue with _ | ⟨item, queue⟩
    · cases closed : guard.events.closed with
      | false =>
        simp only [ReceiverStream.pollNext, next, closed] at asked ⊢
        exact come_back (asked rfl)
      | true =>
        simp only [ReceiverStream.pollNext, next, closed]
        exact (holds.pushEnd polling next closed).gather polling.unfinished polling.unreleased
          (fun none => absurd none (by simp [TrailerGuard.pushEnd])) elapsed
    · simp only [ReceiverStream.pollNext, next]
      exact (holds.push encodedLen polling next).gather polling.unfinished polling.unreleased
        (fun none => absurd none (by simp [TrailerGuard.push])) elapsed

/-- What the task sends is in the channel. -/
lemma Holds.send (holds : guard.Holds sent handed) (opened : guard.events.closed = false)
    (item : Item) : Holds (sent ++ [item]) handed
      { guard with events := ⟨guard.events.queue ++ [item], false⟩ } := by
  obtain ⟨gathering, final, finished, releasing⟩ := holds
  refine ⟨fun not_final => ?_, fun last => ?_, finished, releasing⟩
  · obtain ⟨before, all⟩ := gathering not_final
    exact ⟨before, by rw [← all, List.append_assoc _ _ [item]]⟩
  · obtain ⟨all, item', mem, final⟩ := final last
    rw [opened] at all
    refine ⟨?_, item', mem, final⟩
    rw [due_final ⟨item', (due_open_le sent).subset (all ▸ mem), final⟩ false false]
    exact all

/-- When the channel closes, no more is due than the error. -/
lemma Holds.close (holds : guard.Holds sent handed) :
    Holds sent handed { guard with events := ⟨guard.events.queue, true⟩ } := by
  obtain ⟨gathering, final, finished, releasing⟩ := holds
  refine ⟨gathering, fun last => ?_, finished, releasing⟩
  obtain ⟨all, item, mem, final⟩ := final last
  refine ⟨?_, item, mem, final⟩
  cases closed : guard.events.closed with
  | true =>
    rw [closed] at all
    exact all
  | false =>
    rw [closed] at all
    have same := due_final ⟨item, (due_open_le sent).subset (all ▸ mem), final⟩ true false []
    rw [List.append_nil] at same
    exact all.trans same.symm

/-- Of what is due, what has been handed over is the front. -/
lemma Holds.handed_prefix (holds : guard.Holds sent handed) :
    handed <+: due guard.events.closed sent := by
  cases last : guard.batchFinal with
  | true => exact ⟨_, (holds.final last).1⟩
  | false =>
    obtain ⟨before, all⟩ := holds.gathering last
    rw [← all, due_append before, List.append_assoc]
    exact List.prefix_append _ _

end TrailerGuard

end GrpcEbcdic
