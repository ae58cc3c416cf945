import GrpcEbcdic.Service.Backpressure
import GrpcEbcdic.Service.Framing
import GrpcEbcdic.Stream.Faults

/-!
# Errors blame who caused them

The code of the error a parse ends with says whose fault it is: the client that is gone or whose request
stream failed, the one that neither sent nor read, the upload that is too large, or the request itself.
-/

namespace GrpcEbcdic
open Rust Emit Interleaved

/-- Why a request stream is not read to its end. -/
inductive Stops (limits : Limits) (received : Nat) (inbound : List Inbound) : ParseError → Prop where
  | failed {status text} :
    .failed status text ∈ inbound →
    Stops limits received inbound (.internal s!"request stream failed: {text}")
  | idle {message} :
    .idle ∈ inbound →
    Stops limits received inbound (.timedOut message)
  | options {options message} :
    .message ⟨some (.options options)⟩ ∈ inbound →
    Stops limits received inbound (.invalid message)
  | cap {before chunk after message} :
    inbound = before ++ .message ⟨some (.chunk chunk)⟩ :: after →
    EndsCleanly before →
    limits.byteCap < received + totalBytes (chunksOf before) + chunk.length →
    Stops limits received inbound (.exhausted message)

/-- What stops behind a frame stops the whole. -/
lemma Stops.cons {limits : Limits} {received : Nat} {inbound : List Inbound} {e : ParseError}
    {item : Inbound} (readable : item.Readable)
    (stops : Stops limits (received + totalBytes (chunksOf [item])) inbound e) :
    Stops limits received (item :: inbound) e := by
  cases stops with
  | failed mem => exact .failed (List.mem_cons_of_mem _ mem)
  | idle mem => exact .idle (List.mem_cons_of_mem _ mem)
  | options mem => exact .options (List.mem_cons_of_mem _ mem)
  | @cap before chunk after _ eq clean exceeds =>
    have all : chunksOf (item :: before) = chunksOf [item] ++ chunksOf before :=
      List.filterMap_append (l := [item])
    have eq' : item :: inbound = (item :: before) ++ .message ⟨some (.chunk chunk)⟩ :: after :=
      congrArg _ eq
    apply Stops.cap eq' (List.forall_mem_cons.mpr ⟨readable, clean⟩)
    rw [all, totalBytes, List.map_append, List.sum_append]
    rw [totalBytes, totalBytes] at exceeds
    omega

/-- What is not read to its end has a reason. -/
lemma admitted_stops {limits : Limits} {received : Nat} {inbound : List Inbound} {e : ParseError}
    (stopped : (admitted limits received inbound).2 = .error e) : Stops limits received inbound e := by
  induction inbound generalizing received with
  | nil => cases stopped
  | cons item inbound ih =>
    rcases item with ⟨_ | options | chunk⟩ | ⟨status, text⟩ | _
    · have readable : Inbound.Readable (.message ⟨none⟩) := fun _ => by simp
      exact .cons readable (ih stopped)
    · cases stopped
      exact .options List.mem_cons_self
    · unfold admitted at stopped
      dsimp only [nextFrame] at stopped
      split_ifs at stopped with exceeds
      · have eq : Inbound.message ⟨some (.chunk chunk)⟩ :: inbound
            = [] ++ .message ⟨some (.chunk chunk)⟩ :: inbound := rfl
        cases stopped
        exact .cap eq (fun _ mem => absurd mem List.not_mem_nil) exceeds
      · have readable : Inbound.Readable (.message ⟨some (.chunk chunk)⟩) := fun _ => by simp
        exact .cons readable (ih stopped)
    · cases stopped
      exact .failed List.mem_cons_self
    · cases stopped
      exact .idle List.mem_cons_self

/-- Why a send fails. -/
inductive Refuses (client : Nat → SendOutcome) : ParseError → Prop where
  | closed {k message} :
    client k = .closed →
    Refuses client (.internal message)
  | stalled {k message} :
    client k = .stalled →
    Refuses client (.timedOut message)

section Sends

variable [F64]

namespace EventSink

lemma send_client (sink : EventSink) (event : Pb.Event) :
    (sink.send event).2.tx.client = sink.tx.client := by
  unfold send Sender.send
  dsimp only
  rcases sink.tx.client sink.tx.attempts with _ | _ | _ <;> rfl

lemma send_refuses {sink sink' : EventSink} {event : Pb.Event} {e : ParseError}
    (error : sink.send event = (.error e, sink')) : Refuses sink.tx.client e := by
  unfold send Sender.send at error
  dsimp only at error
  rcases answer : sink.tx.client sink.tx.attempts with _ | _ | _
  · rw [answer] at error
    cases error
  · rw [answer] at error
    cases error
    exact .closed answer
  · rw [answer] at error
    cases error
    exact .stalled answer

/-- A script ends as it says, or where a send fails. -/
lemma play_refuses {α : Type} {sink sink' : EventSink} {events : List Pb.Event}
    {res : Except ParseError α} {res' : Except ParseError α}
    (played : sink.play events res = (res', sink')) :
    sink'.tx.client = sink.tx.client ∧
      (res' = res ∨ ∃ e, res' = .error e ∧ Refuses sink.tx.client e) := by
  induction events generalizing sink with
  | nil =>
    cases played
    exact ⟨rfl, .inl rfl⟩
  | cons event events ih =>
    rw [EventSink.play, play_cons] at played
    have client := sink.send_client event
    rcases sent : sink.send event with ⟨e | _, sink₁⟩
    · rw [sent] at played client
      cases played
      exact ⟨client, .inr ⟨e, rfl, send_refuses sent⟩⟩
    · rw [sent] at played client
      obtain ⟨client', reason⟩ := ih played
      change sink₁.tx.client = _ at client
      rw [client] at client' reason
      exact ⟨client', reason⟩

end EventSink

variable [Unicode] {layout : Layout}

omit [F64] in
/-- What a parse has to say ends in an error for the request's sake, or as its request stream does. -/
lemma recital_reason (v : layout.Valid) {options : DecodeOptions} {limits : Limits}
    {inbound : List Inbound} {e : ParseError}
    (failed : (recital limits (RecordStream.new layout options) inbound).2 = .error e) :
    e.IsFault ∨ Stops limits 0 inbound e := by
  rw [recital_eq v] at failed
  unfold wholeRecital at failed
  dsimp only at failed
  rcases halt : (batch v options (admitted limits 0 inbound).1.flatten).2 with ⟨σ, rest⟩ | σ | e'
  · rw [halt] at failed
    rcases stop : (admitted limits 0 inbound).2 with e' | _
    · rw [stop] at failed
      cases failed
      exact .inr (admitted_stops stop)
    · rw [stop] at failed
      exact .inl (RecordStream.status_faults _ e failed)
  · rw [halt] at failed
    rcases stop : (admitted limits 0 inbound).2 with e' | _
    · rw [stop] at failed
      cases failed
      exact .inr (admitted_stops stop)
    · rw [stop] at failed
      exact .inl (RecordStream.status_faults _ e failed)
  · rw [halt] at failed
    cases failed
    exact .inl (batch_fault v halt)

/-- A parse fails where a send does, or as what it has to say ends. -/
lemma runParse_reason {walk : RecordStream} {layoutInfo : Pb.LayoutInfo} {limits : Limits}
    {inbound : List Inbound} {sink : EventSink} {e : ParseError}
    (failed : (runParse walk layoutInfo limits inbound sink).1 = .error e) :
    Refuses sink.tx.client e ∨ (recital limits walk inbound).2 = .error e := by
  rw [runParse_eq] at failed
  rcases played : sink.play (openingEvents layoutInfo (recital limits walk inbound).1)
    (recital limits walk inbound).2 with ⟨e' | status, sink'⟩
  · rw [played] at failed
    cases failed
    obtain ⟨_, same | ⟨_, ⟨⟩, refuses⟩⟩ := EventSink.play_refuses played
    · exact .inr same.symm
    · exact .inl refuses
  · obtain ⟨client, _⟩ := EventSink.play_refuses played
    rw [played, andThen_ok, finish_eq] at failed
    rcases closes : ({ sink' with fold := none } : EventSink).play
      (closingEvents sink'.fold status) (.ok ()) with ⟨res, sink''⟩
    rw [closes] at failed
    obtain ⟨_, same | ⟨e', eq, refuses⟩⟩ := EventSink.play_refuses closes
    · cases failed.symm.trans same
    · cases failed.symm.trans eq
      rw [← client]
      exact .inl refuses

variable [SerdeJson]

/-- The error a call has failed with. -/
def Phase.error : Phase → Option ParseError
  | .parsing _ (.decided (.error e)) => some e
  | .released (.error e) => some e
  | .failed e => some e
  | .failing e => some e
  | .ended (.error e) => some e
  | _ => none

/-- What an error says of the call that fails with it. -/
def Connection.Blames (service : EbcdicGrpc) (conn : Connection) : ParseError → Prop
  | .internal _ => conn.reading = false ∨ ∃ status text, .failed status text ∈ conn.call.heard
  | .timedOut _ => .stalled ∈ conn.call.outcomes ∨ .idle ∈ conn.call.heard
  | .exhausted _ => ∃ options before chunk after,
      conn.call.heard = .message ⟨some (.options options)⟩ ::
        (before ++ .message ⟨some (.chunk chunk)⟩ :: after) ∧
      EndsCleanly before ∧ service.byteCap options < totalBytes (chunksOf before) + chunk.length
  | e => ∃ first more opening, conn.call.heard = first :: more ∧
      service.begin (some first) = .ok opening ∧
      (recital opening.limits opening.walk more).2 = .error e

/-- A call that has failed did so as the parse that runs alone. -/
lemma Phase.Keeps.failed {service : EbcdicGrpc} {call : ParseCall}
    (keeps : call.phase.Keeps service call.toHistory) {e : ParseError}
    (error : call.phase.error = some e) :
    Started service call.toHistory fun opening more => ∀ client, AnswersAs client call.outcomes →
      (runParse opening.walk opening.layoutInfo opening.limits more
        ⟨⟨client, 0, []⟩, opening.fold, opening.limits.idleTimeout⟩).1 = .error e := by
  have decided (started : Started service call.toHistory fun opening more =>
      Task.Keeps opening more call.toHistory (.decided (.error e))) :
      Started service call.toHistory fun opening more => ∀ client, AnswersAs client call.outcomes →
        (runParse opening.walk opening.layoutInfo opening.limits more
          ⟨⟨client, 0, []⟩, opening.fold, opening.limits.idleTimeout⟩).1 = .error e := by
    obtain ⟨first, more, opening, heard, ok, keeps⟩ := started
    refine ⟨first, more, opening, heard, ok, fun client answers => ?_⟩
    have ran := keeps [] client rfl answers
    rw [List.append_nil] at ran
    exact (congrArg Prod.fst ran).symm
  obtain ⟨past, phase, found⟩ := call
  cases phase with
  | parsing limits task =>
    obtain ⟨first, more, opening, heard, ok, _, keeps⟩ := keeps
    rcases task with _ | _ | ⟨e' | _⟩
    · cases error
    · cases error
    · cases error
      exact decided ⟨first, more, opening, heard, ok, keeps⟩
    · cases error
  | released res =>
    cases res with
    | error e' => cases error; exact decided keeps
    | ok done => cases error
  | failed e' => cases error; exact decided keeps
  | failing e' => cases error; exact decided keeps
  | ended res =>
    cases res with
    | error e' =>
      cases error
      obtain ⟨first, more, opening, heard, ok, told⟩ := keeps
      exact ⟨first, more, opening, heard, ok, fun client answers => (told client answers).1⟩
    | ok done => cases error
  | _ => cases error

omit [SerdeJson] in
/-- A call whose send is answered remembers the answer. -/
lemma ParseCall.sent_outcomes {call : ParseCall} {item : Except Status Pb.Event}
    (waits : call.phase.waiting = some item) (outcome : SendOutcome) (shared : Shared) :
    (ParseCall.sent outcome call shared).1.outcomes = call.outcomes ++ [outcome] := by
  obtain ⟨past, phase, found⟩ := call
  cases phase with
  | parsing limits task =>
    cases task with
    | sending fold event next => rfl
    | receiving fold walk => cases waits
    | decided res => cases waits
  | failing e => rfl
  | _ => cases waits

/-- A send finds the channel closed only when the client is gone. -/
lemma connect_closed (encodedLen : Pb.ParseEbcdicResponse → Nat) (service : EbcdicGrpc)
    (events : List (Event Signal)) :
    ∀ conn ∈ (service.connect encodedLen events).components,
      .closed ∈ conn.call.outcomes → conn.reading = false := by
  have enter (shared : Shared) : (Connection.arrive service shared).1.call.outcomes = [] := by
    unfold Connection.arrive ParseCall.arrive
    dsimp only
    split_ifs
    · rfl
    · rfl
  refine System.after_component
    (P := fun conn : Connection => .closed ∈ conn.call.outcomes → conn.reading = false)
    (Q := fun _ => True) (fun _ => trivial) (fun shared _ mem => ?_) ?_ events
  · change .closed ∈ (Connection.arrive service shared).1.call.outcomes at mem
    rw [enter] at mem
    cases mem
  · intro signal conn shared _ before
    cases signal with
    | hear item =>
      have same : (conn.call.hear service item shared).1.outcomes = conn.call.outcomes := by
        unfold ParseCall.hear
        split
        · split <;> rfl
        · rfl
        · rfl
      exact fun mem => before (same ▸ mem)
    | send elapsed =>
      show .closed ∈ (conn.send encodedLen elapsed shared).1.call.outcomes →
        (conn.send encodedLen elapsed shared).1.reading = false
      rcases conn.send_call encodedLen elapsed shared with same | ⟨item, outcome, waits, comes, sent⟩
      · rw [same]
        exact before
      · rw [sent]
        intro mem
        change .closed ∈ (ParseCall.sent outcome conn.call shared).1.outcomes at mem
        rw [ParseCall.sent_outcomes waits] at mem
        rcases List.mem_append.mp mem with mem | mem
        · exact before mem
        · obtain rfl := List.mem_singleton.mp mem
          unfold Connection.outcome at comes
          split_ifs at comes with gone
          · exact gone
          · cases comes
          · cases comes
    | tick =>
      show .closed ∈ (conn.tick encodedLen shared).1.call.outcomes →
        (conn.tick encodedLen shared).1.reading = false
      rcases conn.tick_call encodedLen shared with ⟨res, phase, closed⟩ | ticked
      · rw [closed]
        exact before
      · have same : (conn.call.tick shared).1.outcomes = conn.call.outcomes := by
          unfold ParseCall.tick
          split <;> rfl
        rw [ticked]
        exact fun mem => before (same ▸ mem)
    | hangUp => exact fun _ => rfl
    | poll elapsed =>
      show .closed ∈ (conn.transport encodedLen (.poll elapsed)).call.outcomes →
        (conn.transport encodedLen (.poll elapsed)).reading = false
      unfold Connection.transport
      split_ifs
      · exact before
      · exact before
    | resume ready elapsed =>
      show .closed ∈ (conn.transport encodedLen (.resume ready elapsed)).call.outcomes →
        (conn.transport encodedLen (.resume ready elapsed)).reading = false
      unfold Connection.transport
      split_ifs
      · exact before
      · exact before

/-- A parse begins with its options. -/
lemma begin_options {service : EbcdicGrpc} {first : Inbound} {opening : Opening}
    (ok : service.begin (some first) = .ok opening) :
    ∃ options, first = .message ⟨some (.options options)⟩ ∧ service.opening options = .ok opening := by
  rcases first with ⟨_ | options | chunk⟩ | ⟨status, text⟩ | _
  · cases ok
  · exact ⟨options, rfl, ok⟩
  · cases ok
  · cases ok
  · cases ok

end Sends

/-- Over any interleaving of calls, the code of an error tells its cause: `INTERNAL` that the client is gone
or its request stream failed, `DEADLINE_EXCEEDED` that it did not read or did not send, `RESOURCE_EXHAUSTED`
that it sent more than its cap, and any other that the parse that runs alone fails so on what it sent. -/
theorem errors_blame [F64] [Unicode] [SerdeJson] (encodedLen : Pb.ParseEbcdicResponse → Nat)
    (service : EbcdicGrpc) (events : List (Event Signal)) :
    ∀ conn ∈ (service.connect encodedLen events).components, ∀ e,
      conn.call.phase.error = some e → conn.Blames service e := by
  intro conn mem e error
  have gone := connect_closed encodedLen service events conn mem
  obtain ⟨events', call_mem⟩ := connect_call encodedLen service events mem
  obtain ⟨_, keeps, _⟩ := serve_keeps service events' conn.call call_mem
  obtain ⟨first, more, opening, heard, ok, failed⟩ := keeps.failed error
  have happened {k : Nat} {outcome : SendOutcome} (answer : conn.call.outcomes.getD k .taken = outcome)
      (refuses : outcome ≠ .taken) : outcome ∈ conn.call.outcomes := by
    rw [List.getD_eq_getElem?_getD] at answer
    rcases at_k : conn.call.outcomes[k]? with _ | outcome'
    · rw [at_k] at answer
      exact absurd answer.symm refuses
    · rw [at_k] at answer
      cases answer
      exact List.mem_of_getElem? at_k
  -- Sends that have not happened are taken, so a refusal is one that has.
  rcases runParse_reason (failed _ (answers_taken conn.call.outcomes)) with refuses | said
  · cases refuses with
    | closed answer => exact .inl (gone (happened answer nofun))
    | stalled answer => exact .inl (happened answer nofun)
  · obtain ⟨options, rfl, opens⟩ := begin_options ok
    obtain ⟨layout, decodeOptions, valid, walk, limits⟩ := opening_ok opens
    have own : ∃ first more opening, conn.call.heard = first :: more ∧
        service.begin (some first) = .ok opening ∧
        (recital opening.limits opening.walk more).2 = .error e :=
      ⟨_, more, opening, heard, ok, said⟩
    rw [walk] at said
    rcases recital_reason valid said with fault | stops
    · obtain ⟨message, rfl⟩ | ⟨message, rfl⟩ := fault
      · exact own
      · exact own
    · cases stops with
      | failed mem => exact .inr ⟨_, _, heard ▸ List.mem_cons_of_mem _ mem⟩
      | idle mem => exact .inr (heard ▸ List.mem_cons_of_mem _ mem)
      | options mem => exact own
      | @cap before chunk after _ eq clean exceeds =>
        rw [limits, Nat.zero_add] at exceeds
        exact ⟨options, before, chunk, after, eq ▸ heard, clean, exceeds⟩

section Sample

attribute [local instance] asciiUnicode noJson coreF64

/-- A client that falls silent behind its options. -/
theorem errors_blame_sample :
    ∃ conn e, (sampleService.connect (fun _ => 2)
        (sampleEvents ++ [.act 0 (.send false), .act 0 (.hear (some .idle))])).components[0]? = some conn ∧
      conn.call.phase.error = some e ∧ conn.Blames sampleService e := by
  refine ⟨_, _, rfl, rfl, ?_⟩
  apply errors_blame (fun _ => 2) sampleService
    (sampleEvents ++ [.act 0 (.send false), .act 0 (.hear (some .idle))])
  · exact List.mem_of_getElem? (i := 0) rfl
  · rfl

end Sample

end GrpcEbcdic
