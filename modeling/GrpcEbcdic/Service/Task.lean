import GrpcEbcdic.Service.Metrics
import GrpcEbcdic.Service.Script
import GrpcEbcdic.Support.Interleaved

/-!
# A parse between its awaits

A parse as the runtime drives it: a task that runs from one await to the next, where it waits for a frame
of the request stream or for room for an event in the channel. What it does between two awaits it does at
once. A parse that is decided gives its slot back and is counted before it sends its error. The counters
are shared, so a function of the source that has a reference to them takes and returns them.
-/

namespace GrpcEbcdic
open Rust

variable [F64]

/-- Where a parse goes on once its event has been taken. -/
inductive Next where
  /-- To read the next frame. -/
  | receive (walk : RecordStream)
  /-- To the next record; `last` says that the input is over. -/
  | drain (last : Bool) (walk : RecordStream)
  /-- To the trailer behind the document. -/
  | trailer (status : Pb.ParseStatus)
  | done

/-- A parse at an await, or decided. -/
inductive Task where
  /-- An event has been folded and waits for room in the channel. -/
  | sending (fold : Option DocumentFold) (event : Pb.Event) (next : Next)
  /-- The parse waits for the next frame. -/
  | receiving (fold : Option DocumentFold) (walk : RecordStream)
  | decided (res : Except ParseError Unit)

namespace Task

/-- Fold one event and send it. -/
def send (fold : Option DocumentFold) (event : Pb.Event) (next : Next) : Task :=
  .sending (fold.map (DocumentFold.consume · event)) event next

variable [Unicode]

/-- Send the trailer, preceded by the document when one was asked for. -/
def finish (fold : Option DocumentFold) (status : Pb.ParseStatus) : Task :=
  match fold with
  | none => send none (.status status) .done
  | some fold =>
    let status := { status with warnings := status.warnings ++ fold.truncationWarnings }
    let fold := fold.consume (.status status)
    send none (.document fold.take) (.trailer status)

/-- Emit the next record the walk can produce right now; behind the last, read on or finish. -/
def drain (last : Bool) (walk : RecordStream) (fold : Option DocumentFold) (metrics : Metrics) :
    Task × Metrics :=
  match walk.nextRecord with
  | (.error e, _) => (.decided (.error e), metrics)
  | (.ok (some row), walk) =>
    (send fold (.record row) (.drain last walk), metrics.bump .recordsEmitted)
  | (.ok none, walk) =>
    if last then
      match walk.status with
      | .error e => (.decided (.error e), metrics)
      | .ok status => (finish fold status, metrics)
    else (.receiving fold walk, metrics)

/-- Go on with the next item of the request stream, or with its end. -/
def receive (limits : Limits) (walk : RecordStream) (fold : Option DocumentFold)
    (item : Option Inbound) (metrics : Metrics) : Task × Metrics :=
  match item with
  | none => drain true walk.finishInput fold metrics
  | some item =>
    match nextFrame limits.idleTimeout item with
    | .error (.stream _ text) =>
      (.decided (.error (.internal s!"request stream failed: {text}")), metrics)
    | .error (.idle e) => (.decided (.error e), metrics)
    | .ok request =>
      match request.frame with
      | some (.chunk chunk) =>
        if limits.byteCap < walk.received + chunk.length then
          (.decided (.error (.exhausted
            s!"the input exceeds the {limits.byteCap}-byte cap for this stream")), metrics)
        else drain false (walk.push chunk) fold (metrics.add .bytesReceived chunk.length)
      | some (.options _) =>
        (.decided (.error
          (.invalid "options may only appear in the first frame of a parse stream")), metrics)
      | none => (.receiving fold walk, metrics)

/-- Go on behind an event that has been taken. -/
def taken (fold : Option DocumentFold) (next : Next) (metrics : Metrics) : Task × Metrics :=
  match next with
  | .receive walk => (.receiving fold walk, metrics)
  | .drain last walk => drain last walk fold metrics
  | .trailer status => (send fold (.status status) .done, metrics)
  | .done => (.decided (.ok ()), metrics)

/-- Go on with what became of a send. -/
def sent (idleTimeout : Nat) (outcome : SendOutcome) (fold : Option DocumentFold) (next : Next)
    (metrics : Metrics) : Task × Metrics :=
  match outcome with
  | .taken => taken fold next metrics
  | .closed =>
    (.decided (.error (.internal "the client stopped reading the event stream")), metrics)
  | .stalled =>
    (.decided (.error (.timedOut
      (s!"the client took no event for {idleTimeout} ms; a stalled stream " ++
        "may not hold a parse slot"))), metrics)

omit [Unicode] in
/-- The event a task has folded and not sent yet. -/
def offering : Task → Option Pb.Event
  | .sending _ event _ => some event
  | .receiving _ _ => none
  | .decided _ => none

end Task

/-- What a parse starts from. -/
structure Opening where
  walk : RecordStream
  layoutInfo : Pb.LayoutInfo
  limits : Limits
  fold : Option DocumentFold

/-- What a parse starts from under its options, with their code page and layout. -/
def EbcdicGrpc.openingOf (service : EbcdicGrpc) (options : Pb.ParseOptions) (codec : Codec)
    (layout : Layout) : Opening where
  walk := RecordStream.new layout {
    codec := codec
    stripControlCharacters := options.stripControlCharacters.getD true
    maxRecords := options.maxRecords
    abortOnError := options.abortOnError }
  layoutInfo := layout.toLayoutInfo codec.name
  limits := ⟨service.byteCap options, service.idleTimeout⟩
  fold := if options.emitDocument then some (.new crateVersion) else none

/-- Build what a parse starts from, or the status the call is refused with. -/
def EbcdicGrpc.opening [Unicode] [SerdeJson] (service : EbcdicGrpc) (options : Pb.ParseOptions) :
    Except Status Opening :=
  match Codec.resolve options.encoding with
  | .error e => .error e.toParseError.toStatus
  | .ok codec =>
    match resolve options with
    | .error e => .error e.toStatus
    | .ok layout => .ok (service.openingOf options codec layout)

/-- Read the options frame and build what a parse starts from. -/
def EbcdicGrpc.begin [Unicode] [SerdeJson] (service : EbcdicGrpc) (item : Option Inbound) :
    Except Status Opening :=
  match openingOptions service.idleTimeout item.toList with
  | .error status => .error status
  | .ok options => service.opening options

/-- What a parse that begins starts from. -/
lemma begin_ok [Unicode] [SerdeJson] {service : EbcdicGrpc} {item : Option Inbound}
    {opening : Opening} (ok : service.begin item = .ok opening) :
    ∃ options codec layout,
      openingOptions service.idleTimeout item.toList = .ok options ∧
      Codec.resolve options.encoding = .ok codec ∧
      resolve options = .ok layout ∧
      opening = service.openingOf options codec layout := by
  unfold EbcdicGrpc.begin EbcdicGrpc.opening at ok
  split at ok
  · cases ok
  · next options read =>
    split at ok
    · cases ok
    · next codec found =>
      split at ok
      · cases ok
      · next layout resolved =>
        cases ok
        exact ⟨options, codec, layout, read, found, resolved, rfl⟩

/-- Where a call stands. -/
inductive Phase where
  /-- The call has a slot and waits for its options frame. -/
  | opening
  | parsing (limits : Limits) (task : Task)
  /-- The slot has been given back, and the outcome is to be counted. -/
  | released (res : Except ParseError Unit)
  /-- The failure has been counted. -/
  | failed (e : ParseError)
  /-- The error waits for room in the channel. -/
  | failing (e : ParseError)
  | ended (res : Except ParseError Unit)
  /-- No slot was free. -/
  | rejected (status : Status)
  /-- The call ended before its response stream opened. -/
  | refused (status : Status)
  /-- The client gave the call up before its response stream opened. -/
  | cancelled

/-- Whether a call has a slot. -/
def Phase.holds : Phase → Bool
  | .opening => true
  | .parsing _ _ => true
  | _ => false

/-- What has happened to a call. -/
structure History where
  /-- The items of the request stream so far. -/
  heard : List Inbound
  /-- The chunks that were let in. -/
  letIn : List (List UInt8)
  /-- What became of the sends so far. -/
  outcomes : List SendOutcome
  /-- The events that were to be sent. -/
  offered : List Pb.Event
  /-- The items the channel took. -/
  items : List (Except Status Pb.Event)

/-- One call. -/
structure ParseCall extends History where
  phase : Phase
  /-- The slots that were taken when the call arrived. -/
  found : Nat

/-- What the calls share. -/
structure Shared where
  /-- The free slots of the semaphore. -/
  permits : Nat
  metrics : Metrics

namespace ParseCall

/-- A call arrives: it gets a slot at once, or is rejected. -/
def arrive (service : EbcdicGrpc) (shared : Shared) : ParseCall × Shared :=
  let found := service.maxConcurrentParses - shared.permits
  if shared.permits = 0 then
    ({ phase := .rejected ⟨.resourceExhausted,
         s!"{service.maxConcurrentParses} parses are already running; retry when one finishes"⟩
       found := found, heard := [], letIn := [], outcomes := [], offered := [], items := [] },
      { shared with metrics := shared.metrics.bump .parsesRejected })
  else
    ({ phase := .opening
       found := found, heard := [], letIn := [], outcomes := [], offered := [], items := [] },
      { shared with permits := shared.permits - 1 })

/-- The call with its task one await on. -/
def goOn (call : ParseCall) (limits : Limits) (task : Task) : ParseCall :=
  { call with phase := .parsing limits task, offered := call.offered ++ task.offering.toList }

/-- The call with one send answered. -/
def answer (call : ParseCall) (outcome : SendOutcome) (item : Except Status Pb.Event) : ParseCall :=
  { call with
    outcomes := call.outcomes ++ [outcome]
    items := if outcome = .taken then call.items ++ [item] else call.items }

variable [Unicode] [SerdeJson]

/-- The next item of the request stream, or its end, where the call waits for it. -/
def hear (service : EbcdicGrpc) (item : Option Inbound) (call : ParseCall) (shared : Shared) :
    ParseCall × Shared :=
  let heard := { call with heard := call.heard ++ item.toList }
  match call.phase with
  | .opening =>
    match service.begin item with
    | .error status =>
      ({ heard with phase := .refused status }, { shared with permits := shared.permits + 1 })
    | .ok opening =>
      (heard.goOn opening.limits
          (.send opening.fold (.layoutInfo opening.layoutInfo) (.receive opening.walk)),
        { shared with metrics := shared.metrics.bump .parsesStarted })
  | .parsing limits (.receiving fold walk) =>
    let (task, metrics) := Task.receive limits walk fold item shared.metrics
    (goOn { heard with letIn := call.letIn ++ (admitted limits walk.received item.toList).1 } limits task,
      { shared with metrics := metrics })
  | _ => (call, shared)

omit [SerdeJson] in
/-- What becomes of a send, where the call waits for it. -/
def sent (outcome : SendOutcome) (call : ParseCall) (shared : Shared) : ParseCall × Shared :=
  match call.phase with
  | .parsing limits (.sending fold event next) =>
    let (task, metrics) := Task.sent limits.idleTimeout outcome fold next shared.metrics
    ((call.answer outcome (.ok event)).goOn limits task, { shared with metrics := metrics })
  | .failing e =>
    ({ call.answer outcome (.error e.toStatus) with phase := .ended (.error e) }, shared)
  | _ => (call, shared)

omit [Unicode] [SerdeJson] in
/-- What a decided parse does next: it gives its slot back, is counted, and goes on to its error. -/
def tick (call : ParseCall) (shared : Shared) : ParseCall × Shared :=
  match call.phase with
  | .parsing _ (.decided res) =>
    ({ call with phase := .released res }, { shared with permits := shared.permits + 1 })
  | .released (.ok ()) =>
    ({ call with phase := .ended (.ok ()) },
      { shared with metrics := shared.metrics.bump .parsesCompleted })
  | .released (.error e) =>
    ({ call with phase := .failed e }, { shared with metrics := shared.metrics.bump .parsesFailed })
  | .failed e =>
    ({ call with phase := .failing e },
      if e.code = .resourceExhausted then
        { shared with metrics := shared.metrics.bump .byteCapHits }
      else shared)
  | _ => (call, shared)

omit [Unicode] [SerdeJson] in
/-- The client gives the call up before its response stream opens, and the slot is given back. -/
def cancel (call : ParseCall) (shared : Shared) : ParseCall × Shared :=
  match call.phase with
  | .opening =>
    ({ call with phase := .cancelled }, { shared with permits := shared.permits + 1 })
  | _ => (call, shared)

end ParseCall

/-- What can happen to a call. -/
inductive Happening where
  | hear (item : Option Inbound)
  | sent (outcome : SendOutcome)
  | tick
  | cancel

variable [Unicode] [SerdeJson]

/-- The server: calls that share the slots and the counters. -/
def EbcdicGrpc.server (service : EbcdicGrpc) : Interleaved.System Shared ParseCall Happening where
  enter := ParseCall.arrive service
  act
    | .hear item => ParseCall.hear service item
    | .sent outcome => ParseCall.sent outcome
    | .tick => ParseCall.tick
    | .cancel => ParseCall.cancel

/-- The server after some events, in any order. -/
def EbcdicGrpc.serve (service : EbcdicGrpc) (events : List (Interleaved.Event Happening)) :
    Interleaved.State Shared ParseCall :=
  service.server.after ⟨service.maxConcurrentParses, .new⟩ events

/-- What an act makes of a call and of what it shares. -/
inductive Moves (service : EbcdicGrpc) (call : ParseCall) (shared : Shared) :
    ParseCall × Shared → Prop where
  /-- The call does not wait for this. -/
  | stay :
    Moves service call shared (call, shared)
  | refuse {item status} :
    call.phase = .opening →
    service.begin item = .error status →
    Moves service call shared
      ({ call with heard := call.heard ++ item.toList, phase := .refused status },
        { shared with permits := shared.permits + 1 })
  | start {item opening} :
    call.phase = .opening →
    service.begin item = .ok opening →
    Moves service call shared
      (ParseCall.goOn { call with heard := call.heard ++ item.toList } opening.limits
          (.send opening.fold (.layoutInfo opening.layoutInfo) (.receive opening.walk)),
        { shared with metrics := shared.metrics.bump .parsesStarted })
  | hear {limits fold walk} (item) :
    call.phase = .parsing limits (.receiving fold walk) →
    Moves service call shared
      (ParseCall.goOn
          { call with
            heard := call.heard ++ item.toList
            letIn := call.letIn ++ (admitted limits walk.received item.toList).1 }
          limits (Task.receive limits walk fold item shared.metrics).1,
        { shared with metrics := (Task.receive limits walk fold item shared.metrics).2 })
  | sent {limits fold event next} (outcome) :
    call.phase = .parsing limits (.sending fold event next) →
    Moves service call shared
      ((call.answer outcome (.ok event)).goOn limits
          (Task.sent limits.idleTimeout outcome fold next shared.metrics).1,
        { shared with
          metrics := (Task.sent limits.idleTimeout outcome fold next shared.metrics).2 })
  | told {e} (outcome) :
    call.phase = .failing e →
    Moves service call shared
      ({ call.answer outcome (.error e.toStatus) with phase := .ended (.error e) }, shared)
  | release {limits res} :
    call.phase = .parsing limits (.decided res) →
    Moves service call shared
      ({ call with phase := .released res }, { shared with permits := shared.permits + 1 })
  | complete :
    call.phase = .released (.ok ()) →
    Moves service call shared
      ({ call with phase := .ended (.ok ()) },
        { shared with metrics := shared.metrics.bump .parsesCompleted })
  | fail {e} :
    call.phase = .released (.error e) →
    Moves service call shared
      ({ call with phase := .failed e },
        { shared with metrics := shared.metrics.bump .parsesFailed })
  | charge {e} :
    call.phase = .failed e →
    Moves service call shared
      ({ call with phase := .failing e },
        if e.code = .resourceExhausted then
          { shared with metrics := shared.metrics.bump .byteCapHits }
        else shared)
  | cancel :
    call.phase = .opening →
    Moves service call shared
      ({ call with phase := .cancelled }, { shared with permits := shared.permits + 1 })

/-- Every act is one of these. -/
lemma act_moves (service : EbcdicGrpc) (happening : Happening) (call : ParseCall)
    (shared : Shared) : Moves service call shared (service.server.act happening call shared) := by
  cases happening with
  | hear item =>
    show Moves service call shared (ParseCall.hear service item call shared)
    unfold ParseCall.hear
    split
    · next phase =>
      split
      · next refused => exact .refuse phase refused
      · next opened => exact .start phase opened
    · next phase => exact .hear item phase
    · exact .stay
  | sent outcome =>
    show Moves service call shared (ParseCall.sent outcome call shared)
    unfold ParseCall.sent
    split
    · next phase => exact .sent outcome phase
    · next phase => exact .told outcome phase
    · exact .stay
  | tick =>
    show Moves service call shared (ParseCall.tick call shared)
    unfold ParseCall.tick
    split
    · next phase => exact .release phase
    · next phase => exact .complete phase
    · next phase => exact .fail phase
    · next phase => exact .charge phase
    · exact .stay
  | cancel =>
    show Moves service call shared (ParseCall.cancel call shared)
    unfold ParseCall.cancel
    split
    · next phase => exact .cancel phase
    · exact .stay

end GrpcEbcdic
