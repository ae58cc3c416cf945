import GrpcEbcdic.Fold.Fold
import GrpcEbcdic.Stream.Walk
import GrpcEbcdic.Support.Emit

/-!
# The parse service

One parse from its options frame to its trailer: read a frame, decode whatever records that frame
completed, send them, repeat. What the environment decides is given: the items of the request stream,
and what becomes of each send. Every event goes out through the sink, which folds it first when a
document was asked for; a method that takes `&mut self` returns the sink it leaves, also when it fails.
Durations are in milliseconds.
-/

namespace GrpcEbcdic
open Rust Emit

/-- Default byte cap on one parse, in mebibytes. -/
def defaultMaxDocumentMib : Nat := 512

/-- Default number of parse streams admitted at once. -/
def defaultMaxConcurrentParses : Nat := 64

/-- Default longest wait for the next inbound frame and for the client to take the next event. -/
def defaultIdleTimeoutMillis : Nat := 30 * 1000

/-- The version of the crate. -/
def crateVersion : String := "0.1.0"

/-- The service implementation. -/
structure EbcdicGrpc where
  maxDocumentBytes : Nat
  idleTimeout : Nat
  maxConcurrentParses : Nat

namespace EbcdicGrpc

/-- The service with the fleet defaults. -/
def new : EbcdicGrpc where
  maxDocumentBytes := defaultMaxDocumentMib * 2 ^ 20
  idleTimeout := defaultIdleTimeoutMillis
  maxConcurrentParses := defaultMaxConcurrentParses

/-- Resolve the byte cap for one request: it may lower the operator's cap but never raise it. -/
def byteCap (service : EbcdicGrpc) (options : Pb.ParseOptions) : Nat :=
  if options.maxDocumentMib = 0 then service.maxDocumentBytes
  else min (options.maxDocumentMib * 2 ^ 20) service.maxDocumentBytes

end EbcdicGrpc

/-- What becomes of a send on the event channel. -/
inductive SendOutcome where
  | taken
  /-- The receiver is gone. -/
  | closed
  /-- The client takes nothing for the idle timeout. -/
  | stalled
deriving DecidableEq

/-- What comes next on the request stream; its end is the end of the list. -/
inductive Inbound where
  | message (request : Pb.ParseEbcdicRequest)
  /-- The stream fails with a status, and the text it displays as. -/
  | failed (status : Status) (text : String)
  /-- Nothing arrives within the idle timeout. -/
  | idle
deriving DecidableEq

/-- The per-stream bounds a parse enforces. -/
structure Limits where
  byteCap : Nat
  idleTimeout : Nat

/-- Why no frame was read. -/
inductive NextFrame where
  | stream (status : Status) (text : String)
  | idle (e : ParseError)

/-- The next inbound frame. -/
def nextFrame (idleTimeout : Nat) : Inbound → Except NextFrame Pb.ParseEbcdicRequest
  | .message request => .ok request
  | .failed status text => .error (.stream status text)
  | .idle =>
    .error (.idle (.timedOut (s!"no request frame arrived for {idleTimeout} ms; an idle stream " ++
      "may not hold a parse slot")))

variable [F64]

/-- The sending half of the event channel: what becomes of each send, and what has been taken. -/
structure Sender where
  client : Nat → SendOutcome
  attempts : Nat
  items : List (Except Status Pb.Event)

/-- Send one item. -/
def Sender.send (tx : Sender) (item : Except Status Pb.Event) : SendOutcome × Sender :=
  match tx.client tx.attempts with
  | .taken => (.taken, { tx with attempts := tx.attempts + 1, items := tx.items ++ [item] })
  | outcome => (outcome, { tx with attempts := tx.attempts + 1 })

/-- The outbound half of one parse: the channel, and the fold when the request asked for a document. -/
structure EventSink where
  tx : Sender
  fold : Option DocumentFold
  idleTimeout : Nat

namespace EventSink

/-- Fold one event and send it. -/
def send (sink : EventSink) (event : Pb.Event) : Except ParseError Unit × EventSink :=
  let sink := { sink with fold := sink.fold.map (DocumentFold.consume · event) }
  match sink.tx.send (.ok event) with
  | (.taken, tx) => (.ok (), { sink with tx := tx })
  | (.closed, tx) =>
    (.error (.internal "the client stopped reading the event stream"), { sink with tx := tx })
  | (.stalled, tx) =>
    (.error (.timedOut (s!"the client took no event for {sink.idleTimeout} ms; a stalled stream " ++
      "may not hold a parse slot")), { sink with tx := tx })

/-- Send the trailer, preceded by the document when one was asked for. -/
def finish [Unicode] (sink : EventSink) (status : Pb.ParseStatus) :
    Except ParseError Unit × EventSink :=
  match sink.fold with
  | none => sink.send (.status status)
  | some fold =>
    let sink := { sink with fold := none }
    let status := { status with warnings := status.warnings ++ fold.truncationWarnings }
    let fold := fold.consume (.status status)
    andThen (sink.send (.document fold.take)) fun _ sink => sink.send (.status status)

end EventSink

variable [Unicode]

/-- Emit the records the walk can produce right now, at most `fuel` of them. -/
def drainFor : Nat → RecordStream → EventSink → Except ParseError RecordStream × EventSink
  | 0, walk, sink => (.ok walk, sink)
  | fuel + 1, walk, sink =>
    match walk.nextRecord with
    | (.error e, _) => (.error e, sink)
    | (.ok none, walk) => (.ok walk, sink)
    | (.ok (some row), walk) =>
      andThen (sink.send (.record row)) fun _ sink => drainFor fuel walk sink

/-- Emit every record the walk can produce right now. -/
def drain (walk : RecordStream) (sink : EventSink) : Except ParseError RecordStream × EventSink :=
  drainFor (walk.pending.length + 1) walk sink

/-- Read the data frames up to the end of the request stream. -/
def receive (limits : Limits) (walk : RecordStream) :
    List Inbound → EventSink → Except ParseError RecordStream × EventSink
  | [], sink => (.ok walk, sink)
  | item :: inbound, sink =>
    match nextFrame limits.idleTimeout item with
    | .error (.stream _ text) => (.error (.internal s!"request stream failed: {text}"), sink)
    | .error (.idle e) => (.error e, sink)
    | .ok request =>
      match request.frame with
      | some (.chunk chunk) =>
        if limits.byteCap < walk.received + chunk.length then
          (.error (.exhausted
            s!"the input exceeds the {limits.byteCap}-byte cap for this stream"), sink)
        else
          andThen (drain (walk.push chunk) sink) fun walk sink => receive limits walk inbound sink
      | some (.options _) =>
        (.error (.invalid "options may only appear in the first frame of a parse stream"), sink)
      | none => receive limits walk inbound sink

/-- Drive one parse from the first data frame to the trailer. -/
def runParse (walk : RecordStream) (layoutInfo : Pb.LayoutInfo) (limits : Limits)
    (inbound : List Inbound) (sink : EventSink) : Except ParseError Unit × EventSink :=
  andThen (sink.send (.layoutInfo layoutInfo)) fun _ sink =>
  andThen (receive limits walk inbound sink) fun walk sink =>
  andThen (drain walk.finishInput sink) fun walk sink =>
  match walk.status with
  | .error e => (.error e, sink)
  | .ok status => sink.finish status

/-- The options a request stream opens with. -/
def openingOptions (idleTimeout : Nat) : List Inbound → Except Status Pb.ParseOptions
  | [] => .error ⟨.invalidArgument, "the request stream ended before its options frame"⟩
  | item :: _ =>
    match nextFrame idleTimeout item with
    | .error (.stream status _) => .error status
    | .error (.idle e) => .error e.toStatus
    | .ok request =>
      match request.frame with
      | some (.options options) => .ok options
      | some (.chunk _) =>
        .error ⟨.invalidArgument, "the first frame must carry options, not data: the server " ++
          "cannot decode bytes before it has the layout"⟩
      | none => .error ⟨.invalidArgument, "the first frame is empty"⟩

variable [SerdeJson]

/-- The items on the event channel of one parse, while `running` others run, or the status the call is
refused with. -/
def EbcdicGrpc.parseEbcdic (service : EbcdicGrpc) (running : Nat) (client : Nat → SendOutcome)
    (inbound : List Inbound) : Except Status (List (Except Status Pb.Event)) :=
  if service.maxConcurrentParses ≤ running then
    .error ⟨.resourceExhausted,
      s!"{service.maxConcurrentParses} parses are already running; retry when one finishes"⟩
  else
    match openingOptions service.idleTimeout inbound with
    | .error status => .error status
    | .ok options =>
      match Codec.resolve options.encoding with
      | .error e => .error e.toParseError.toStatus
      | .ok codec =>
        match resolve options with
        | .error e => .error e.toStatus
        | .ok layout =>
          let decodeOptions := {
            codec := codec
            stripControlCharacters := options.stripControlCharacters.getD true
            maxRecords := options.maxRecords
            abortOnError := options.abortOnError }
          let limits := ⟨service.byteCap options, service.idleTimeout⟩
          let sink := {
            tx := ⟨client, 0, []⟩
            fold := if options.emitDocument then some (.new crateVersion) else none
            idleTimeout := service.idleTimeout }
          match runParse (RecordStream.new layout decodeOptions)
              (layout.toLayoutInfo codec.name) limits inbound.tail sink with
          | (.ok (), sink) => .ok sink.tx.items
          | (.error e, sink) => .ok (sink.tx.send (.error e.toStatus)).2.items

end GrpcEbcdic
