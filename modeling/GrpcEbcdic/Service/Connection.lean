import GrpcEbcdic.Service.Delivery
import GrpcEbcdic.Service.Isolation

/-!
# A call and its response stream

A parse task, the channel its events go through, the guard that takes them out, and the transport that
polls the guard. What becomes of a send is no longer given: the channel has room for some events, and its
receiver goes with the response stream. What a call does here is what it does by itself
(`connections_refine`), so what holds of calls under every client holds of these.
-/

namespace GrpcEbcdic
open Rust Interleaved

/-- Events buffered between the decoder and the wire. -/
def eventChannelCapacity : Nat := 32

section Connections

variable [F64]

/-- What goes through the channel, as the response stream carries it. -/
def toItem (item : Except Status Pb.Event) : Item := item.map fun event => ⟨some event⟩

/-- What a call waits to send. -/
def Phase.waiting : Phase → Option (Except Status Pb.Event)
  | .parsing _ (.sending _ event _) => some (.ok event)
  | .failing e => some (.error e.toStatus)
  | _ => none

/-- Whether the response stream of a call has opened. -/
def Phase.streams : Phase → Bool
  | .opening => false
  | .rejected _ => false
  | .refused _ => false
  | .cancelled => false
  | _ => true

/-- A call and its response stream. -/
structure Connection where
  call : ParseCall
  response : GuardRun
  /-- Whether the client still has the response stream, or waits for it. -/
  reading : Bool

/-- What can happen to a connection. -/
inductive Signal where
  /-- The next item of the request stream, or its end. -/
  | hear (item : Option Inbound)
  /-- The task polls its send, whose timer may have elapsed. -/
  | send (elapsed : Bool)
  /-- The task goes on by itself. -/
  | tick
  /-- The client gives the call up. -/
  | hangUp
  /-- The transport polls the response stream, or goes on with its poll. -/
  | poll (elapsed : Bool)
  | resume (ready elapsed : Bool)

namespace Connection

variable (encodedLen : Pb.ParseEbcdicResponse → Nat)

/-- A call arrives. -/
def arrive (service : EbcdicGrpc) (shared : Shared) : Connection × Shared :=
  let (call, shared) := ParseCall.arrive service shared
  (⟨call, .start, true⟩, shared)

/-- What becomes of the send a call waits for: nothing yet while the channel is full and the timer runs. -/
def outcome (conn : Connection) (elapsed : Bool) : Option SendOutcome :=
  if conn.reading = false then some .closed
  else if conn.response.guard.events.queue.length < eventChannelCapacity then some .taken
  else if elapsed then some .stalled else none

/-- The response stream with an item sent on its channel, if it was taken. -/
def offer (conn : Connection) (outcome : SendOutcome) (item : Except Status Pb.Event) : GuardRun :=
  if outcome = .taken then conn.response.step encodedLen (.send (toItem item)) else conn.response

/-- The task polls its send. -/
def send [Unicode] (elapsed : Bool) (conn : Connection) (shared : Shared) : Connection × Shared :=
  match conn.call.phase.waiting, conn.outcome elapsed with
  | some item, some outcome =>
    let (call, shared) := ParseCall.sent outcome conn.call shared
    (⟨call, conn.offer encodedLen outcome item, conn.reading⟩, shared)
  | _, _ => (conn, shared)

/-- The task goes on; at its end the sender goes with it. -/
def tick (conn : Connection) (shared : Shared) : Connection × Shared :=
  match conn.call.phase with
  | .ended _ => ({ conn with response := conn.response.step encodedLen .close }, shared)
  | _ =>
    let (call, shared) := conn.call.tick shared
    ({ conn with call := call }, shared)

/-- The client gives the call up. -/
def hangUp (conn : Connection) (shared : Shared) : Connection × Shared :=
  let (call, shared) := conn.call.cancel shared
  ({ conn with call := call, reading := false }, shared)

/-- The transport does something with the response stream, if it has one. -/
def transport (act : Act) (conn : Connection) : Connection :=
  if conn.reading = true ∧ conn.call.phase.streams = true then
    { conn with response := conn.response.step encodedLen act }
  else conn

variable [Unicode] [SerdeJson]

/-- The next item of the request stream, or its end. -/
def hear (service : EbcdicGrpc) (item : Option Inbound) (conn : Connection) (shared : Shared) :
    Connection × Shared :=
  let (call, shared) := conn.call.hear service item shared
  ({ conn with call := call }, shared)

end Connection

variable [Unicode] [SerdeJson] (encodedLen : Pb.ParseEbcdicResponse → Nat)

/-- The server: calls with their response streams. -/
def EbcdicGrpc.connections (service : EbcdicGrpc) : System Shared Connection Signal where
  enter := Connection.arrive service
  act
    | .hear item => Connection.hear service item
    | .send elapsed => Connection.send encodedLen elapsed
    | .tick => Connection.tick encodedLen
    | .hangUp => Connection.hangUp
    | .poll elapsed => fun conn shared => (conn.transport encodedLen (.poll elapsed), shared)
    | .resume ready elapsed => fun conn shared =>
      (conn.transport encodedLen (.resume ready elapsed), shared)

/-- The server after some events, in any order. -/
def EbcdicGrpc.connect (service : EbcdicGrpc) (events : List (Event Signal)) :
    State Shared Connection :=
  (service.connections encodedLen).after ⟨service.maxConcurrentParses, .new⟩ events

namespace Connection

omit [Unicode] [SerdeJson] in
lemma transport_call (act : Act) (conn : Connection) : (conn.transport encodedLen act).call = conn.call := by
  unfold transport
  split_ifs
  · rfl
  · rfl

omit [SerdeJson] in
/-- A send of a connection is one of its call, or waits on. -/
lemma send_call (elapsed : Bool) (conn : Connection) (shared : Shared) :
    conn.send encodedLen elapsed shared = (conn, shared) ∨
      ∃ item outcome, conn.call.phase.waiting = some item ∧ conn.outcome elapsed = some outcome ∧
        conn.send encodedLen elapsed shared
          = (⟨(ParseCall.sent outcome conn.call shared).1, conn.offer encodedLen outcome item,
              conn.reading⟩, (ParseCall.sent outcome conn.call shared).2) := by
  unfold send
  split
  · next item outcome waits comes => exact .inr ⟨item, outcome, waits, comes, rfl⟩
  · exact .inl rfl

omit [Unicode] [SerdeJson] in
/-- The task goes on, or its sender is gone. -/
lemma tick_call (conn : Connection) (shared : Shared) :
    (∃ res, conn.call.phase = .ended res ∧ conn.tick encodedLen shared
        = ({ conn with response := conn.response.step encodedLen .close }, shared)) ∨
      conn.tick encodedLen shared
        = ({ conn with call := (conn.call.tick shared).1 }, (conn.call.tick shared).2) := by
  unfold tick
  split
  · next res phase => exact .inl ⟨res, phase, rfl⟩
  · exact .inr rfl

end Connection

/-- Calls with their response streams do what calls do. -/
lemma connections_refine (service : EbcdicGrpc) :
    Refines (service.connections encodedLen) service.server Connection.call where
  enter _ := rfl
  act signal conn shared := by
    cases signal with
    | hear item => exact .inr ⟨.hear item, rfl⟩
    | send elapsed =>
      show ((conn.send encodedLen elapsed shared).1.call, (conn.send encodedLen elapsed shared).2) = _ ∨
        ∃ a, ((conn.send encodedLen elapsed shared).1.call, (conn.send encodedLen elapsed shared).2) = _
      rcases conn.send_call encodedLen elapsed shared with same | ⟨_, outcome, _, _, sent⟩
      · rw [same]
        exact .inl rfl
      · rw [sent]
        exact .inr ⟨.sent outcome, rfl⟩
    | tick =>
      show ((conn.tick encodedLen shared).1.call, (conn.tick encodedLen shared).2) = _ ∨
        ∃ a, ((conn.tick encodedLen shared).1.call, (conn.tick encodedLen shared).2) = _
      rcases conn.tick_call encodedLen shared with ⟨_, _, closed⟩ | ticked
      · rw [closed]
        exact .inl rfl
      · rw [ticked]
        exact .inr ⟨.tick, rfl⟩
    | hangUp => exact .inr ⟨.cancel, rfl⟩
    | poll elapsed => exact .inl (congrArg (·, shared) (conn.transport_call encodedLen (.poll elapsed)))
    | resume ready elapsed =>
      exact .inl (congrArg (·, shared) (conn.transport_call encodedLen (.resume ready elapsed)))

/-- A call with its response stream is a call of the server in some run. -/
lemma connect_serve (service : EbcdicGrpc) (events : List (Event Signal)) :
    ∃ events', service.serve events'
      = ⟨(service.connect encodedLen events).shared,
          (service.connect encodedLen events).components.map Connection.call⟩ :=
  (connections_refine encodedLen service).after _ events

end Connections

section Sample

attribute [local instance] asciiUnicode noJson coreF64

/-- The events of one call up to its options frame. -/
def sampleEvents : List (Event Signal) :=
  [.enter, .act 0 (.hear (some (.message ⟨some (.options sampleRequest)⟩)))]

end Sample

end GrpcEbcdic
