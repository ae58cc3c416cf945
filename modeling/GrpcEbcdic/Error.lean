/-!
# The parse error

The one error type that crosses every internal boundary, with its message, and its mapping onto gRPC
status codes.
-/

namespace GrpcEbcdic

/-- A gRPC status code. -/
inductive Code where
  | ok
  | cancelled
  | unknown
  | invalidArgument
  | deadlineExceeded
  | notFound
  | alreadyExists
  | permissionDenied
  | resourceExhausted
  | failedPrecondition
  | aborted
  | outOfRange
  | unimplemented
  | internal
  | unavailable
  | dataLoss
  | unauthenticated
deriving DecidableEq

/-- A gRPC status, as far as the service sets one. -/
structure Status where
  code : Code
  message : String
deriving DecidableEq

/-- A failure that ends a parse stream. -/
inductive ParseError where
  /-- The request cannot be honored as written (`INVALID_ARGUMENT`). -/
  | invalid (message : String)
  /-- The request names something this build does not implement (`UNIMPLEMENTED`). -/
  | unsupported (message : String)
  /-- A resource bound was hit (`RESOURCE_EXHAUSTED`). -/
  | exhausted (message : String)
  /-- The client left the stream idle (`DEADLINE_EXCEEDED`). -/
  | timedOut (message : String)
  /-- The server broke, not the request (`INTERNAL`). -/
  | internal (message : String)
deriving DecidableEq

namespace ParseError

/-- The text of the error. -/
def message : ParseError → String
  | .invalid message => message
  | .unsupported message => message
  | .exhausted message => message
  | .timedOut message => message
  | .internal message => message

/-- The gRPC code a failure maps to. -/
def code : ParseError → Code
  | .invalid _ => .invalidArgument
  | .unsupported _ => .unimplemented
  | .exhausted _ => .resourceExhausted
  | .timedOut _ => .deadlineExceeded
  | .internal _ => .internal

/-- The status a failure ends the call with. -/
def toStatus (e : ParseError) : Status := ⟨e.code, e.message⟩

/-- Whether the error is `Invalid`. -/
def IsInvalid (e : ParseError) : Prop := ∃ message, e = .invalid message

/-- Whether the error is `Unsupported`. -/
def IsUnsupported (e : ParseError) : Prop := ∃ message, e = .unsupported message

end ParseError

end GrpcEbcdic
