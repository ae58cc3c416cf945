import GrpcEbcdic.Proto.Document
import GrpcEbcdic.Proto.Messages

/-!
# The two streams of a parse

The frames a client sends and the events the server answers with.
-/

namespace GrpcEbcdic

namespace Pb

/-- The `frame` of a `ParseEbcdicRequest`. -/
inductive Frame where
  | options (options : ParseOptions)
  | chunk (bytes : List UInt8)
deriving DecidableEq

/-- `ParseEbcdicRequest`. -/
structure ParseEbcdicRequest where
  frame : Option Frame
deriving DecidableEq

variable [F64]

/-- The `event` of a `ParseEbcdicResponse`. -/
inductive Event where
  | layoutInfo (info : LayoutInfo)
  | record (row : RecordRow)
  | document (document : Doc.Document)
  | status (status : ParseStatus)

/-- `ParseEbcdicResponse`. -/
structure ParseEbcdicResponse where
  event : Option Event

end Pb

variable [F64]

/-- The rows among some events. -/
def rowsIn (events : List Pb.Event) : List Pb.RecordRow :=
  events.filterMap fun
    | .record row => some row
    | _ => none

end GrpcEbcdic
