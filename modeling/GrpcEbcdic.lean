import GrpcEbcdic.Support.Incremental
import GrpcEbcdic.Decode.Numbers
import GrpcEbcdic.Stream.Chunking
import GrpcEbcdic.Copybook.ClauseOrder
import GrpcEbcdic.Copybook.GroupUsage
import GrpcEbcdic.Copybook.Refused
import GrpcEbcdic.Copybook.RoundTrip
import GrpcEbcdic.Layout.Accepted
import GrpcEbcdic.Stream.Cut
import GrpcEbcdic.Stream.Routing
import GrpcEbcdic.Stream.Declared
import GrpcEbcdic.Copybook.Leaves
import GrpcEbcdic.Decode.Accumulator
import GrpcEbcdic.Fold.MergeSafe
import GrpcEbcdic.Fold.Cap
import GrpcEbcdic.Service.DocumentRun
import GrpcEbcdic.Service.Truncation
import GrpcEbcdic.Service.Language
import GrpcEbcdic.Service.Delivery
import GrpcEbcdic.Stream.Echo
import GrpcEbcdic.Codec.RoundTrip
import GrpcEbcdic.Copybook.Expansion
import GrpcEbcdic.Decode.Text
import GrpcEbcdic.Fold.Grid
import GrpcEbcdic.Fold.Symmetry
import GrpcEbcdic.Copybook.Columns
import GrpcEbcdic.Copybook.Spacing
import GrpcEbcdic.Copybook.Literals
import GrpcEbcdic.Copybook.Bounded
import GrpcEbcdic.Service.Ledger
import GrpcEbcdic.Service.Isolation
import GrpcEbcdic.Service.Connection
import GrpcEbcdic.Service.Backpressure
import GrpcEbcdic.Service.Progress
import GrpcEbcdic.Service.Framing
import GrpcEbcdic.Stream.Faults
import GrpcEbcdic.Service.Blame
import GrpcEbcdic.Stream.Storage
import GrpcEbcdic.Stream.Passages
import GrpcEbcdic.Stream.Files
import GrpcEbcdic.Stream.Rewrite
import GrpcEbcdic.Service.Memory
import GrpcEbcdic.Copybook.Data
import GrpcEbcdic.Service.Copybooks
import GrpcEbcdic.Service.Documents
import GrpcEbcdic.Service.Info
