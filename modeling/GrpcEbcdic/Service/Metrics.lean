import Mathlib.Data.ZMod.Basic
import Mathlib.Logic.Function.Basic

/-!
# Process counters

A handful of counters shared by every parse in flight, and the line they are printed on. A counter has
64 bits and wraps.
-/

namespace GrpcEbcdic

/-- The counters. -/
inductive Counter where
  /-- Parse streams opened. -/
  | parsesStarted
  /-- Parse streams that reached their trailer. -/
  | parsesCompleted
  /-- Parse streams that ended with a gRPC error. -/
  | parsesFailed
  /-- Parse streams refused before starting, by the concurrency cap. -/
  | parsesRejected
  /-- Records emitted as rows. -/
  | recordsEmitted
  /-- Input bytes received across all parses. -/
  | bytesReceived
  /-- Parses stopped by the byte cap. -/
  | byteCapHits
deriving DecidableEq

/-- What the counters hold. -/
structure Metrics where
  read : Counter → UInt64

namespace Metrics

/-- A fresh, zeroed counter set. -/
def new : Metrics := ⟨fun _ => 0⟩

/-- Add to a counter. -/
def add (metrics : Metrics) (counter : Counter) (amount : Nat) : Metrics :=
  ⟨Function.update metrics.read counter (metrics.read counter + UInt64.ofNat amount)⟩

/-- Bump a counter by one. -/
def bump (metrics : Metrics) (counter : Counter) : Metrics := metrics.add counter 1

/-- The one-line snapshot printed on the interval. -/
def line (metrics : Metrics) : String :=
  s!"grpc-ebcdic metrics: parses\x7bstarted={metrics.read .parsesStarted}," ++
    s!"completed={metrics.read .parsesCompleted},failed={metrics.read .parsesFailed}," ++
    s!"rejected={metrics.read .parsesRejected}\x7d " ++
    s!"records={metrics.read .recordsEmitted} bytes={metrics.read .bytesReceived} " ++
    s!"byte_cap_hits={metrics.read .byteCapHits}"

/-- What a counter holds, as a number round 64 bits. -/
def count (metrics : Metrics) (counter : Counter) : ZMod (2 ^ 64) := (metrics.read counter).toNat

lemma count_add (metrics : Metrics) (counter : Counter) (amount : Nat) (other : Counter) :
    (metrics.add counter amount).count other
      = metrics.count other + if other = counter then (amount : ZMod (2 ^ 64)) else 0 := by
  show ((Function.update metrics.read counter (metrics.read counter + UInt64.ofNat amount) other).toNat
    : ZMod (2 ^ 64)) = (metrics.read other).toNat + _
  by_cases same : other = counter
  · subst same
    rw [Function.update_self, if_pos rfl, UInt64.toNat_add, UInt64.toNat_ofNat', ZMod.natCast_mod,
      Nat.cast_add, ZMod.natCast_mod]
  · rw [Function.update_of_ne same, if_neg same, add_zero]

/-- A counter holds what it counts up to. -/
lemma read_eq {metrics : Metrics} {counter : Counter} {n : Nat}
    (counts : metrics.count counter = n) : (metrics.read counter).toNat = n % 2 ^ 64 := by
  have same := (ZMod.natCast_eq_natCast_iff' _ _ _).mp counts
  rwa [Nat.mod_eq_of_lt (metrics.read counter).toNat_lt] at same

end Metrics

end GrpcEbcdic
