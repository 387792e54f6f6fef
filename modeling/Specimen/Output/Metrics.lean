import Specimen.Binary64

/-!
# How fast a batch is written
-/

namespace Specimen

/-- What is measured of a batch that is written. -/
structure Metrics where
  records : UInt64
  bytes : UInt64
  /-- The time that writing took, in nanoseconds. -/
  nanoseconds : Nat
  deriving DecidableEq, Repr

namespace Metrics

/-- Nothing is written, in no time. -/
def none : Metrics :=
  ⟨0, 0, 0⟩

/-- The nanoseconds of a second. -/
def nanosecondsPerSecond : Nat := 1000000000

/-- The time in seconds: the whole seconds and the fraction, added as floats. -/
def seconds (m : Metrics) : Float :=
  Binary64.ofNat (m.nanoseconds / nanosecondsPerSecond) +
    Binary64.ofNat (m.nanoseconds % nanosecondsPerSecond) / Binary64.ofNat nanosecondsPerSecond

/-- The number of records for each second, zero if there was no time. -/
def recordsPerSecond (m : Metrics) : Float :=
  if 0 < m.seconds then Binary64.ofNat m.records.toNat / m.seconds else 0

end Metrics

end Specimen
