import ChainHead.Json.Record

/-!
# The timing of payload jobs

A job makes one attempt after the other, with a pause between them, until its deadline.  Both times
are configured in milliseconds, and none counts for more than an hour.
-/

namespace ChainHead

/-- The times of payload jobs as they are configured. -/
structure Timing where
  /-- The pause between two attempts, in milliseconds. -/
  intervalMs : UInt64 := 500
  /-- The time after which a job makes no more attempts, in milliseconds. -/
  deadlineMs : UInt64 := 12000
deriving DecidableEq

namespace Timing

/-- The longest time that counts, in milliseconds. -/
def longest : Nat := 60 * 60 * 1000

/-- The pause between two attempts, as it counts. -/
def interval (t : Timing) : Nat := min t.intervalMs.toNat longest

/-- The time after which a job makes no more attempts, as it counts. -/
def deadline (t : Timing) : Nat := min t.deadlineMs.toNat longest

/-- How the times are read. -/
def form : Json.Form Timing :=
  Timing.mk <$> .defaulted "interval_ms" 500 Json.readWord
    <*> .defaulted "deadline_ms" 12000 Json.readWord

/-- The JSON value of the times. -/
def toJson (t : Timing) : Json := .obj [
  ("interval_ms", Json.ofWord t.intervalMs), ("deadline_ms", Json.ofWord t.deadlineMs)]

end Timing

end ChainHead
