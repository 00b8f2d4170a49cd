import ChainHead.Assoc
import ChainHead.Block

/-!
# Metrics

Gauges show the heights of the three pointers, zero for one that is unset, and counters the answers
to fork choices by their label: the name of the status, or the kind of the error.  A gauge holds a
signed number of 64 bits, so a height from `2 ^ 63` on shows as negative.
-/

namespace ChainHead

/-- What is measured of the engine. -/
structure Metrics where
  /-- The height of the head. -/
  head : Int64 := 0
  /-- The height of the safe block. -/
  safe : Int64 := 0
  /-- The height of the finalized block. -/
  finalized : Int64 := 0
  /-- The numbers of answers by their label. -/
  responses : Assoc String Nat := .empty

namespace Metrics

/-- The height of a pointer as a gauge shows it. -/
def height (b : Option Block) : Int64 :=
  match b with
  | some b => b.number.toInt64
  | none => 0

/-- Shows the heights of the pointers. -/
def showHeads (m : Metrics) (h : Heads) : Metrics :=
  { m with head := height (some h.head), safe := height h.safe, finalized := height h.finalized }

/-- The number of answers with a label. -/
def responseCount (m : Metrics) (label : String) : Nat := (m.responses.get? label).getD 0

/-- Counts an answer. -/
def countResponse (m : Metrics) (label : String) : Metrics :=
  { m with responses := m.responses.insert label (m.responseCount label + 1) }

end Metrics

end ChainHead
