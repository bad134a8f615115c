/-! The reductions a server applies to the samples of a series, over a whole range or per window. -/
namespace SeriesClient

inductive Reduction where
  | max
  | min
  | sum
  | count
  | avg
  | firstValue
  | lastValue
deriving DecidableEq, Repr

namespace Reduction

def all : List Reduction := [max, min, sum, count, avg, firstValue, lastValue]

/-- Number of the reduction on the wire. -/
def tag : Reduction → Int32
  | max => 0
  | min => 1
  | sum => 2
  | count => 3
  | avg => 4
  | firstValue => 5
  | lastValue => 6

def ofTag? (tag : Int32) : Option Reduction :=
  all.find? (fun r => r.tag == tag)

def name : Reduction → String
  | max => "MAX"
  | min => "MIN"
  | sum => "SUM"
  | count => "COUNT"
  | avg => "AVG"
  | firstValue => "FIRST_VALUE"
  | lastValue => "LAST_VALUE"

theorem ofTag?_tag (r : Reduction) : ofTag? r.tag = some r := by
  cases r <;> rfl

end Reduction
end SeriesClient
