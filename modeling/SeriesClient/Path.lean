import SeriesClient.Wire.Utf8.Lemmas

/-! Series paths and the patterns among them. A `*` makes a path a pattern, and the text before
its first `*` is the stem under which all matches lie. -/
namespace SeriesClient.Path

def wildcard : Char := '*'

/-- The pattern that covers every path. -/
def everything : String := "*"

/-- Text before the first wildcard; a literal path has none. -/
def stem? (path : String) : Option String :=
  if path.toList.contains wildcard then
    some (String.ofList (path.toList.takeWhile (· != wildcard)))
  else none

def isPattern (path : String) : Bool := (stem? path).isSome

def startsWith (path stem : String) : Bool := stem.toList.isPrefixOf path.toList

/-- Order of paths by their bytes. -/
def le (a b : String) : Bool := decide (Wire.Utf8.encode a ≤ Wire.Utf8.encode b)

theorem le_trans (a b c : String) (first : le a b) (second : le b c) : le a c :=
  decide_eq_true (List.le_trans (of_decide_eq_true first) (of_decide_eq_true second))

theorem le_total (a b : String) : le a b || le b a := by
  simpa [le] using List.le_total (Wire.Utf8.encode a) (Wire.Utf8.encode b)

theorem le_antisymm (a b : String) (first : le a b) (second : le b a) : a = b := by
  have same := List.le_antisymm (of_decide_eq_true first) (of_decide_eq_true second)
  rw [← Wire.Utf8.decode_encode a, same, Wire.Utf8.decode_encode]

/-- A literal path is covered when it starts with the stem of some pattern. -/
def covered (stems : List String) (path : String) : Bool :=
  !isPattern path && stems.any (startsWith path)

/-- The paths to ask for: everything if that is among them, else the patterns and the literals
that no stem covers, in byte order. -/
def merge (paths : List String) : List String :=
  if paths.contains everything then [everything]
  else
    let stems := paths.filterMap stem?
    (paths.filter fun path => !covered stems path).mergeSort le

end SeriesClient.Path
