/-! Paths of files, cut at their slashes. A path says by its text alone which directories are above
its file and whether it may be asked for at all. -/
namespace SeriesClient.Journal

/-- The pieces of a path between its slashes, from the top directory on. -/
abbrev Route := List String

/-- The names that lead down to a file or directory. -/
abbrev Place := List String

/-- One text for a place. No name holds a slash, so two places never share one. -/
def Place.text (place : Place) : String := place.foldl (fun text name => text ++ "/" ++ name) ""

/-- A piece that leads nowhere: nothing between two slashes, or one dot. -/
def staysPut (piece : String) : Bool := piece == "" || piece == "."

namespace Route

/-- A path that does not begin with a slash starts at the home directory. -/
def ofPath (home : Place) (path : String) : Route :=
  match path.splitOn "/" with
  | "" :: piece :: pieces => "" :: piece :: pieces
  | pieces => "" :: home ++ pieces

/-- The route to the directory above: without the last piece that leads anywhere, and without those
that lead nowhere on either side of it. -/
def parent (route : Route) : Route :=
  (((route.reverse.dropWhile staysPut).drop 1).dropWhile staysPut).reverse

/-- A path has at most 4096 bytes with the zero byte that ends it, and no zero byte before. -/
def isAdmissible (route : Route) : Bool :=
  route.foldl (fun size piece => size + piece.utf8ByteSize + 1) 0 ≤ 4096 &&
    !route.any (·.toList.contains (Char.ofNat 0))

/-- The name of the file that a path ends in. Slashes or dots at its end leave it none. -/
def fileName? (route : Route) : Option String :=
  route.getLast?.filter fun piece => !staysPut piece && piece != ".."

end Route
end SeriesClient.Journal
