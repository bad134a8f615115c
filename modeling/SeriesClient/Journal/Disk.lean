import SeriesClient.Journal.Route
import SeriesClient.Wire.Word

/-! The part of a file system that a log needs. The directories above a new file are made first, a
file is opened by emptying it, and a handle writes at its own offset whatever has become of the file
meanwhile. -/
namespace SeriesClient.Journal

/-- Files and directories are listed by the texts of their places. -/
structure Disk where
  /-- Where relative paths start. -/
  home : Place := []
  files : List (String × Bytes) := []
  directories : List String := []
deriving DecidableEq, Repr

/-- An open file and where its next write goes. -/
structure Handle where
  file : String
  offset : Nat
deriving DecidableEq, Repr

namespace Disk

def contents (disk : Disk) (file : String) : Bytes := (disk.files.lookup file).getD []

def isFile (disk : Disk) (place : Place) : Bool := (disk.files.lookup place.text).isSome

/-- The home directory and those above it are there from the start. -/
def isDirectory (disk : Disk) (place : Place) : Bool :=
  place.isPrefixOf disk.home || disk.directories.contains place.text

def put (disk : Disk) (file : String) (contents : Bytes) : Disk :=
  { disk with files := (file, contents) :: disk.files.filter fun entry => entry.1 != file }

def makeDirectory (disk : Disk) (place : Place) : Disk :=
  if disk.isDirectory place then disk
  else { disk with directories := place.text :: disk.directories }

/-- No name has more than 255 bytes. -/
def nameLimit : Nat := 255

/-- Walks a route from a directory and makes the directories that are not there yet; two dots lead
back up. A file on the way, or a name that is too long, ends the walk. -/
def enter (disk : Disk) (directory : Place) : Route → Option Place × Disk
  | [] => (some directory, disk)
  | piece :: route =>
    if staysPut piece then disk.enter directory route
    else if piece = ".." then disk.enter directory.dropLast route
    else
      let here := directory ++ [piece]
      if nameLimit < piece.utf8ByteSize || disk.isFile here then (none, disk)
      else (disk.makeDirectory here).enter here route

/-- Walks to the directory above the file of a route. A route that may not be asked for leaves
everything as it is. -/
def enterParent (disk : Disk) (route : Route) : Option Place × Disk :=
  if route.parent.isAdmissible then disk.enter [] route.parent else (none, disk)

/-- Opens a file for writing and empties it. The directories above it are made even when it cannot
be opened after that. -/
def create (disk : Disk) (path : String) : Option Handle × Disk :=
  let route := Route.ofPath disk.home path
  match disk.enterParent route, route.fileName? with
  | (some directory, disk), some name =>
    let place := directory ++ [name]
    if !route.isAdmissible || nameLimit < name.utf8ByteSize || disk.isDirectory place then
      (none, disk)
    else (some ⟨place.text, 0⟩, disk.put place.text [])
  | (_, disk), _ => (none, disk)

/-- Writes at the offset of the handle; zeros fill the space up to it. -/
def write (disk : Disk) (handle : Handle) (bytes : Bytes) : Handle × Disk :=
  let old := disk.contents handle.file
  let before := (old ++ List.replicate (handle.offset - old.length) 0).take handle.offset
  let after := old.drop (handle.offset + bytes.length)
  ({ handle with offset := handle.offset + bytes.length },
    disk.put handle.file (before ++ bytes ++ after))

end Disk
end SeriesClient.Journal
