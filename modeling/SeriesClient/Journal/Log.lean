import SeriesClient.Journal.Disk
import SeriesClient.Wire.Utf8

/-! The log: lines with a level and the label that is set. Labels nest, and each guard puts back
the label that was set when the guard was made. -/
namespace SeriesClient.Journal

inductive Level where
  | warning
  | error
deriving DecidableEq, Repr

def Level.text : Level → String
  | warning => "warning"
  | error => "error"

/-- Keeps the label to put back. -/
structure Guard where
  previous : Option String
deriving DecidableEq, Repr

structure Log where
  label : Option String := none
  disk : Disk := {}
  /-- The file that the lines go to, once one has been chosen. -/
  handle : Option Handle := none
deriving DecidableEq, Repr

namespace Log

/-- Sets a label within the one that is set. -/
def push (label : String) (log : Log) : Guard × Log :=
  let nested := match log.label with
    | some outer => outer ++ ": " ++ label
    | none => label
  (⟨log.label⟩, { log with label := some nested })

def release (guard : Guard) (log : Log) : Log := { log with label := guard.previous }

def line (log : Log) (level : Level) (message : String) : String :=
  let labelled := match log.label with
    | some label => label ++ ": " ++ message
    | none => message
  level.text ++ ": " ++ labelled ++ "\n"

/-- Adds a line to the file; without one the line is dropped. -/
def write (level : Level) (message : String) (log : Log) : Log :=
  match log.handle with
  | none => log
  | some handle =>
    let (handle, disk) := log.disk.write handle (Wire.Utf8.encode (log.line level message))
    { log with disk, handle := some handle }

/-- Chooses the file of the log, and says whether the file could be created. Every call that
succeeds creates its file; the first one that does decides where the lines go. -/
def setFile (path : String) (log : Log) : Bool × Log :=
  let (handle, disk) := log.disk.create path
  (handle.isSome, { log with disk, handle := log.handle <|> handle })

/-- The text of the file from an offset on. -/
def textFrom (offset : Nat) (log : Log) : String := match log.handle with
  | none => ""
  | some handle => Wire.Utf8.decode ((log.disk.contents handle.file).drop offset)

def offset (log : Log) : Nat := match log.handle with
  | none => 0
  | some handle => handle.offset

end Log
end SeriesClient.Journal
