import SeriesClient.DataType
import SeriesClient.Reduction

/-! What can go wrong, by cause. Each cause carries the numbers that its text names, and the
wording of all causes stands here, so two failures are equal when they agree in cause and place. -/
namespace SeriesClient

/-- Where in an encoded batch a failure was met. -/
inductive Location where
  | value
  | cell (row column : Nat)
  | timestamps
  | bitmap
deriving DecidableEq, Repr

def Location.text : Location → String
  | .value => "value"
  | .cell row column => s!"row {row} column {column}"
  | .timestamps => "timestamps"
  | .bitmap => "bitmap"

/-- How a received buffer breaks the layout that was declared for it. -/
inductive Damage where
  | shortRead (needed offset remaining : Nat)
  | negativeLength (length : Int)
  | trailingBytes (bytes declared : Nat)
  | missingBit (index : Nat)
  | partialLong (bytes : Nat)
  | unequalBuffers (values bitmaps : Nat)
  | timestampsForRows (timestamps rows : Nat)
  | timestampsForPaths (timestamps paths : Nat)
  | reported (details : String)
deriving DecidableEq, Repr

def Damage.text : Damage → String
  | .shortRead needed offset remaining =>
    s!"needed {needed} bytes at offset {offset} but only {remaining} remain"
  | .negativeLength length => s!"negative text length {length}"
  | .trailingBytes bytes declared => s!"{bytes} trailing bytes after {declared} declared values"
  | .missingBit index => s!"bitmap buffer too short for bit {index}"
  | .partialLong bytes => s!"timestamp buffer of {bytes} bytes is not a whole number of longs"
  | .unequalBuffers values bitmaps => s!"{values} value buffers but {bitmaps} bitmaps"
  | .timestampsForRows timestamps rows => s!"{timestamps} timestamps for {rows} rows"
  | .timestampsForPaths timestamps paths => s!"{timestamps} timestamps for {paths} paths"
  | .reported details => details

/-- The two dimensions of a batch. -/
inductive Axis where
  | timestamps
  | paths
deriving DecidableEq, Repr

def Axis.text : Axis → String
  | .timestamps => "timestamps"
  | .paths => "paths"

/-- Why a request is refused before it is sent, or a declaration before it is read. -/
inductive RequestFault where
  | emptyBatch
  | typesForPaths (types paths : Nat)
  | typesForSeries (types paths : Nat)
  | typesForColumns (types columns : Nat)
  | typesForWindows (types paths windows : Nat)
  | listsForAxis (lists expected : Nat) (axis : Axis)
  | listWidth (index width expected : Nat) (axis : Axis)
  | rowWidth (row width types : Nat)
  | textTooLong (bytes : Nat)
  | permutationSize (items size : Nat)
  | queryWithoutPaths
  | deleteWithoutPaths
  | invertedRange (start finish : Int64)
  | precisionNotPositive (precision : Int64)
  | fetchSizeNotPositive (size : Int32)
  | unknownReduction (tag : Int32)
  | reported (details : String)
deriving DecidableEq, Repr

def RequestFault.text : RequestFault → String
  | .emptyBatch => "paths, types, timestamps and values must all be non-empty"
  | .typesForPaths types paths => s!"{paths} paths but {types} data types"
  | .typesForSeries types paths => s!"{paths} series paths but {types} data types"
  | .typesForColumns types columns => s!"{columns} columns but {types} data types"
  | .typesForWindows types paths windows =>
    s!"{types} data types for {paths} paths over {windows} windows"
  | .listsForAxis lists expected axis => s!"{lists} value lists for {expected} {axis.text}"
  | .listWidth index width expected axis =>
    s!"value list {index} holds {width} values for {expected} {axis.text}"
  | .rowWidth row width types => s!"row {row} has {width} values for {types} declared types"
  | .textTooLong bytes => s!"text of {bytes} bytes exceeds i32 length"
  | .permutationSize items size => s!"cannot permute {items} items with a permutation of {size}"
  | .queryWithoutPaths => "query requires at least one path"
  | .deleteWithoutPaths => "delete requires at least one path"
  | .invertedRange start finish => s!"start time {start.toInt} is after end time {finish.toInt}"
  | .precisionNotPositive precision =>
    s!"downsample precision must be positive, got {precision.toInt}"
  | .fetchSizeNotPositive size => s!"fetch size must be positive, got {size.toInt}"
  | .unknownReduction tag => s!"unknown aggregate type tag {tag.toInt}"
  | .reported details => details

/-- Why a row sink refuses a call. -/
inductive SinkFault where
  | sessionOpen
  | typesForColumns
  | outputTaken
  | noSession
  | rowWidth (width columns : Nat)
  | missingTimestamp
  | timestampOutOfRange (timestamp : Int64)
  | yearNotFormattable (timestamp : Int64)
  | recordWidth (fields previous : Nat)
  | closing (details : String)
  | reported (details : String)
deriving DecidableEq, Repr

def SinkFault.text : SinkFault → String
  | .sessionOpen => "CSV sink cannot be reused without finishing"
  | .typesForColumns => "column metadata length mismatch"
  | .outputTaken => "CSV sink output already taken"
  | .noSession => "CSV sink used before begin"
  | .rowWidth width columns => s!"row length {width} does not match expected {columns}"
  | .missingTimestamp => "row without timestamp in a timed result"
  | .timestampOutOfRange timestamp =>
    s!"timestamp {timestamp.toInt} out of range: timestamp was not in range"
  | .yearNotFormattable timestamp =>
    s!"timestamp {timestamp.toInt} not formattable: " ++
      "The year component cannot be formatted into the requested format."
  | .recordWidth fields previous =>
    s!"CSV error: found record with {fields} fields, but the previous record has {previous} fields"
  | .closing details => s!"csv into_inner failed: {details}"
  | .reported details => details

inductive Error where
  | io (details : String)
  | range (index capacity : Nat)
  | typeMismatch (place : Location) (declared found : DataType)
  | unsupportedType (tag : Int32)
  | invalid (fault : RequestFault)
  | transport (details : String)
  | corrupted (place : Location) (damage : Damage)
  | sink (fault : SinkFault)
deriving DecidableEq, Repr

namespace Error

def message : Error → String
  | io details => details
  | range index capacity => s!"bitmask index {index} out of range for capacity {capacity}"
  | typeMismatch place declared found =>
    s!"type mismatch at {place.text}: declared {declared.name} but value is {found.name}"
  | unsupportedType tag => s!"unsupported data type tag {tag.toInt}"
  | invalid fault => s!"invalid request: {fault.text}"
  | transport details => s!"transport error: {details}"
  | corrupted place damage => s!"corrupted payload while decoding {place.text}: {damage.text}"
  | sink fault => s!"sink error: {fault.text}"

/-- Moves a failure that has a place to the place its caller knows; all others stay as they are. -/
def relocate (place : Location) : Error → Error
  | typeMismatch _ declared found => typeMismatch place declared found
  | corrupted _ damage => corrupted place damage
  | e => e

end Error

/-- What a step in front of others has given when all of them succeed. -/
theorem exists_of_bind_eq_ok {α β : Type} {step : Except Error α} {rest : α → Except Error β}
    {result : β} (done : (step >>= rest) = .ok result) :
    ∃ value, step = .ok value ∧ rest value = .ok result := by
  cases step with
  | error e => cases done
  | ok value => exact ⟨value, rfl, done⟩

theorem map_eq_error_iff {α β : Type} {outcome : Except Error α} {meaning : α → β} {e : Error} :
    outcome.map meaning = .error e ↔ outcome = .error e := by
  cases outcome <;> simp [Except.map]

theorem exists_error_iff {α : Type} {outcome : Except Error α} :
    (∃ e, outcome = .error e) ↔ ¬ ∃ a, outcome = .ok a := by
  cases outcome <;> simp

/-- The type that a number on the wire stands for. -/
def DataType.read (tag : Int32) : Except Error DataType :=
  match DataType.ofTag? tag with
  | some t => .ok t
  | none => .error (.unsupportedType tag)

/-- Types named on the wire; the first unknown number is the failure. -/
def DataType.ofTags (tags : List Int32) : Except Error (List DataType) := tags.mapM DataType.read

theorem DataType.ofTags_tags (types : List DataType) : ofTags (types.map tag) = .ok types := by
  induction types with
  | nil => rfl
  | cons declared types ih =>
    have first : read declared.tag = .ok declared := by rw [read, ofTag?_tag]
    rw [ofTags] at ih ⊢
    rw [List.map_cons, List.mapM_cons, first, ih]
    rfl

/-- The reduction that a number on the wire stands for. -/
def Reduction.read (tag : Int32) : Except Error Reduction :=
  match Reduction.ofTag? tag with
  | some r => .ok r
  | none => .error (.invalid (.unknownReduction tag))

end SeriesClient
