import SeriesClient.Export.Csv.CsvSink
import SeriesClient.Export.Recorder
import SeriesClient.Proofs.Export.Csv.RecordText
import SeriesClient.Proofs.Number.FloatTexts

/-! What a sink of delimited text may be asked for and when. A ledger of the calls it has accepted
says which call it refuses next, and what text its sessions have. -/
namespace SeriesClient.Export

namespace SinkCall
variable {σ : Type} [RowSink σ]

def apply (sink : σ) : SinkCall → Except Error Unit × σ
  | .begin layout => RowSink.begin layout sink
  | .row timestamp cells => RowSink.writeRow timestamp cells sink
  | .finish => RowSink.finish sink

/-- The answers to calls, and the sink after them. -/
def run (sink : σ) : List SinkCall → List (Except Error Unit) × σ
  | [] => ([], sink)
  | call :: calls =>
    let (answer, sink) := call.apply sink
    let (answers, sink) := run sink calls
    (answer :: answers, sink)

/-- The calls that are not refused. -/
def accepted (sink : σ) : List SinkCall → List SinkCall
  | [] => []
  | call :: calls => match call.apply sink with
    | (.ok (), sink) => call :: accepted sink calls
    | (.error _, sink) => accepted sink calls

theorem run_concat (sink : σ) (calls : List SinkCall) (call : SinkCall) :
    (run sink (calls ++ [call])).2 = (call.apply (run sink calls).2).2 := by
  induction calls generalizing sink with
  | nil => rfl
  | cons _ _ ih => exact ih _

end SinkCall

namespace Csv

/-- Moments that have an RFC 3339 text, from the year 0 to the year 9999, in milliseconds. -/
def Representable (timestamp : Int64) : Prop :=
  -62167219200000 ≤ timestamp.toInt ∧ timestamp.toInt ≤ 253402300799999

instance (timestamp : Int64) : Decidable (Representable timestamp) :=
  inferInstanceAs (Decidable (_ ∧ _))

theorem rfc3339_ok_iff (timestamp : Int64) :
    (∃ text, rfc3339 timestamp = .ok text) ↔ Representable timestamp := by
  have range : Representable timestamp ↔
      firstTextSecond ≤ timestamp.toInt / 1000 ∧ timestamp.toInt / 1000 ≤ lastSecond := by
    rw [Representable, firstTextSecond, lastSecond]
    omega
  have order : firstSecond ≤ firstTextSecond := by decide
  have seconds : timestamp.toInt * 1000000 / 1000000000 = timestamp.toInt / 1000 := by omega
  simp only [rfc3339, toInt_nanoseconds, seconds, range]
  split
  · rename_i far
    rw [Bool.or_eq_true, decide_eq_true_eq, decide_eq_true_eq] at far
    simp only [reduceCtorEq, exists_false, false_iff]
    omega
  · rename_i near
    rw [Bool.or_eq_true, decide_eq_true_eq, decide_eq_true_eq] at near
    split
    · simp only [reduceCtorEq, exists_false, false_iff]
      omega
    · simp only [Except.ok.injEq, exists_eq', true_iff]
      omega

theorem TimestampStyle.text_ok_iff (style : TimestampStyle) (timestamp : Int64) :
    (∃ text, style.text timestamp = .ok text) ↔ (style = .rfc3339 → Representable timestamp) := by
  cases style with
  | raw => simp [text]
  | rfc3339 => simp [text, rfc3339_ok_iff]

/-- Text of a cell in a data file; an absent one has none. -/
def cellText (texts : FloatTexts) (cell : Cell) : String := (cell.map (Value.textBy texts)).getD ""

theorem cellField_eq {texts : FloatTexts} (delimited : texts.Delimited) (cell : Cell) :
    CsvSink.cellField cell = Wire.Utf8.encode (cellText texts cell) := by
  cases cell with
  | none => rfl
  | some value => exact congrArg Wire.Utf8.encode (value.field_eq_textBy delimited)

/-- A session as its accepted calls make it: its columns, then its rows. -/
structure Session where
  layout : Layout
  rows : List (Option Int64 × Row) := []

namespace Session

/-- Fields of every record of a session with these columns. -/
def width (layout : Layout) : Nat := (if layout.timed then 1 else 0) + layout.paths.length

theorem width_pos {layout : Layout} (some : layout.timed = true ∨ layout.paths ≠ []) :
    0 < width layout := by
  rw [width]
  rcases some with timed | named
  · rw [timed, if_pos rfl]
    omega
  · have := List.length_pos_iff.mpr named
    omega

def timeField (format : Format) (timestamp : Option Int64) : List Bytes :=
  match timestamp.map format.timestamps.text with
  | some (.ok text) => [Wire.Utf8.encode text]
  | _ => []

def header (layout : Layout) : List Bytes :=
  ((if layout.timed then ["Time"] else []) ++ layout.paths).map Wire.Utf8.encode

def record (texts : FloatTexts) (format : Format) (layout : Layout) (row : Option Int64 × Row) :
    List Bytes :=
  (if layout.timed then timeField format row.1 else []) ++
    row.2.map fun cell => Wire.Utf8.encode (cellText texts cell)

def records (texts : FloatTexts) (format : Format) (session : Session) : List (List Bytes) :=
  (if format.headers then [header session.layout] else []) ++
    session.rows.map (record texts format session.layout)

def text (texts : FloatTexts) (format : Format) (session : Session) : Bytes :=
  (session.records texts format).flatMap (recordText format.delimiter)

def add (session : Session) (row : Option Int64 × Row) : Session :=
  { session with rows := session.rows ++ [row] }

theorem text_add (texts : FloatTexts) (format : Format) (session : Session)
    (row : Option Int64 × Row) : (session.add row).text texts format = session.text texts format ++
      recordText format.delimiter (record texts format session.layout row) := by
  simp [text, records, add]

theorem headerFields_eq (layout : Layout) : CsvSink.headerFields layout = header layout := by
  rw [CsvSink.headerFields, header, List.map_append]

theorem length_header (layout : Layout) : (header layout).length = width layout := by
  rw [header, width]
  cases layout.timed <;> simp [Nat.add_comm]

end Session

/-- What accepted calls have made: the sessions that are finished, and one that may be open. -/
structure Ledger where
  finished : List Session := []
  current : Option Session := none

namespace Ledger

def sessions (ledger : Ledger) : List Session := ledger.finished ++ ledger.current.toList

def after (ledger : Ledger) : SinkCall → Ledger
  | .begin layout => { ledger with current := some { layout } }
  | .row timestamp cells =>
    { ledger with current := ledger.current.map (·.add (timestamp, cells)) }
  | .finish => { finished := ledger.sessions }

def text (texts : FloatTexts) (format : Format) (ledger : Ledger) : Bytes :=
  ledger.sessions.flatMap (Session.text texts format)

variable (texts : FloatTexts) (format : Format)

theorem text_begin {ledger : Ledger} (between : ledger.current = none) (layout : Layout) :
    (ledger.after (.begin layout)).text texts format = ledger.text texts format ++
      if format.headers then recordText format.delimiter (Session.header layout) else [] := by
  cases headers : format.headers <;>
    simp [text, sessions, after, between, Session.text, Session.records, headers]

theorem text_row {ledger : Ledger} {session : Session} (current : ledger.current = some session)
    (timestamp : Option Int64) (cells : Row) :
    (ledger.after (.row timestamp cells)).text texts format = ledger.text texts format ++
      recordText format.delimiter
        (Session.record texts format session.layout (timestamp, cells)) := by
  simp [text, sessions, after, current, Session.text_add]

theorem text_finish (ledger : Ledger) :
    (ledger.after .finish).text texts format = ledger.text texts format := by
  simp [text, sessions, after]

end Ledger

/-- Why a row does not fit a session with these columns. -/
inductive Misfit (format : Format) (layout : Layout) : Option Int64 → Row → Prop
  | width {timestamp : Option Int64} {cells : Row}
      (unequal : cells.length ≠ layout.paths.length) : Misfit format layout timestamp cells
  | untimed {cells : Row} (timed : layout.timed = true) : Misfit format layout none cells
  | moment {timestamp : Int64} {cells : Row} (timed : layout.timed = true)
      (style : format.timestamps = .rfc3339) (beyond : ¬ Representable timestamp) :
      Misfit format layout (some timestamp) cells

/-- Why a call is refused, by what calls before it have made. -/
inductive Refused (format : Format) (ledger : Ledger) : SinkCall → Prop
  | unfinished {session : Session} {layout : Layout} (current : ledger.current = some session) :
      Refused format ledger (.begin layout)
  | types {layout : Layout} (unequal : layout.paths.length ≠ layout.types.length) :
      Refused format ledger (.begin layout)
  | outside {timestamp : Option Int64} {cells : Row} (between : ledger.current = none) :
      Refused format ledger (.row timestamp cells)
  | misfit {session : Session} {timestamp : Option Int64} {cells : Row}
      (current : ledger.current = some session)
      (misfit : Misfit format session.layout timestamp cells) :
      Refused format ledger (.row timestamp cells)

/-- A row that fits has a text for its time, if it needs one. -/
theorem time_of_fitting {format : Format} {layout : Layout} {timestamp : Option Int64}
    {cells : Row} (fits : ¬ Misfit format layout timestamp cells) (timed : layout.timed = true) :
    ∃ moment text, timestamp = some moment ∧ format.timestamps.text moment = .ok text := by
  cases timestamp with
  | none => exact absurd (.untimed timed) fits
  | some moment =>
    have within : format.timestamps = .rfc3339 → Representable moment := by
      intro style
      apply Decidable.byContradiction
      intro beyond
      exact fits (.moment timed style beyond)
    obtain ⟨text, shown⟩ := (format.timestamps.text_ok_iff moment).mpr within
    exact ⟨moment, text, rfl, shown⟩

theorem length_of_fitting {format : Format} {layout : Layout} {timestamp : Option Int64}
    {cells : Row} (fits : ¬ Misfit format layout timestamp cells) :
    cells.length = layout.paths.length :=
  Decidable.byContradiction fun unequal => fits (.width unequal)

theorem length_record (texts : FloatTexts) {format : Format} {layout : Layout}
    {timestamp : Option Int64} {cells : Row} (fits : ¬ Misfit format layout timestamp cells) :
    (Session.record texts format layout (timestamp, cells)).length = Session.width layout := by
  rw [Session.record, Session.width, List.length_append, List.length_map, length_of_fitting fits]
  split
  · rename_i timed
    obtain ⟨moment, text, rfl, shown⟩ := time_of_fitting fits timed
    simp [Session.timeField, shown]
  · rfl

/-- All records of a session of rows that fit have the width that its columns give it. -/
theorem Session.length_of_mem_records (texts : FloatTexts) {format : Format} {session : Session}
    (fits : ∀ row ∈ session.rows, ¬ Misfit format session.layout row.1 row.2) :
    ∀ fields ∈ session.records texts format, fields.length = Session.width session.layout := by
  intro fields mem
  rcases List.mem_append.mp mem with header | row
  · obtain ⟨-, rfl⟩ : format.headers = true ∧ fields = Session.header session.layout := by
      simpa using header
    exact Session.length_header session.layout
  · obtain ⟨_, taken, rfl⟩ := List.mem_map.mp row
    exact length_record texts (fits _ taken)

theorem not_refused_begin {format : Format} {ledger : Ledger} {layout : Layout}
    (between : ledger.current = none) (types : layout.paths.length = layout.types.length) :
    ¬ Refused format ledger (.begin layout) := by
  rintro (current | unequal)
  · rw [between] at current
    cases current
  · exact unequal types

theorem fits_of_row {format : Format} {ledger : Ledger} {timestamp : Option Int64} {cells : Row}
    (fits : ¬ Refused format ledger (.row timestamp cells)) :
    ∃ session, ledger.current = some session ∧ ¬ Misfit format session.layout timestamp cells := by
  cases current : ledger.current with
  | none => exact absurd (.outside current) fits
  | some session => exact ⟨session, rfl, fun misfit => fits (.misfit current misfit)⟩

theorem not_refused_row {format : Format} {ledger : Ledger} {session : Session}
    (current : ledger.current = some session) {timestamp : Option Int64} {cells : Row}
    (fits : ¬ Misfit format session.layout timestamp cells) :
    ¬ Refused format ledger (.row timestamp cells) := by
  rintro (_ | _ | between | ⟨current', misfit⟩)
  · simp [current] at between
  · obtain rfl := Option.some.inj (current.symm.trans current')
    exact fits misfit

/-- All rows in a ledger fit their sessions. -/
def Fitting (format : Format) (ledger : Ledger) : Prop :=
  ∀ session ∈ ledger.sessions, ∀ row ∈ session.rows, ¬ Misfit format session.layout row.1 row.2

theorem Fitting.after {format : Format} {ledger : Ledger} (fitting : Fitting format ledger)
    {call : SinkCall} (fits : ¬ Refused format ledger call) :
    Fitting format (ledger.after call) := by
  have finished (session) (mem : session ∈ ledger.finished) := fitting session (by
    simp [Ledger.sessions, mem])
  intro session mem
  cases call with
  | begin layout =>
    rcases List.mem_append.mp mem with old | new
    · exact finished session old
    · obtain rfl : session = { layout } := by simpa [Ledger.after] using new
      exact nofun
  | row timestamp cells =>
    obtain ⟨before, current, fits⟩ := fits_of_row fits
    rcases List.mem_append.mp mem with old | new
    · exact finished session old
    · obtain rfl : session = before.add (timestamp, cells) := by
        simpa [Ledger.after, current] using new
      intro row mem
      rcases List.mem_append.mp mem with old | last
      · exact fitting before (by simp [Ledger.sessions, current]) row old
      · obtain rfl := List.mem_singleton.mp last
        exact fits
  | finish => exact fitting session (by simpa [Ledger.after, Ledger.sessions] using mem)

end Csv
end SeriesClient.Export
