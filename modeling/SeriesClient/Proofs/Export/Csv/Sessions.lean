import SeriesClient.Proofs.Export.Csv.Ledger

/-! A sink of delimited text as a machine of two states, between sessions and in one. Calls that it
refuses are as if they had not been made, and what goes down are the texts of its sessions. -/
namespace SeriesClient.Export.Csv

section Sinks
variable {δ : Type} {ready : δ → Prop} {content : δ → Bytes}

/-- A sink in a session with these columns. -/
def inSession (format : Format) (layout : Layout) (writer : Writer δ) : CsvSink δ := {
  format
  output := none
  writer := some writer
  timed := layout.timed
  columns := layout.paths.length }

/-- A sink that has put down the texts of the sessions in its ledger, behind what was there. -/
inductive Tracks (ready : δ → Prop) (content : δ → Bytes) (texts : FloatTexts) (format : Format)
    (start : Bytes) (ledger : Ledger) : CsvSink δ → Prop
  | idle {destination : δ} {timed : Bool} {columns : Nat} (between : ledger.current = none)
      (sound : ready destination)
      (text : content destination = start ++ ledger.text texts format) :
      Tracks ready content texts format start ledger
        { format, output := some destination, timed, columns }
  | busy {layout : Layout} {rows : List (Option Int64 × Row)} {writer : Writer δ}
      {width : Option Nat} (current : ledger.current = some ⟨layout, rows⟩)
      (fits : width = none ∨ width = some (Session.width layout))
      (shows : Shows ready content format.delimiter writer
        ⟨start ++ ledger.text texts format, {}, width⟩) :
      Tracks ready content texts format start ledger (inSession format layout writer)

variable {texts : FloatTexts} {format : Format} {start : Bytes} {ledger : Ledger}
  {sink : CsvSink δ}

theorem onto_tracks (format : Format) {destination : δ} (sound : ready destination) :
    Tracks ready content texts format (content destination) {} (CsvSink.onto format destination) :=
  .idle rfl sound (by simp [Ledger.text, Ledger.sessions])

theorem Tracks.output_eq_none_iff (tracks : Tracks ready content texts format start ledger sink) :
    sink.output = none ↔ ∃ session, ledger.current = some session := by
  cases tracks with
  | idle between => simp [between]
  | busy current => simp [inSession, current]

theorem Tracks.output_of_between (tracks : Tracks ready content texts format start ledger sink)
    (between : ledger.current = none) :
    ∃ written, sink.output = some written ∧
      content written = start ++ ledger.text texts format := by
  cases tracks with
  | @idle destination _ _ _ _ text => exact ⟨destination, rfl, text⟩
  | busy current =>
    rw [between] at current
    cases current

variable [Destination δ]

/-- The effect of a call: none on the sink if there is a cause to refuse it, else the one that the
ledger says. -/
inductive Answers (ready : δ → Prop) (content : δ → Bytes) (texts : FloatTexts) (format : Format)
    (start : Bytes) (ledger : Ledger) (sink : CsvSink δ) (call : SinkCall) : Prop
  | refused (cause : Refused format ledger call) (fault : Error)
      (answer : call.apply sink = (.error fault, sink)) :
      Answers ready content texts format start ledger sink call
  | accepted (fits : ¬ Refused format ledger call) (after : CsvSink δ)
      (answer : call.apply sink = (.ok (), after))
      (tracks : Tracks ready content texts format start (ledger.after call) after) :
      Answers ready content texts format start ledger sink call

theorem Answers.refused_iff {call : SinkCall}
    (answers : Answers ready content texts format start ledger sink call) :
    Refused format ledger call ↔ ∃ fault, (call.apply sink).1 = .error fault := by
  rcases answers with ⟨cause, fault, answer⟩ | ⟨fits, after, answer⟩
  · exact ⟨fun _ => ⟨fault, congrArg Prod.fst answer⟩, fun _ => cause⟩
  · refine ⟨fun cause => absurd cause fits, fun ⟨fault, answered⟩ => ?_⟩
    rw [answer] at answered
    cases answered

theorem Answers.accepts {call : SinkCall}
    (answers : Answers ready content texts format start ledger sink call)
    (fits : ¬ Refused format ledger call) :
    ∃ after, call.apply sink = (.ok (), after) ∧
      Tracks ready content texts format start (ledger.after call) after := by
  rcases answers with ⟨cause⟩ | ⟨-, after, answer, tracks⟩
  · exact absurd cause fits
  · exact ⟨after, answer, tracks⟩

theorem Answers.unharmed {call : SinkCall}
    (answers : Answers ready content texts format start ledger sink call)
    (cause : Refused format ledger call) : (call.apply sink).2 = sink := by
  rcases answers with ⟨-, fault, answer⟩ | ⟨fits⟩
  · exact congrArg Prod.snd answer
  · exact absurd cause fits

/-- Without a session a row is refused, for one cause or another. -/
theorem writeRow_closed (sink : CsvSink δ) (closed : sink.writer = none)
    (timestamp : Option Int64) (cells : Row) :
    ∃ fault, sink.writeRow timestamp cells = (.error fault, sink) := by
  rw [CsvSink.writeRow]
  split
  · exact ⟨_, rfl⟩
  · split
    · exact ⟨_, rfl⟩
    · rw [CsvSink.writeRecord, closed]
      exact ⟨_, rfl⟩

theorem writeRow_misfit {layout : Layout} {timestamp : Option Int64} {cells : Row}
    (misfit : Misfit format layout timestamp cells) (writer : Writer δ) :
    ∃ fault, (inSession format layout writer).writeRow timestamp cells =
      (.error fault, inSession format layout writer) := by
  rw [CsvSink.writeRow]
  split
  · exact ⟨_, rfl⟩
  · rename_i even
    cases misfit with
    | width unequal => exact absurd unequal even
    | untimed timed =>
      refine ⟨.sink .missingTimestamp, ?_⟩
      simp [CsvSink.timeFields, inSession, timed]
    | @moment moment _ timed style beyond =>
      rw [← rfc3339_ok_iff] at beyond
      cases shown : rfc3339 moment with
      | ok text => exact absurd ⟨text, shown⟩ beyond
      | error fault =>
        refine ⟨.sink fault, ?_⟩
        simp [CsvSink.timeFields, inSession, timed, style, TimestampStyle.text, shown, Except.map]

/-- A row that fits is written as its record. -/
theorem writeRow_fitting (delimited : texts.Delimited) {layout : Layout}
    {timestamp : Option Int64} {cells : Row} (fits : ¬ Misfit format layout timestamp cells)
    (writer : Writer δ) : (inSession format layout writer).writeRow timestamp cells =
      (inSession format layout writer).writeRecord
        (Session.record texts format layout (timestamp, cells)) := by
  have even := length_of_fitting fits
  have cellField : CsvSink.cellField = fun cell => Wire.Utf8.encode (cellText texts cell) :=
    funext (cellField_eq delimited)
  rw [CsvSink.writeRow, if_neg (not_not_intro (by exact even)), CsvSink.timeFields.eq_def,
    Session.record, ← cellField]
  cases timed : layout.timed with
  | false => simp [inSession, timed]
  | true =>
    obtain ⟨moment, text, rfl, shown⟩ := time_of_fitting fits timed
    simp [inSession, timed, Session.timeField, shown, Except.map]

/-- Behind its checks a `begin` writes the header, if there is one. -/
theorem begin_idle (format : Format) (destination : δ) (timed : Bool) (columns : Nat)
    {layout : Layout} (types : layout.paths.length = layout.types.length) :
    CsvSink.begin layout { format, output := some destination, timed, columns } =
      if format.headers then
        (inSession format layout { destination, delimiter := format.delimiter }).writeRecord
          (Session.header layout)
      else (.ok (), inSession format layout { destination, delimiter := format.delimiter }) := by
  simp [CsvSink.begin, types, inSession, Session.headerFields_eq]

section Unfailing
variable (unfailing : Unfailing ready content)
include unfailing

theorem writeRecord_inSession (layout : Layout) {writer : Writer δ} {text : Bytes}
    {width : Option Nat} (shows : Shows ready content format.delimiter writer ⟨text, {}, width⟩)
    {fields : List Bytes} (fits : width = none ∨ width = some fields.length) :
    ∃ written, (inSession format layout writer).writeRecord fields =
        (.ok (), inSession format layout written) ∧
      Shows ready content format.delimiter written
        ⟨text ++ recordText format.delimiter fields, {}, some fields.length⟩ := by
  obtain ⟨written, done, shows⟩ := Writer.writeRecord_does unfailing rfl fits writer shows
  refine ⟨written, ?_, shows⟩
  rw [CsvSink.writeRecord]
  simp only [inSession, done]
  rfl

theorem begin_answers (tracks : Tracks ready content texts format start ledger sink)
    (layout : Layout) : Answers ready content texts format start ledger sink (.begin layout) := by
  cases tracks with
  | busy current => exact .refused (.unfinished current) (.sink .sessionOpen) rfl
  | @idle destination timed columns between sound text =>
    by_cases types : layout.paths.length = layout.types.length
    · have fits : ¬ Refused format ledger (.begin layout) := not_refused_begin between types
      have began := begin_idle format destination timed columns types
      have shows : Shows ready content format.delimiter
          { destination, delimiter := format.delimiter }
          ⟨start ++ ledger.text texts format, {}, none⟩ :=
        ⟨sound, by simpa using text, rfl, rfl, rfl⟩
      have after := ledger.text_begin texts format between layout
      cases headers : format.headers with
      | false =>
        rw [headers] at began after
        refine .accepted fits _ began (.busy rfl (.inl rfl) ?_)
        rw [after]
        simpa using shows
      | true =>
        rw [headers] at began after
        obtain ⟨written, done, shows⟩ := writeRecord_inSession unfailing layout shows (.inl rfl)
        refine .accepted fits _ (began.trans done) (.busy rfl (.inr rfl) ?_)
        rw [after, ← Session.length_header]
        simpa using shows
    · refine .refused (.types types) (.sink .typesForColumns) ?_
      simp [SinkCall.apply, RowSink.begin, CsvSink.begin, types]

theorem row_answers (delimited : texts.Delimited)
    (tracks : Tracks ready content texts format start ledger sink)
    (timestamp : Option Int64) (cells : Row) :
    Answers ready content texts format start ledger sink (.row timestamp cells) := by
  cases tracks with
  | @idle destination timed columns between =>
    obtain ⟨fault, answer⟩ := writeRow_closed
      { format, output := some destination, timed, columns } rfl timestamp cells
    exact .refused (.outside between) fault answer
  | @busy layout rows writer width current narrow shows =>
    by_cases misfit : Misfit format layout timestamp cells
    · obtain ⟨fault, answer⟩ := writeRow_misfit misfit writer
      exact .refused (.misfit current misfit) fault answer
    · have even := length_record texts misfit
      rw [← even] at narrow
      obtain ⟨written, done, shows⟩ := writeRecord_inSession unfailing layout shows narrow
      have fits := not_refused_row current misfit
      have answer := (writeRow_fitting delimited misfit writer).trans done
      refine .accepted fits _ answer (.busy (by rw [Ledger.after, current]; rfl) (.inr rfl) ?_)
      rw [Ledger.text_row texts format current, ← even, ← List.append_assoc]
      exact shows

theorem finish_answers (tracks : Tracks ready content texts format start ledger sink) :
    Answers ready content texts format start ledger sink .finish := by
  have fits : ¬ Refused format ledger .finish := fun refused => nomatch refused
  have same := ledger.text_finish texts format
  cases tracks with
  | idle between sound text =>
    exact .accepted fits _ rfl (.idle rfl sound (by rw [same, text]))
  | @busy layout _ writer _ _ _ shows =>
    obtain ⟨once, flushed, -, shows⟩ := Writer.flush_shows unfailing shows
    obtain ⟨twice, again, text, shows⟩ := Writer.flush_shows unfailing shows
    have answer : SinkCall.apply (inSession format layout writer) .finish =
        (.ok (), { format, output := some twice.destination, timed := layout.timed }) := by
      simp [SinkCall.apply, RowSink.finish, CsvSink.finish, inSession, flushed, again]
    exact .accepted fits _ answer (.idle rfl shows.ready (by rw [same, text]))

theorem call_answers (delimited : texts.Delimited)
    (tracks : Tracks ready content texts format start ledger sink) (call : SinkCall) :
    Answers ready content texts format start ledger sink call := by
  cases call with
  | begin layout => exact begin_answers unfailing tracks layout
  | row timestamp cells => exact row_answers unfailing delimited tracks timestamp cells
  | finish => exact finish_answers unfailing tracks

/-- A run follows its ledger, and so does the run of its accepted calls alone. -/
theorem run_tracks (delimited : texts.Delimited)
    (tracks : Tracks ready content texts format start ledger sink)
    (fitting : Fitting format ledger) (calls : List SinkCall) :
    Tracks ready content texts format start
        ((SinkCall.accepted sink calls).foldl Ledger.after ledger) (SinkCall.run sink calls).2 ∧
      Fitting format ((SinkCall.accepted sink calls).foldl Ledger.after ledger) ∧
      SinkCall.run sink (SinkCall.accepted sink calls) =
        ((SinkCall.run sink calls).1.filter Except.isOk, (SinkCall.run sink calls).2) := by
  induction calls generalizing ledger sink with
  | nil => exact ⟨tracks, fitting, rfl⟩
  | cons call calls ih =>
    rw [SinkCall.accepted, SinkCall.run]
    rcases call_answers unfailing delimited tracks call with
      ⟨-, fault, answer⟩ | ⟨fits, after, answer, tracks⟩
    · rw [answer]
      exact ih tracks fitting
    · obtain ⟨tracks, fitting, same⟩ := ih tracks (fitting.after fits)
      rw [answer]
      refine ⟨tracks, fitting, ?_⟩
      rw [SinkCall.run, answer]
      simp only [same]
      rfl

end Unfailing

/-- A new sink after calls on it. -/
def sinkAfter (format : Format) (destination : δ) (calls : List SinkCall) : CsvSink δ :=
  (SinkCall.run (CsvSink.onto format destination) calls).2

/-- What those of the calls that it accepted have made. -/
def ledgerOf (format : Format) (destination : δ) (calls : List SinkCall) : Ledger :=
  (SinkCall.accepted (CsvSink.onto format destination) calls).foldl Ledger.after {}

/-- How a new sink stands after calls on it. -/
structure Accounted (content : δ → Bytes) (format : Format) (destination : δ)
    (calls : List SinkCall) : Prop where
  refuses : ∀ call, Refused format (ledgerOf format destination calls) call ↔
    ∃ fault, (call.apply (sinkAfter format destination calls)).1 = .error fault
  unharmed : ∀ call, Refused format (ledgerOf format destination calls) call →
    (call.apply (sinkAfter format destination calls)).2 = sinkAfter format destination calls
  /-- The accepted calls alone get the same answers and leave the same sink. -/
  traceless : SinkCall.run (CsvSink.onto format destination)
      (SinkCall.accepted (CsvSink.onto format destination) calls) =
    ((SinkCall.run (CsvSink.onto format destination) calls).1.filter Except.isOk,
      sinkAfter format destination calls)
  states : (sinkAfter format destination calls).output = none ↔
    ∃ session, (ledgerOf format destination calls).current = some session
  even : ∀ texts, ∀ session ∈ (ledgerOf format destination calls).sessions,
    ∀ fields ∈ session.records texts format, fields.length = Session.width session.layout
  /-- Whatever floats are written by, as long as it obeys the laws of texts in data files. -/
  output : ∀ texts : FloatTexts, texts.Delimited → ∃ written,
    (sinkAfter format destination (calls ++ [.finish])).output = some written ∧
    content written = content destination ++
      (ledgerOf format destination calls).sessions.flatMap (Session.text texts format)

theorem calls_accounted (unfailing : Unfailing ready content) (format : Format) {destination : δ}
    (sound : ready destination) (calls : List SinkCall) :
    Accounted content format destination calls := by
  have run {texts : FloatTexts} (delimited : texts.Delimited) :=
    run_tracks unfailing delimited (onto_tracks format sound) (nofun : Fitting format {}) calls
  obtain ⟨tracks, fitting, same⟩ := run FloatTexts.field_delimited
  have answers := call_answers unfailing FloatTexts.field_delimited tracks
  have even texts session mem := Session.length_of_mem_records texts (fitting session mem)
  refine ⟨fun call => (answers call).refused_iff, fun call => (answers call).unharmed, same,
    tracks.output_eq_none_iff, even, fun texts delimited => ?_⟩
  obtain ⟨tracks, -, -⟩ := run delimited
  obtain ⟨after, answer, tracks⟩ := (call_answers unfailing delimited tracks .finish).accepts
    fun cause => nomatch cause
  obtain ⟨written, output, text⟩ := tracks.output_of_between rfl
  rw [Ledger.text_finish] at text
  refine ⟨written, ?_, text⟩
  rw [sinkAfter, SinkCall.run_concat, answer]
  exact output

/-- Two sessions, among calls of which six are refused. -/
def strayCalls : List SinkCall := [
  .row none [],
  .begin ⟨["on"], [.boolean], true⟩,
  .begin ⟨[], [], false⟩,
  .row none [some (.boolean true)],
  .row (some 0) [],
  .row (some (-62167219200001)) [none],
  .row (some (-62167219200000)) [none],
  .finish,
  .begin ⟨["on"], [], false⟩,
  .begin ⟨["on"], [.boolean], false⟩,
  .row none [some (.boolean true)]]

theorem stray_calls_accounted :
    SinkCall.accepted (CsvSink.onto { timestamps := .rfc3339 } ({} : Store)) strayCalls = [
      .begin ⟨["on"], [.boolean], true⟩,
      .row (some (-62167219200000)) [none],
      .finish,
      .begin ⟨["on"], [.boolean], false⟩,
      .row none [some (.boolean true)]] ∧
    Accounted Store.written { timestamps := .rfc3339 } {} strayCalls :=
  ⟨by decide +kernel, calls_accounted Store.unfailing _ ⟨rfl, rfl⟩ strayCalls⟩

end Sinks
end SeriesClient.Export.Csv
