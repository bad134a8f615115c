import SeriesClient.Proofs.Export.Csv.Reading
import SeriesClient.Proofs.Export.Csv.Sessions
import SeriesClient.Proofs.Table.Acceptance

/-! A table as delimited text is read back as its header and its rows. Nothing in a field, be it a
delimiter, a quote or the end of a line, can be taken for a part of the layout. -/
namespace SeriesClient.Export.Csv

/-- The fields of a table, record by record. -/
def tableFields (texts : FloatTexts) (headers : Bool) (table : Table) : List (List String) :=
  (if headers then [(if table.timed then ["Time"] else []) ++ table.paths] else []) ++
    if table.timed then
      (table.timestamps.zip table.rows).map fun (timestamp, row) =>
        toString timestamp.toInt :: row.map (cellText texts)
    else table.rows.map (·.map (cellText texts))

/-- Rows as a sink is given them, each with its timestamp if there is one left. -/
def paired (timestamps : List Int64) : List Row → List (Option Int64 × Row)
  | [] => []
  | row :: rows => (timestamps.head?, row) :: paired timestamps.tail rows

theorem paired_nil (rows : List Row) : paired [] rows = rows.map (none, ·) := by
  induction rows with
  | nil => rfl
  | cons row rows ih => rw [paired, List.tail_nil, ih, List.map_cons, List.head?_nil]

theorem paired_eq_zip {timestamps : List Int64} {rows : List Row}
    (counted : timestamps.length = rows.length) :
    paired timestamps rows =
      (timestamps.zip rows).map fun (timestamp, row) => (some timestamp, row) := by
  induction rows generalizing timestamps with
  | nil => simp [paired]
  | cons row rows ih =>
    cases timestamps with
    | nil => cases counted
    | cons timestamp timestamps =>
      rw [paired, List.tail_cons, ih (Nat.succ.inj counted)]
      rfl

section Sinks
variable {δ : Type} [Destination δ] {ready : δ → Prop} {content : δ → Bytes} {texts : FloatTexts}
  {format : Format} {start : Bytes}

/-- Rows that fit are all taken, one behind the other. -/
theorem writeRows_tracks (unfailing : Unfailing ready content) (delimited : texts.Delimited)
    {layout : Layout}
    {timestamps : List Int64} {rows : List Row}
    (fits : ∀ row ∈ paired timestamps rows, ¬ Misfit format layout row.1 row.2)
    {finished : List Session} {before : List (Option Int64 × Row)} {sink : CsvSink δ}
    (tracks : Tracks ready content texts format start ⟨finished, some ⟨layout, before⟩⟩ sink) :
    ∃ after, RowSink.writeRows timestamps rows sink = (.ok (), after) ∧
      Tracks ready content texts format start
        ⟨finished, some ⟨layout, before ++ paired timestamps rows⟩⟩ after := by
  induction rows generalizing timestamps before sink with
  | nil =>
    rw [paired, List.append_nil]
    exact ⟨sink, rfl, tracks⟩
  | cons row rows ih =>
    rw [paired, List.forall_mem_cons] at fits
    have taken := (row_answers unfailing delimited tracks timestamps.head? row).accepts
      (not_refused_row rfl fits.1)
    obtain ⟨halfway, answer, tracks⟩ := taken
    obtain ⟨after, answers, tracks⟩ := ih fits.2 tracks
    refine ⟨after, ?_, by simpa [paired] using tracks⟩
    rw [RowSink.writeRows, show RowSink.writeRow timestamps.head? row sink = _ from answer]
    exact answers

/-- A session of rows that fit is written whole. -/
theorem session_written (unfailing : Unfailing ready content) {layout : Layout}
    (typed : layout.paths.length = layout.types.length) {timestamps : List Int64}
    {rows : List Row} (fits : ∀ row ∈ paired timestamps rows, ¬ Misfit format layout row.1 row.2)
    {destination : δ} (sound : ready destination) :
    ∃ after written,
      RowSink.session layout timestamps rows (CsvSink.onto format destination) = (.ok (), after) ∧
      after.output = some written ∧ content written = content destination ++
        Session.text FloatTexts.field format ⟨layout, paired timestamps rows⟩ := by
  obtain ⟨opened, began, tracks⟩ :=
    (begin_answers unfailing (onto_tracks format sound) layout).accepts
      (not_refused_begin rfl typed)
  obtain ⟨filled, wrote, tracks⟩ :=
    writeRows_tracks unfailing FloatTexts.field_delimited fits tracks
  obtain ⟨after, finished, tracks⟩ := (finish_answers unfailing tracks).accepts nofun
  obtain ⟨written, output, text⟩ := tracks.output_of_between rfl
  refine ⟨after, written, ?_, output, ?_⟩
  · rw [RowSink.session, show RowSink.begin layout _ = _ from began]
    simp only [wrote]
    exact finished
  · rw [text, Ledger.text_finish]
    simp [Ledger.text, Ledger.sessions]

end Sinks

section Table
variable {table : Table}
  (counted : table.timestamps = [] ∨ table.timestamps.length = table.rows.length)
include counted

theorem paired_fit (delimiter : UInt8) (headers : Bool)
    (wide : ∀ cells ∈ table.rows, cells.length = table.paths.length) :
    ∀ row ∈ paired table.timestamps table.rows,
      ¬ Misfit { delimiter, headers, timestamps := .raw }
        ⟨table.paths, table.types, table.timed⟩ row.1 row.2 := by
  rintro ⟨timestamp, cells⟩ mem misfit
  rcases counted with untimed | counted
  · rw [untimed, paired_nil, List.mem_map] at mem
    obtain ⟨cells, mem, same⟩ := mem
    cases same
    cases misfit with
    | width unequal => exact unequal (wide cells mem)
    | untimed timed => simp [Table.timed, untimed] at timed
  · rw [paired_eq_zip counted, List.mem_map] at mem
    obtain ⟨⟨timestamp, cells⟩, mem, same⟩ := mem
    cases same
    cases misfit with
    | width unequal => exact unequal (wide cells (List.of_mem_zip mem).2)
    | moment _ style => cases style

theorem records_table (texts : FloatTexts) (delimiter : UInt8) (headers : Bool) :
    Session.records texts { delimiter, headers, timestamps := .raw }
        ⟨⟨table.paths, table.types, table.timed⟩, paired table.timestamps table.rows⟩ =
      (tableFields texts headers table).map (·.map Wire.Utf8.encode) := by
  rw [Session.records, tableFields, List.map_append]
  congr 1
  · cases headers <;> simp [Session.header]
  · cases timed : table.timed with
    | false =>
      have untimed : table.timestamps = [] := by simpa [Table.timed] using timed
      simp [untimed, paired_nil, Session.record]
    | true =>
      have counted := counted.resolve_left fun none => by simp [Table.timed, none] at timed
      simp [paired_eq_zip counted, Session.record, Session.timeField, TimestampStyle.text]

end Table

/-- A table from a response, as long as its records have a field, is read back from its text. -/
theorem writeTo_reads_back {δ : Type} [Destination δ] {ready : δ → Prop} {content : δ → Bytes}
    (unfailing : Unfailing ready content) {destination : δ} (sound : ready destination)
    {paths : List String} {types : List DataType} {timestamps : Bytes} {values bitmaps : List Bytes}
    {table : Table} (assembled : Table.assemble paths types timestamps values bitmaps = .ok table)
    (some : table.timed = true ∨ table.paths ≠ []) {delimiter : UInt8}
    (apart : delimiter ≠ quote ∧ delimiter ≠ carriageReturn ∧ delimiter ≠ lineFeed)
    (headers : Bool) :
    ∃ sink written text,
      table.writeTo (CsvSink.onto { delimiter, headers, timestamps := .raw } destination) =
        (.ok (), sink) ∧
      sink.output = .some written ∧ content written = content destination ++ text ∧
      ∀ texts : FloatTexts, texts.Delimited → ∀ skipsBlank,
        readRecords skipsBlank delimiter text =
          .some ((tableFields texts headers table).map (·.map Wire.Utf8.encode)) := by
  have shape := Table.assembled_of_assemble assembled
  have declared : table.paths.length = table.types.length := by
    rw [shape.named, shape.typed, shape.declared]
  have wide : ∀ cells ∈ table.rows, cells.length = table.paths.length := by
    intro cells mem
    rw [shape.width cells mem, shape.named, shape.declared]
  have fit := paired_fit shape.counted delimiter headers wide
  obtain ⟨sink, written, done, output, text⟩ := session_written unfailing declared fit sound
  refine ⟨sink, written, _, done, output, text, fun texts delimited skipsBlank => ?_⟩
  obtain rfl := FloatTexts.field_delimited.unique delimited
  rw [← records_table shape.counted]
  apply readRecords_texts skipsBlank (recordText_laws delimiter) ⟨apart.1, apart.2.2⟩
  intro fields mem
  apply List.ne_nil_of_length_pos
  rw [Session.length_of_mem_records _ fit fields mem]
  exact Session.width_pos some

/-- Between its fields stands the digit one, which its numbers hold too; so does a path. -/
def pumped : Table := ⟨["pump 1", "\"on\"\n", "note", "count", "rate", "load"],
  [.integer, .boolean, .binary, .long, .float, .double], [1, 11], [
    [some (.integer 112), some (.boolean true), some (.binary "é,\"1\""), some (.long (-10)),
      some (.float ⟨0x3dcccccd⟩), some (.double ⟨0x4415af1d78b58c40⟩)],
    [none, none, some (.binary ""), none, some (.float ⟨0xff800000⟩), none]]⟩

/-- The texts of its cells. -/
def pumpedFields : List (List String) := [
  ["Time", "pump 1", "\"on\"\n", "note", "count", "rate", "load"],
  ["1", "112", "true", "é,\"1\"", "-10", "0.1", "1e20"],
  ["11", "", "", "", "", "-inf", ""]]

theorem pumped_reads_back : ∃ sink written text,
    pumped.writeTo (CsvSink.onto { delimiter := 49 } ({} : Store)) = (.ok (), sink) ∧
    sink.output = some written ∧ written.written = text ∧
    ∀ skipsBlank, readRecords skipsBlank 49 text =
      some (pumpedFields.map (·.map Wire.Utf8.encode)) := by
  have assembled : Table.assemble pumped.paths pumped.types
      [0, 0, 0, 0, 0, 0, 0, 1, 0, 0, 0, 0, 0, 0, 0, 11]
      [[0, 0, 0, 112, 1, 0, 0, 0, 6, 195, 169, 44, 34, 49, 34, 255, 255, 255, 255, 255, 255, 255,
        246, 61, 204, 204, 205, 68, 21, 175, 29, 120, 181, 140, 64],
        [0, 0, 0, 0, 255, 128, 0, 0]] [[63], [20]] =
      .ok pumped := by decide +kernel
  have fields : tableFields FloatTexts.field true pumped = pumpedFields := by decide +kernel
  have sound : ({} : Store).limit = none ∧ ({} : Store).refusedFlush = none := ⟨rfl, rfl⟩
  obtain ⟨sink, written, text, done, output, added, read⟩ :=
    writeTo_reads_back Store.unfailing sound assembled (.inl rfl)
      (show (49 : UInt8) ≠ quote ∧ 49 ≠ carriageReturn ∧ 49 ≠ lineFeed by decide) true
  have read := read FloatTexts.field FloatTexts.field_delimited
  rw [fields] at read
  exact ⟨sink, written, text, done, output, added, read⟩

end SeriesClient.Export.Csv
