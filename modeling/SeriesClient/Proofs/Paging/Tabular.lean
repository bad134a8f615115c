import SeriesClient.Proofs.Paging.Cuts
import SeriesClient.Proofs.Table.Assembly

/-! Reading page by page agrees with reading a whole table, wherever the pages are cut: the same
rows, the same failure, and nothing asked for that is not needed. -/
namespace SeriesClient.Paging
open Export Wire
variable {σ κ : Type} [PageSource σ]

namespace Cursor

/-- The cursor after some calls of `tryNext`. -/
def after (cursor : Cursor σ) : (calls : Nat) → Cursor σ
  | 0 => cursor
  | calls + 1 => cursor.tryNext.cursor.after calls

/-- The answers to some calls of `tryNext`. -/
def answers (cursor : Cursor σ) : (calls : Nat) → List (Except Error (Option Row))
  | 0 => []
  | calls + 1 => cursor.tryNext.answer :: cursor.tryNext.cursor.answers calls

theorem after_add (cursor : Cursor σ) (first more : Nat) :
    cursor.after (first + more) = (cursor.after first).after more := by
  induction first generalizing cursor with
  | zero => rw [Nat.zero_add, after]
  | succ first ih => rw [Nat.succ_add, after, after, ih]

theorem answers_add (cursor : Cursor σ) (first more : Nat) :
    cursor.answers (first + more) = cursor.answers first ++ (cursor.after first).answers more := by
  induction first generalizing cursor with
  | zero => rw [Nat.zero_add, answers, after, List.nil_append]
  | succ first ih => rw [Nat.succ_add, answers, answers, after, ih, List.cons_append]

/-- These rows are still to come, and in the end the source will have this record. -/
structure Ahead (types : List DataType) (record : List Exchange) (rows : List (Bytes × Bytes))
    (cursor : Cursor (Observed σ)) : Prop where
  types : cursor.types = types
  pages : ∃ pages, cursor.Faces pages ∧ cursor.forecast pages = record ∧
    cursor.remaining pages = rows

theorem Looks.types {cursor : Cursor σ} {turn : Turn σ Bool} (effect : Looks cursor turn) :
    turn.cursor.types = cursor.types := by
  cases effect with
  | buffered left => rfl
  | ended used last => rfl
  | asked used more fetching => cases fetching <;> rfl

theorem Faces.spent {cursor : Cursor (Observed σ)} {pages : List Page}
    (faces : cursor.Faces pages) : cursor.spent.Faces [] :=
  ⟨faces.coherent.spent, trivial, .inl ⟨rfl, rfl⟩⟩

/-- What the next call answers when `rows` are still to come. A row that does not decode takes the
rest of the result with it. -/
inductive Reads (types : List DataType) (record : List Exchange) : List (Bytes × Bytes) →
    Turn (Observed σ) (Except Error (Option Row)) → Prop
  | finished {ended : Cursor (Observed σ)} {notices : List Notice}
      (ahead : Ahead types record [] ended) (last : ended.availability = .exhausted) (recorded : ended.source.exchanges = record) :
      Reads types record [] ⟨.ok none, ended, notices⟩
  | row {row : Bytes × Bytes} {rest : List (Bytes × Bytes)} {cells : Row}
      {next : Cursor (Observed σ)} {notices : List Notice}
      (decoded : readRow types row = .ok cells) (ahead : Ahead types record rest next) :
      Reads types record (row :: rest) ⟨.ok (some cells), next, notices⟩
  | damaged {row : Bytes × Bytes} {rest : List (Bytes × Bytes)} {e : Error}
      {spent : Cursor (Observed σ)} {notices : List Notice} (refused : readRow types row = .error e)
      (ahead : Ahead types spent.source.exchanges [] spent) :
      Reads types record (row :: rest) ⟨.error e, spent, notices⟩

theorem Ahead.reads {types : List DataType} {record : List Exchange} {rows : List (Bytes × Bytes)}
    {cursor : Cursor (Observed σ)} (ahead : Ahead types record rows cursor) :
    Reads types record rows cursor.tryNext := by
  obtain ⟨rfl, pages, faces, rfl, rfl⟩ := ahead
  have taking := tryNext_effect faces.coherent
  generalize cursor.tryNext = turn at taking
  cases taking with
  | @nothing ended notices look =>
    obtain ⟨pages', facing, same, rows, none⟩ := look.faces faces
    -- No row is left, so no page is, and the record is what was foretold.
    cases none rfl
    have nothing : cursor.remaining pages = [] := by
      rw [← rows, remaining, look.used rfl]
      rfl
    rw [nothing] at rows ⊢
    refine .finished ⟨look.types, [], facing, same, rows⟩ facing.exhausted ?_
    rw [← same, forecast, List.map_nil, List.append_nil]
  | @row ready notices row cells look left atHand decoded =>
    obtain ⟨pages', facing, same, rows, none⟩ := look.faces faces
    rw [← rows, remaining, atHand]
    rw [look.types] at decoded
    exact .row decoded ⟨look.types, pages', ⟨facing.coherent.stepped left, facing.served,
      facing.ending⟩, same, rfl⟩
  | @damaged ready notices row e look left atHand refused =>
    obtain ⟨pages', facing, same, rows, none⟩ := look.faces faces
    rw [← rows, remaining, atHand]
    rw [look.types] at refused
    refine .damaged refused ⟨look.types, [], facing.spent, ?_, ?_⟩
    · rw [forecast, List.map_nil, List.append_nil]
    · rw [remaining, pending_spent]
      rfl

namespace Ahead
variable {types : List DataType} {record : List Exchange} {cursor : Cursor (Observed σ)}

/-- At the end there is no row any more, however often one is asked for. -/
theorem finished (ahead : Ahead types record [] cursor) (calls : Nat) :
    cursor.answers calls = List.replicate calls (.ok none) ∧
      Ahead types record [] (cursor.after calls) := by
  induction calls generalizing cursor with
  | zero => exact ⟨rfl, ahead⟩
  | succ calls ih =>
    have reading := ahead.reads
    rw [answers, after, List.replicate_succ]
    generalize cursor.tryNext = turn at reading
    cases reading with
    | finished ahead last recorded =>
      obtain ⟨answered, left⟩ := ih ahead
      exact ⟨congrArg _ answered, left⟩

theorem ended (ahead : Ahead types record [] cursor) (calls : Nat) :
    (cursor.after (calls + 1)).availability = .exhausted ∧
      (cursor.after (calls + 1)).source.exchanges = record := by
  rw [after_add]
  have reading := (ahead.finished calls).2.reads
  change (cursor.after calls).tryNext.cursor.availability = _ ∧ _
  rw [after, after]
  generalize (cursor.after calls).tryNext = turn at reading
  cases reading with
  | finished ahead last recorded => exact ⟨last, recorded⟩

/-- Rows that decode are handed out one by one, and leave what is behind them. -/
theorem front {front rest : List (Bytes × Bytes)} {rows : List Row}
    (ahead : Ahead types record (front ++ rest) cursor)
    (decoded : front.map (readRow types) = rows.map .ok) :
    cursor.answers rows.length = rows.map (fun row => .ok (some row)) ∧
      Ahead types record rest (cursor.after rows.length) := by
  induction rows generalizing front cursor with
  | nil =>
    cases List.map_eq_nil_iff.mp decoded
    exact ⟨rfl, ahead⟩
  | cons cells rows ih =>
    obtain ⟨row, others, rfl, first, decoded⟩ := List.map_eq_cons_iff.mp decoded
    have reading := ahead.reads
    rw [List.length_cons, answers, after, List.map_cons]
    generalize cursor.tryNext = turn at reading
    cases reading with
    | row found ahead =>
      cases first.symm.trans found
      obtain ⟨answered, left⟩ := ih ahead decoded
      exact ⟨congrArg _ answered, left⟩
    | damaged refused ahead => cases first.symm.trans refused

variable [RowSink κ]

/-- Draining is writing: the sink sees the rows of a table without timestamps. -/
theorem drainRows {received : List (Bytes × Bytes)} {rows : List Row} {sink : κ} {fuel : Nat}
    (ahead : Ahead types record received cursor)
    (decoded : received.map (readRow types) = rows.map .ok) (enough : rows.length < fuel) :
    ∃ drained, cursor.drainRows sink fuel = some drained ∧
      (drained.answer, drained.sink) = match RowSink.writeRows [] rows sink with
        | (.ok (), sink) => RowSink.finish sink
        | refused => refused := by
  induction fuel generalizing cursor received rows sink with
  | zero => exact absurd enough (Nat.not_lt_zero _)
  | succ fuel ih =>
    have reading := ahead.reads
    rw [Cursor.drainRows]
    generalize cursor.tryNext = turn at reading
    cases reading with
    | finished later last recorded =>
      cases List.map_eq_nil_iff.mp decoded.symm
      exact ⟨_, rfl, rfl⟩
    | @row row rest cells next notices found later =>
      obtain ⟨cells', others, rfl, first, behind⟩ := List.map_eq_cons_iff.mp decoded.symm
      cases first.trans found
      rw [RowSink.writeRows, List.head?_nil, List.tail_nil]
      rcases written : RowSink.writeRow none cells sink with ⟨e | ok, sink'⟩
      · exact ⟨⟨.error e, next, sink', notices⟩, by simp only [written], rfl⟩
      · obtain ⟨drained, ran, same⟩ := ih later behind.symm (Nat.lt_of_succ_lt_succ enough)
        refine ⟨{ drained with notices := notices ++ drained.notices }, ?_, same⟩
        simp only [written, ran, Option.map_some]
    | damaged refused later =>
      obtain ⟨cells, others, rfl, first, decoded⟩ := List.map_eq_cons_iff.mp decoded.symm
      cases first.trans refused

end Ahead

/-- The cursor hands out the rows of a table and then its end, and writes the table into any sink.
By then the source has this record, and there is nothing left to ask for. -/
structure ReadsTable (start : Cursor (Observed σ)) (table : Table) (record : List Exchange) :
    Prop where
  answers : start.answers (table.rowCount + 1) =
    table.rows.map (fun row => .ok (some row)) ++ [.ok none]
  fetched : (start.after (table.rowCount + 1)).source.exchanges = record
  exhausted : (start.after (table.rowCount + 1)).availability = .exhausted
  drained : ∀ {κ : Type} [RowSink κ] (sink : κ) (fuel : Nat), table.rowCount < fuel →
    ∃ drained, start.drainInto sink fuel = some drained ∧
      (drained.answer, drained.sink) = table.writeTo sink

/-- The cursor hands out rows and then a failure. After that there is never another row, and the
source is left alone. -/
structure StopsBehind (start : Cursor (Observed σ)) (rows : List Row) (fault : Error) : Prop where
  answers : start.answers (rows.length + 1) =
    rows.map (fun row => .ok (some row)) ++ [.error fault]
  silent : ∀ calls, (start.after (rows.length + 1)).answers calls =
    List.replicate calls (.ok none)
  quiet : ∀ calls, (start.after (rows.length + 1 + calls)).source.exchanges =
    (start.after (rows.length + 1)).source.exchanges

namespace Ahead
variable {types : List DataType} {record : List Exchange} {received : List (Bytes × Bytes)}
  {rows : List Row} {start : Cursor (Observed σ)}

theorem readsTable (ahead : Ahead types record received start)
    (decoded : received.map (readRow types) = rows.map .ok) :
    start.ReadsTable ⟨start.paths, types, [], rows⟩ record := by
  have whole : Ahead types record (received ++ []) start := by rwa [List.append_nil]
  obtain ⟨answered, done⟩ := whole.front decoded
  obtain ⟨exhausted, fetched⟩ := done.ended 0
  rw [← after_add] at exhausted fetched
  refine ⟨?_, fetched, exhausted, ?_⟩
  · rw [Table.rowCount, answers_add, answered, (done.finished 1).1]
    rfl
  · intro κ _ sink fuel enough
    rcases begun : RowSink.begin ⟨start.paths, types, false⟩ sink with ⟨e | ok, sink'⟩
    · refine ⟨⟨.error e, start, sink', []⟩, ?_, ?_⟩
      · simp only [drainInto, ahead.types, begun]
      · simp only [Table.writeTo, RowSink.session, Table.timed, List.isEmpty_nil, Bool.not_true,
          begun]
    · simp only [drainInto, ahead.types, Table.writeTo, RowSink.session, Table.timed,
        List.isEmpty_nil, Bool.not_true, begun]
      exact ahead.drainRows decoded enough

theorem stopsBehind {fault : Error} (ahead : Ahead types record received start)
    (fails : Table.FailsBehind types received rows fault) : start.StopsBehind rows fault := by
  obtain ⟨row, rest, whole, refused⟩ := fails.split
  rw [whole] at ahead
  obtain ⟨answered, atFault⟩ := ahead.front fails.before
  have reading := atFault.reads
  have next : start.after (rows.length + 1) = (start.after rows.length).tryNext.cursor :=
    after_add start rows.length 1
  have answer : start.answers (rows.length + 1) =
      rows.map (fun row => .ok (some row)) ++ [(start.after rows.length).tryNext.answer] := by
    rw [answers_add, answered]
    rfl
  generalize (start.after rows.length).tryNext = turn at reading next answer
  cases reading with
  | row decoded later => cases refused.symm.trans decoded
  | @damaged _ _ e spent notices broken later =>
    cases refused.symm.trans broken
    refine ⟨answer, ?_, ?_⟩
    · intro calls
      rw [next]
      exact (later.finished calls).1
    · intro calls
      rw [after_add, next]
      cases calls with
      | zero => rfl
      | succ calls => exact (later.ended calls).2

end Ahead

/-- A cursor that is opened on a result has all of it ahead. -/
theorem withPage_ahead {source : σ} {queryId : Int64} {paths : List String}
    {types : List DataType} {options : FetchOptions} {values bitmaps : List Bytes}
    {pages : List Page} {start : Cursor (Observed σ)}
    (opened : withPage ⟨source, []⟩ queryId paths types options values bitmaps = .ok start)
    (cut : Cut pages) (served : Serves (options.request queryId) pages source) :
    Ahead types (pages.map fun page => .fetched (options.request queryId) (.ok page))
      (values.zip bitmaps ++ pages.flatMap Page.rows) start := by
  have coherent := withPage_coherent opened
  obtain ⟨-, -, rfl⟩ := withPage_eq_ok.mp opened
  exact ⟨rfl, pages, ⟨coherent, served, .inr ⟨Availability.noConfusion, cut⟩⟩, rfl, rfl⟩

/-- However a result is cut into pages, reading it page by page is reading the table that would be
assembled of all its rows, or failing in the row that the table would be refused for. -/
theorem withPage_reads_assembled {source : σ} {queryId : Int64} {paths : List String}
    {types : List DataType} {options : FetchOptions} {values bitmaps : List Bytes}
    {pages : List Page} (declared : paths.length = types.length)
    (paired : values.length = bitmaps.length) (cut : Cut pages)
    (served : Serves (options.request queryId) pages source) :
    ∃ start : Cursor (Observed σ),
      withPage ⟨source, []⟩ queryId paths types options values bitmaps = .ok start ∧
      match Table.assemble paths types [] (values ++ pages.flatMap Page.values)
        (bitmaps ++ pages.flatMap Page.bitmaps) with
      | .ok table => start.ReadsTable table
          (pages.map fun page => .fetched (options.request queryId) (.ok page))
      | .error e => ∃ rows place damage,
          Table.FailsBehind types (values.zip bitmaps ++ pages.flatMap Page.rows) rows
            (.corrupted place damage) ∧
          e = (Error.corrupted place damage).inRow rows.length ∧
          start.StopsBehind rows (.corrupted place damage) := by
  obtain ⟨start, opened⟩ : ∃ start : Cursor (Observed σ),
      withPage ⟨source, []⟩ queryId paths types options values bitmaps = .ok start :=
    ⟨_, withPage_eq_ok.mpr ⟨declared, paired, rfl⟩⟩
  refine ⟨start, opened, ?_⟩
  have ahead := withPage_ahead opened cut served
  have pairs : (values ++ pages.flatMap Page.values).length =
      (bitmaps ++ pages.flatMap Page.bitmaps).length := by
    rw [List.length_append, List.length_append, paired, cut.paired_buffers]
  rw [Table.assemble_eq declared pairs rfl (.inl rfl), List.zip_append paired, cut.zip_buffers]
  cases assembled : Table.decodeRows types 0 (values.zip bitmaps ++ pages.flatMap Page.rows) with
  | ok rows =>
    have reads := ahead.readsTable (Table.decodeRows_ok assembled)
    obtain ⟨-, -, rfl⟩ := withPage_eq_ok.mp opened
    exact reads
  | error e =>
    obtain ⟨rows, fault, fails, rfl⟩ := Table.decodeRows_error assembled
    obtain ⟨row, rest, -, refused⟩ := fails.split
    rw [Nat.zero_add]
    cases readRow_error refused with
    | cell column damage => exact ⟨rows, _, _, fails, rfl, ahead.stopsBehind fails⟩
    | mask damage => exact ⟨rows, _, _, fails, rfl, ahead.stopsBehind fails⟩

/-- A source with one row on its first page, a second row on it or not, and an empty last page. -/
def serving (second : Bytes) : Script where
  pages := [.ok ⟨[[0], second], [[1], [1]], true⟩, .ok ⟨[], [], false⟩]
  closings := []

theorem serving_reads_assembled :
    (∃ start : Cursor (Observed Script),
      withPage ⟨serving [1], []⟩ 7 ["pump"] [.boolean] {} [[1]] [[1]] = .ok start ∧
      start.ReadsTable ⟨["pump"], [.boolean], [],
          [[some (.boolean true)], [some (.boolean false)], [some (.boolean true)]]⟩
        [.fetched ⟨7, 1000⟩ (.ok ⟨[[0], [1]], [[1], [1]], true⟩),
          .fetched ⟨7, 1000⟩ (.ok ⟨[], [], false⟩)]) ∧
    ∃ start : Cursor (Observed Script),
      withPage ⟨serving [], []⟩ 7 ["pump"] [.boolean] {} [[1]] [[1]] = .ok start ∧
      ∃ rows place damage, Error.corrupted (.cell 2 0) (.shortRead 1 0 0) =
          (Error.corrupted place damage).inRow rows.length ∧
        start.StopsBehind rows (.corrupted place damage) := by
  have cut (second : Bytes) : Cut [⟨[[0], second], [[1], [1]], true⟩, ⟨[], [], false⟩] :=
    .more rfl (List.cons_ne_nil _ _) rfl (.last rfl rfl)
  have served (second : Bytes) : Serves ⟨7, 1000⟩
      [⟨[[0], second], [[1], [1]], true⟩, ⟨[], [], false⟩] (serving second) :=
    ⟨_, rfl, _, rfl, trivial⟩
  constructor
  · obtain ⟨start, opened, reads⟩ := @withPage_reads_assembled Script _ (serving [1]) 7 ["pump"]
      [.boolean] {} [[1]] [[1]] _ rfl rfl (cut [1]) (served [1])
    exact ⟨start, opened, reads⟩
  · obtain ⟨start, opened, rows, place, damage, fails, named, stops⟩ :=
      @withPage_reads_assembled Script _ (serving []) 7 ["pump"]
        [.boolean] {} [[1]] [[1]] _ rfl rfl (cut []) (served [])
    exact ⟨start, opened, rows, place, damage, named, stops⟩

end Cursor
end SeriesClient.Paging
