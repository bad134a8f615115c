import SeriesClient.Proofs.Paging.Demand
import SeriesClient.Proofs.Table.Acceptance

/-! The row at which the reading of a page ends. It is the row that a table of the page would be
refused for, with the same damage in the same column. The log has its number; the failure that is
answered names it as the first row, wherever it stands. -/
namespace SeriesClient.Paging
open Relation Wire
variable {σ : Type}

theorem not_broken_of_readRow {types : List DataType} {row : Bytes × Bytes} {cells : Row}
    (decoded : readRow types row = .ok cells) : ¬ Table.Broken types row := by
  rintro ⟨column, fault, refused⟩
  cases decoded.symm.trans (readRow_error_iff.mpr ⟨column, refused⟩)

namespace Cursor

/-- The rows of the page at hand, as received. -/
def page (cursor : Cursor σ) : List (Bytes × Bytes) := cursor.values.zip cursor.bitmaps

/-- The rows of the page that are used up have decoded. -/
def Decoded (cursor : Cursor σ) : Prop :=
  ∀ earlier < cursor.index, ∀ row ∈ cursor.page[earlier]?, ¬ Table.Broken cursor.types row

theorem decoded_of_fresh {cursor : Cursor σ} (fresh : cursor.index = 0) : cursor.Decoded := by
  intro earlier early
  rw [fresh] at early
  exact absurd early (Nat.not_lt_zero _)

/-- A broken row is not used up. -/
theorem Decoded.ahead {cursor : Cursor σ} (decoded : cursor.Decoded) {number column : Nat}
    {row : Bytes × Bytes} {fault : Error}
    (broken : Table.FirstBroken cursor.types cursor.page number row column fault) :
    cursor.index ≤ number := by
  apply Nat.le_of_not_lt
  intro passed
  exact decoded number passed row broken.here ⟨column, fault, broken.refused⟩

theorem lt_of_here {cursor : Cursor σ} {number : Nat} {row : Bytes × Bytes}
    (here : cursor.page[number]? = some row) : number < cursor.values.length := by
  have listed := (List.getElem?_eq_some_iff.mp here).1
  rw [page, List.length_zip] at listed
  omega

/-- With a row left, the next step decodes it by its own two buffers. -/
theorem Coherent.advance_eq {cursor : Cursor σ} (coherent : cursor.Coherent)
    (left : cursor.index < cursor.values.length) :
    ∃ row, cursor.page[cursor.index]? = some row ∧
      cursor.advance = match readRow cursor.types row with
        | .ok cells => ⟨.ok (some cells), cursor.stepped, []⟩
        | .error e => ⟨.error e, cursor.spent, [.rowDamaged cursor.index e]⟩ := by
  obtain ⟨values, bitmap, valued, masked, -⟩ := coherent.pending_eq_cons left
  refine ⟨(values, bitmap), List.getElem?_zip_eq_some.mpr ⟨valued, masked⟩, ?_⟩
  simp only [advance, valued, masked, readRow]
  rfl

variable [PageSource σ]

theorem Looks.decoded {cursor : Cursor σ} {turn : Turn σ Bool} (effect : Looks cursor turn)
    (decoded : cursor.Silent ∨ cursor.Decoded) : turn.cursor.Decoded := by
  cases effect with
  | buffered left =>
    exact decoded.resolve_left fun silent => absurd silent.used (Nat.not_le_of_lt left)
  | ended used last => exact decoded_of_fresh rfl
  | asked used more fetching => exact decoded_of_fresh fetching.index_eq

theorem Takes.types {cursor : Cursor σ} {turn : Turn σ (Except Error (Option Row))}
    (effect : Takes cursor turn) : turn.cursor.types = cursor.types := by
  cases effect with
  | nothing look => exact look.types
  | row look => exact look.types
  | damaged look => exact look.types

theorem Takes.decoded {cursor : Cursor σ} {turn : Turn σ (Except Error (Option Row))}
    (effect : Takes cursor turn) (decoded : cursor.Silent ∨ cursor.Decoded) :
    turn.cursor.Silent ∨ turn.cursor.Decoded := by
  cases effect with
  | nothing look => exact .inr (look.decoded decoded)
  | @row ready notices row cells look left atHand taken =>
    refine .inr fun earlier early other there => ?_
    rcases Nat.lt_succ_iff_lt_or_eq.mp early with early | rfl
    · exact look.decoded decoded earlier early other there
    · -- The row taken last is the one that was at hand.
      have here : ready.page[ready.index]? = some row := by
        rw [← List.head?_drop, show ready.page.drop ready.index = ready.pending from rfl, atHand]
        rfl
      cases here.symm.trans there
      exact not_broken_of_readRow taken
  | damaged look => exact .inl ⟨rfl, Nat.le_refl _⟩

theorem Looks.found {cursor : Cursor σ} {turn : Turn σ Bool} (effect : Looks cursor turn)
    {number : Nat} {row : Bytes × Bytes} (here : turn.cursor.page[number]? = some row)
    (ahead : turn.cursor.index ≤ number) : turn.answer = true := by
  cases answered : turn.answer with
  | true => rfl
  | false =>
    have ended : turn.cursor.page.length ≤ turn.cursor.index :=
      List.drop_eq_nil_iff.mp (effect.used answered)
    have listed := (List.getElem?_eq_some_iff.mp here).1
    omega

/-- A look that finds a row changes none of the later calls. -/
theorem calls_of_look {cursor : Cursor σ} (found : cursor.hasNext.answer = true) (calls : Nat) :
    cursor.answers calls = cursor.hasNext.cursor.answers calls ∧
      (cursor.after calls).tryNext = (cursor.hasNext.cursor.after calls).tryNext := by
  have left := (hasNext_effect cursor).left found
  have same : cursor.tryNext = cursor.hasNext.cursor.tryNext :=
    (tryNext_of_found found).trans (tryNext_of_left left).symm
  cases calls with
  | zero => exact ⟨rfl, same⟩
  | succ calls =>
    rw [answers, answers, after, after, same]
    exact ⟨rfl, rfl⟩

/-- The rows before the first broken one are handed out, and the call behind them fails. -/
theorem Coherent.stops {cursor : Cursor σ} (coherent : cursor.Coherent) {number column : Nat}
    {row : Bytes × Bytes} {fault : Error}
    (broken : Table.FirstBroken cursor.types cursor.page number row column fault)
    (ahead : cursor.index ≤ number) : ∃ cells : List Row, cursor.index + cells.length = number ∧
      cursor.answers cells.length = cells.map (fun row => .ok (some row)) ∧
      (cursor.after cells.length).tryNext.answer = .error fault ∧
      (cursor.after cells.length).tryNext.notices = [.rowDamaged number fault] := by
  obtain ⟨gap, rfl⟩ := Nat.exists_eq_add_of_le ahead
  induction gap generalizing cursor with
  | zero =>
    rw [Nat.add_zero] at broken ⊢
    have left := lt_of_here broken.here
    obtain ⟨other, here, advanced⟩ := coherent.advance_eq left
    cases broken.here.symm.trans here
    rw [readRow_error_iff.mpr ⟨column, broken.refused⟩, ← tryNext_of_left left] at advanced
    refine ⟨[], rfl, rfl, ?_, ?_⟩
    · rw [List.length_nil, after, advanced]
    · rw [List.length_nil, after, advanced]
  | succ gap ih =>
    have early : cursor.index < cursor.index + (gap + 1) := by omega
    have left := Nat.lt_trans early (lt_of_here broken.here)
    have step : cursor.stepped.index = cursor.index + 1 := rfl
    have next : cursor.index + (gap + 1) = cursor.stepped.index + gap := by omega
    obtain ⟨other, here, advanced⟩ := coherent.advance_eq left
    rw [← tryNext_of_left left] at advanced
    cases taken : readRow cursor.types other with
    | error e =>
      obtain ⟨column, refused⟩ := readRow_error_iff.mp taken
      exact absurd ⟨column, e, refused⟩ (broken.first _ early other here)
    | ok cells =>
      rw [taken] at advanced
      rw [next] at broken ⊢
      obtain ⟨rest, count, answered, failed⟩ := ih (coherent.stepped left)
        ⟨broken.here, broken.refused, broken.first⟩ (Nat.le_add_right _ _)
      refine ⟨cells :: rest, ?_, ?_, ?_⟩
      · rw [← count, step, List.length_cons]
        omega
      · rw [List.length_cons, answers, advanced, List.map_cons, answered]
      · rw [List.length_cons, after, advanced]
        exact failed

end Cursor

namespace Session
variable [PageSource σ]

/-- The cursor reads by these types, and goes on behind no row that it could not read. -/
structure ReadsOn (types : List DataType) (session : Session σ) : Prop where
  types : session.cursor.types = types
  decoded : session.cursor.Silent ∨ session.cursor.Decoded

theorem ReadsOn.move {types : List DataType} {session after : Session σ}
    (reads : ReadsOn types session) (move : Move session after) : ReadsOn types after := by
  obtain ⟨rfl, decoded⟩ := reads
  cases move with
  | look effect => exact ⟨effect.types, .inr (effect.decoded decoded)⟩
  | take effect => exact ⟨effect.types, effect.decoded decoded⟩
  | forget => exact ⟨rfl, decoded.imp_left fun silent => ⟨silent.exhausted, silent.used⟩⟩
  | close => exact ⟨rfl, decoded.imp_left fun silent => ⟨silent.exhausted, silent.used⟩⟩

/-- Whatever calls went before, the first broken row of the page at hand ends the reading after the
rows before it. The log and a table of the same buffers name it by its number in the page, and the
failure that is answered by row 0. -/
theorem damaged_row_misnamed {source : σ} {queryId : Int64} {paths : List String}
    {types : List DataType} {options : FetchOptions} {values bitmaps : List Bytes}
    {start : Cursor (Observed σ)} {session : Session σ}
    (opened : Cursor.withPage ⟨source, []⟩ queryId paths types options values bitmaps = .ok start)
    (run : Reaches ⟨start, [], []⟩ session) {number column : Nat} {row : Bytes × Bytes}
    {damage : Damage} (broken : Table.FirstBroken types session.cursor.hasNext.cursor.page number
      row column (.corrupted (.cell 0 column) damage)) :
    ∃ cells : List Row, session.cursor.hasNext.cursor.index + cells.length = number ∧
      session.cursor.answers (cells.length + 1) = cells.map (fun row => .ok (some row)) ++
        [.error (.corrupted (.cell 0 column) damage)] ∧
      (session.cursor.after cells.length).tryNext.notices =
        [.rowDamaged number (.corrupted (.cell 0 column) damage)] ∧
      Table.assemble paths types [] session.cursor.hasNext.cursor.values
        session.cursor.hasNext.cursor.bitmaps =
          .error (.corrupted (.cell number column) damage) := by
  have coherent := run.coherent (Cursor.withPage_coherent opened)
  have declared := (Cursor.withPage_eq_ok.mp opened).1
  have begun : ReadsOn types ⟨start, [], []⟩ := by
    obtain ⟨-, -, rfl⟩ := Cursor.withPage_eq_ok.mp opened
    exact ⟨rfl, .inr (Cursor.decoded_of_fresh rfl)⟩
  obtain ⟨reading, decoded⟩ := run.keeps (fun move reads => reads.move move)
    (Cursor.withPage_coherent opened) begun
  have look := Cursor.hasNext_effect session.cursor
  have ready := look.coherent coherent
  have typed := look.types.trans reading
  have ahead := (look.decoded decoded).ahead (typed ▸ broken)
  have found := look.found broken.here ahead
  obtain ⟨cells, count, answered, failed, reported⟩ := ready.stops (typed ▸ broken) ahead
  obtain ⟨-, same⟩ := Cursor.calls_of_look found cells.length
  refine ⟨cells, count, ?_, ?_, ?_⟩
  · rw [(Cursor.calls_of_look found _).1, Cursor.answers_add, answered, Cursor.answers, failed]
    rfl
  · rw [same, reported]
  · exact Table.assemble_error_iff.mpr (.row declared ready.paired rfl (.inl rfl) broken.here
      broken.refused broken.first)

/-- A page of three rows, the last of them cut short. -/
def breaking : Script where
  pages := [.ok ⟨[[0], [1], []], [[1], [1], [1]], true⟩]
  closings := []

/-- One row that came along was taken, and one of the page. -/
def broken : Session Script :=
  let opened : Session Script :=
    { cursor :=
        { source := ⟨breaking, []⟩, queryId := 7, options := {}, paths := ["pump"],
          types := [.boolean], values := [[1]], bitmaps := [[1]] } }
  opened.tryNext.hasNext.tryNext

theorem broken_row_misnamed :
    Table.FirstBroken [.boolean] broken.cursor.hasNext.cursor.page 2 ([], [1]) 0
      (.corrupted (.cell 0 0) (.shortRead 1 0 0)) ∧
    ∃ cells : List Row, cells.length = 1 ∧
      broken.cursor.answers (cells.length + 1) = cells.map (fun row => .ok (some row)) ++
        [.error (.corrupted (.cell 0 0) (.shortRead 1 0 0))] ∧
      Table.assemble ["pump"] [.boolean] [] [[0], [1], []] [[1], [1], [1]] =
        .error (.corrupted (.cell 2 0) (.shortRead 1 0 0)) := by
  have run : Reaches _ broken := .tail (.tail (.single (.tryNext _)) (.hasNext _)) (.tryNext _)
  have refused : RefusedIn [.boolean] ([], [1]) 0 (.corrupted (.cell 0 0) (.shortRead 1 0 0)) :=
    .unreadable rfl (walked_nil.mpr ⟨rfl, rfl⟩) (by decide) (.value rfl (by decide))
  have first : Table.FirstBroken [.boolean] broken.cursor.hasNext.cursor.page 2 ([], [1]) 0
      (.corrupted (.cell 0 0) (.shortRead 1 0 0)) := by
    refine ⟨by rfl, refused, ?_⟩
    intro earlier early row there
    match earlier, early with
    | 0, _ =>
      obtain rfl : ([0], [1]) = row := Option.some.inj there
      exact not_broken_of_readRow rfl
    | 1, _ =>
      obtain rfl : ([1], [1]) = row := Option.some.inj there
      exact not_broken_of_readRow rfl
  obtain ⟨cells, count, answers, -, assembled⟩ := @damaged_row_misnamed Script _ breaking 7
    ["pump"] [.boolean] {} [[1]] [[1]] _ broken rfl run 2 0 ([], [1]) (.shortRead 1 0 0) first
  exact ⟨first, cells, Nat.add_left_cancel count, answers, assembled⟩

/-- A row that is damaged behind a sound one is answered as row 0. -/
theorem second_row_named_first :
    let cursor : Cursor Script :=
      { source := breaking, queryId := 7, options := {}, paths := ["pump"], types := [.boolean],
        values := [[1], []], bitmaps := [[1], [1]] }
    cursor.answers 2 = [.ok (some [some (.boolean true)]),
      .error (.corrupted (.cell 0 0) (.shortRead 1 0 0))] ∧
    (cursor.after 1).tryNext.notices =
      [.rowDamaged 1 (.corrupted (.cell 0 0) (.shortRead 1 0 0))] ∧
    Table.assemble cursor.paths cursor.types [] cursor.values cursor.bitmaps =
      .error (.corrupted (.cell 1 0) (.shortRead 1 0 0)) ∧
    Error.corrupted (.cell 0 0) (.shortRead 1 0 0) ≠ .corrupted (.cell 1 0) (.shortRead 1 0 0) :=
  ⟨by rfl, by rfl, by rfl, by decide⟩

end Session
end SeriesClient.Paging
