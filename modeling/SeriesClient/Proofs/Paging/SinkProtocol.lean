import SeriesClient.Proofs.Export.Protocol
import SeriesClient.Proofs.Paging.DamagedRow
import SeriesClient.Proofs.Paging.Tabular

/-! What a drain tells its sink, and where it leaves the cursor. It keeps to the protocol, as the
writing of a table does. A row that its sink refuses is used up, and the reading goes on behind it;
a row that does not decode ends the drain behind those before it. -/
namespace SeriesClient.Paging
open Export Wire
variable {σ κ κ' : Type}

/-- The drain as it is seen through a view of its sink. -/
def Drained.seen (view : κ → κ') (drained : Drained σ κ) : Drained σ κ' :=
  { drained with sink := view drained.sink }

namespace Cursor
variable [PageSource σ]

section Views
variable [RowSink κ] [RowSink κ'] {view : κ → κ'} (faithful : RowSink.View view)
include faithful

theorem drainRows_view (cursor : Cursor σ) (sink : κ) (fuel : Nat) :
    cursor.drainRows (view sink) fuel = (cursor.drainRows sink fuel).map (Drained.seen view) := by
  induction fuel generalizing cursor sink with
  | zero => rfl
  | succ fuel ih =>
    rw [drainRows, drainRows]
    rcases cursor.tryNext with ⟨e | none | row, next, notices⟩
    · rfl
    · simp only [faithful.finish]
      rfl
    · simp only [faithful.writeRow]
      rcases RowSink.writeRow none row sink with ⟨e | ok, after⟩
      · rfl
      · simp only [Prod.map, id, ih, Option.map_map]
        rfl

theorem drainInto_view (cursor : Cursor σ) (sink : κ) (fuel : Nat) :
    cursor.drainInto (view sink) fuel = (cursor.drainInto sink fuel).map (Drained.seen view) := by
  rw [drainInto, drainInto, faithful.begin]
  rcases RowSink.begin ⟨cursor.paths, cursor.types, false⟩ sink with ⟨e | ok, opened⟩
  · rfl
  · exact drainRows_view faithful cursor opened fuel

end Views

/-- Rows in the answers to calls. -/
def handing (rows : List Row) : List (Except Error (Option Row)) :=
  rows.map fun row => .ok (some row)

/-- A drain has too little fuel if all that is read are rows, and the sink accepts them all. -/
theorem drainRows_eq_none_iff [RowSink κ] {cursor : Cursor σ} {sink : κ} {fuel : Nat} :
    cursor.drainRows sink fuel = none ↔ ∃ rows after, rows.length = fuel ∧
      cursor.answers fuel = handing rows ∧ RowSink.writeRows [] rows sink = (.ok (), after) := by
  induction fuel generalizing cursor sink with
  | zero =>
    exact iff_of_true rfl ⟨[], sink, rfl, rfl, rfl⟩
  | succ fuel ih =>
    rw [drainRows, answers]
    rcases cursor.tryNext with ⟨e | none | row, next, notices⟩
    · refine iff_of_false (Option.some_ne_none _) ?_
      rintro ⟨rows, after, -, read, -⟩
      obtain ⟨_, _, -, same, -⟩ := List.map_eq_cons_iff.mp read.symm
      cases same
    · refine iff_of_false (Option.some_ne_none _) ?_
      rintro ⟨rows, after, -, read, -⟩
      obtain ⟨_, _, -, same, -⟩ := List.map_eq_cons_iff.mp read.symm
      cases same
    · rcases written : RowSink.writeRow none row sink with ⟨e | ok, taken⟩
      · simp only [written]
        refine iff_of_false (Option.some_ne_none _) ?_
        rintro ⟨rows, after, -, read, wrote⟩
        obtain ⟨_, others, rfl, same, -⟩ := List.map_eq_cons_iff.mp read.symm
        cases same
        simp only [RowSink.writeRows, List.head?_nil, written] at wrote
        cases wrote
      · simp only [written, Option.map_eq_none_iff, ih]
        constructor
        · rintro ⟨rows, after, rfl, read, wrote⟩
          refine ⟨row :: rows, after, rfl, congrArg (_ :: ·) read, ?_⟩
          simp only [RowSink.writeRows, List.head?_nil, written]
          exact wrote
        · rintro ⟨rows, after, count, read, wrote⟩
          obtain ⟨_, others, rfl, same, behind⟩ := List.map_eq_cons_iff.mp read.symm
          cases same
          simp only [RowSink.writeRows, List.head?_nil, written] at wrote
          exact ⟨others, after, Nat.succ.inj count, behind.symm, wrote⟩

theorem drainInto_eq_none_iff [RowSink κ] {cursor : Cursor σ} {sink : κ} {fuel : Nat} :
    cursor.drainInto sink fuel = none ↔ ∃ opened rows after,
      RowSink.begin ⟨cursor.paths, cursor.types, false⟩ sink = (.ok (), opened) ∧
      rows.length = fuel ∧ cursor.answers fuel = handing rows ∧
      RowSink.writeRows [] rows opened = (.ok (), after) := by
  rw [drainInto]
  rcases RowSink.begin ⟨cursor.paths, cursor.types, false⟩ sink with ⟨e | ok, opened⟩
  · refine iff_of_false (Option.some_ne_none _) ?_
    rintro ⟨_, _, _, begun, -⟩
    cases begun
  · simp only [drainRows_eq_none_iff, Prod.mk.injEq, true_and, exists_and_left, exists_eq_left']

/-- Where a drain that has read these rows leaves the cursor: behind the row that its sink refused,
or behind the call that gave no row any more. -/
inductive Leaves (cursor : Cursor σ) (rows : List Row) :
    Ending → Except Error Unit → Cursor σ → Prop
  | refused {e : Error} : Leaves cursor rows .refused (.error e) (cursor.after rows.length)
  | broken {e : Error} (met : (cursor.after rows.length).tryNext.answer = .error e) :
      Leaves cursor rows .broken (.error e) (cursor.after rows.length).tryNext.cursor
  | finished {answer : Except Error Unit}
      (met : (cursor.after rows.length).tryNext.answer = .ok none) :
      Leaves cursor rows .finished answer (cursor.after rows.length).tryNext.cursor

theorem Leaves.cons {cursor next : Cursor σ} {row : Row} {rows : List Row} {ending : Ending}
    {answer : Except Error Unit} {after : Cursor σ}
    (onward : ∀ calls, cursor.after (calls + 1) = next.after calls)
    (leaves : Leaves next rows ending answer after) :
    Leaves cursor (row :: rows) ending answer after := by
  cases leaves with
  | refused =>
    rw [← onward]
    exact .refused
  | broken met =>
    rw [← onward] at met ⊢
    exact .broken met
  | finished met =>
    rw [← onward] at met ⊢
    exact .finished met

/-- What a drain does with the cursor: it reads these rows, and leaves the cursor with those behind
them, unless one of these is damaged. -/
structure Draws (cursor : Cursor (Observed σ)) (rows : List Row) (ending : Ending)
    (drained : Drained (Observed σ) κ) : Prop where
  read : cursor.answers rows.length = handing rows
  leaves : Leaves cursor rows ending drained.answer drained.cursor
  damage : ending = .broken ↔ ¬ Undamaged drained.notices
  delivers : ending ≠ .broken → cursor.Delivers rows drained.cursor

section Draws
variable {cursor next : Cursor (Observed σ)} {notices : List Notice}

theorem Coherent.takes {turn : Turn (Observed σ) (Except Error (Option Row))}
    (coherent : cursor.Coherent) (turned : cursor.tryNext = turn) : Takes cursor turn :=
  turned ▸ tryNext_effect coherent

/-- A row that is read comes before the rows that are read of the cursor behind it. -/
theorem Draws.cons {row : Row} {rows : List Row} {ending : Ending}
    {drained : Drained (Observed σ) κ} (coherent : cursor.Coherent)
    (turned : cursor.tryNext = ⟨.ok (some row), next, notices⟩)
    (others : next.Draws rows ending drained) :
    cursor.Draws (row :: rows) ending { drained with notices := notices ++ drained.notices } := by
  have onward (calls : Nat) : cursor.after (calls + 1) = next.after calls := by
    rw [Cursor.after, turned]
  have effect := coherent.takes turned
  have sound : Undamaged notices := effect.undamaged_iff.mpr ⟨some row, rfl⟩
  constructor
  case read =>
    rw [List.length_cons, answers, turned, others.read]
    rfl
  case leaves => exact others.leaves.cons onward
  case damage =>
    rw [undamaged_append, and_iff_right sound]
    exact others.damage
  case delivers => exact fun whole => (effect.delivers sound).trans (others.delivers whole)

/-- A drain tells its sink the rows that it reads. -/
theorem Drains.told [RowSink κ] {heard : Heard κ} {drained : Drained (Observed σ) (Heard κ)}
    (drains : cursor.Drains heard drained) (coherent : cursor.Coherent) :
    ∃ rows ending log, drained.sink.log = heard.log ++ log ∧
      RowsTold [] rows ending drained.answer log ∧ cursor.Draws rows ending drained := by
  induction drains with
  | @failed cursor next sink notices e turned =>
    obtain rfl : cursor.tryNext.cursor = next := congrArg Turn.cursor turned
    have damaged : ¬ Undamaged notices := by
      intro sound
      obtain ⟨_, same⟩ := (coherent.takes turned).undamaged_iff.mp sound
      cases same
    exact ⟨[], .broken, [], (List.append_nil _).symm, .broken, rfl,
      .broken (congrArg Turn.answer turned), iff_of_true rfl damaged, fun whole => absurd rfl whole⟩
  | @finished cursor next sink notices turned =>
    obtain rfl : cursor.tryNext.cursor = next := congrArg Turn.cursor turned
    have effect := coherent.takes turned
    have sound : Undamaged notices := effect.undamaged_iff.mpr ⟨none, rfl⟩
    exact ⟨[], .finished, _, Heard.log_finish rfl, .finished, rfl,
      .finished (congrArg Turn.answer turned),
      iff_of_false Ending.noConfusion (not_not_intro sound), fun _ => effect.delivers sound⟩
  | @refused cursor next sink after notices row e turned written =>
    obtain rfl : cursor.tryNext.cursor = next := congrArg Turn.cursor turned
    have effect := coherent.takes turned
    have sound : Undamaged notices := effect.undamaged_iff.mpr ⟨some row, rfl⟩
    refine ⟨[row], .refused, _, Heard.log_writeRow written, .refused, ?_, .refused,
      iff_of_false Ending.noConfusion (not_not_intro sound), fun _ => effect.delivers sound⟩
    rw [List.length_singleton, answers, turned]
    rfl
  | @wrote cursor next sink after notices row rest turned written others ih =>
    obtain ⟨rows, ending, log, same, told, draws⟩ := ih ((coherent.takes turned).coherent coherent)
    refine ⟨row :: rows, ending, (.row none row, .ok ()) :: log, ?_, .accepted told,
      draws.cons coherent turned⟩
    rw [same, Heard.log_writeRow written, List.append_assoc]
    rfl

/-- The log of a whole drain. -/
theorem Coherent.drainInto_told [RowSink κ] {sink : κ} {fuel : Nat}
    {drained : Drained (Observed σ) κ} (coherent : cursor.Coherent)
    (ended : cursor.drainInto sink fuel = some drained) : ∃ rows ending log,
      cursor.drainInto (Heard.mk sink []) fuel =
        some ⟨drained.answer, drained.cursor, ⟨drained.sink, log⟩, drained.notices⟩ ∧
      Orderly ⟨cursor.paths, cursor.types, false⟩ [] rows ending drained.answer log ∧
      cursor.Draws rows ending drained := by
  rw [drainInto_view Heard.view cursor (Heard.mk sink []) fuel] at ended
  obtain ⟨⟨answer, after, heard, notices⟩, ran, rfl⟩ := Option.map_eq_some_iff.mp ended
  rw [ran]
  rw [drainInto] at ran
  rcases begun : RowSink.begin ⟨cursor.paths, cursor.types, false⟩ (Heard.mk sink []) with
    ⟨e | ok, opened⟩
  · rw [begun] at ran
    cases ran
    have logged : heard.log = _ := Heard.log_begin begun
    refine ⟨[], .refused, heard.log, rfl, logged ▸ orderly_unopened _ [] e, rfl, .refused, ?_,
      fun _ => .refl cursor⟩
    exact iff_of_false Ending.noConfusion (not_not_intro fun _ _ => List.not_mem_nil)
  · rw [begun] at ran
    obtain ⟨rows, ending, log, same, told, draws⟩ := (drainRows_effect ran).told coherent
    have logged : heard.log = (.begin ⟨cursor.paths, cursor.types, false⟩, .ok ()) :: log := by
      rw [same, Heard.log_begin begun]
      rfl
    exact ⟨rows, ending, heard.log, rfl, logged ▸ told.orderly _, draws.read, draws.leaves,
      draws.damage, draws.delivers⟩

/-- What is read behind a drain: what would have been read without it, and at hand the row that is
left. -/
structure Resumes (cursor : Cursor (Observed σ)) (rows : List Row) (ending : Ending)
    (after : Cursor (Observed σ)) : Prop where
  behind : ending = .refused → ∀ calls,
    cursor.answers (rows.length + calls) = handing rows ++ after.answers calls
  next : ∀ row rest, after.pending = row :: rest →
    after.tryNext.answer = (readRow after.types row).map some

theorem Leaves.after {rows : List Row} {answer : Except Error Unit}
    {left : Cursor (Observed σ)} (leaves : Leaves cursor rows .refused answer left) :
    left = cursor.after rows.length := by
  cases leaves
  rfl

theorem Leaves.coherent {rows : List Row} {ending : Ending} {answer : Except Error Unit}
    {left : Cursor (Observed σ)} (leaves : Leaves cursor rows ending answer left)
    (coherent : ∀ calls, (cursor.after calls).Coherent) : left.Coherent := by
  cases leaves with
  | refused => exact coherent rows.length
  | broken => exact (tryNext_effect (coherent rows.length)).coherent (coherent rows.length)
  | finished => exact (tryNext_effect (coherent rows.length)).coherent (coherent rows.length)

theorem Coherent.after (coherent : cursor.Coherent) (calls : Nat) :
    (cursor.after calls).Coherent := by
  induction calls generalizing cursor with
  | zero => exact coherent
  | succ calls ih => exact ih ((tryNext_effect coherent).coherent coherent)

/-- A row at hand is the next one that is read. -/
theorem Coherent.tryNext_answer (coherent : cursor.Coherent) {row : Bytes × Bytes}
    {rest : List (Bytes × Bytes)} (atHand : cursor.pending = row :: rest) :
    cursor.tryNext.answer = (readRow cursor.types row).map some := by
  have left : cursor.index < cursor.values.length := by
    apply Nat.lt_of_not_le
    intro used
    cases (pending_of_used used).symm.trans atHand
  obtain ⟨first, here, advanced⟩ := coherent.advance_eq left
  have same : cursor.pending.head? = some first := (List.head?_drop ..).trans here
  rw [atHand] at same
  cases same
  rw [tryNext_of_left left, advanced]
  cases readRow cursor.types row <;> rfl

theorem Draws.resumes {rows : List Row} {ending : Ending} {drained : Drained (Observed σ) κ}
    (draws : cursor.Draws rows ending drained) (coherent : cursor.Coherent) :
    cursor.Resumes rows ending drained.cursor := by
  refine ⟨?_, fun row rest => (draws.leaves.coherent coherent.after).tryNext_answer⟩
  rintro rfl calls
  rw [draws.leaves.after, answers_add, draws.read]

end Draws
end Cursor

namespace Session

/-- A table and a cursor keep to the protocol of any sink. The calls are made in order, the first
that is refused is the last and answers the whole, and the sink is told to finish exactly if every
row could be read and no call was refused before. A cursor that is drained hands over the rows that
it would have given to calls of `tryNext`, and behind a refused row goes on with the one after it.
It is under way for as long as it has rows and its sink accepts them. -/
theorem sinks_told_in_order {κ : Type} [RowSink κ] (sink : κ) :
    (∀ table : Table, ∃ rows ending log,
      table.writeTo (Heard.mk sink []) = ((table.writeTo sink).1, ⟨(table.writeTo sink).2, log⟩) ∧
      Orderly ⟨table.paths, table.types, decide (table.timestamps ≠ [])⟩ table.timestamps rows
        ending (table.writeTo sink).1 log ∧ Covers table.rows rows ending) ∧
    ∀ {σ : Type} [PageSource σ] {source : σ} {queryId : Int64} {paths : List String}
      {types : List DataType} {options : FetchOptions} {values bitmaps : List Bytes}
      {start : Cursor (Observed σ)} {session : Session σ},
      Cursor.withPage ⟨source, []⟩ queryId paths types options values bitmaps = .ok start →
      Reaches ⟨start, [], []⟩ session → ∀ fuel,
        (session.cursor.drainInto sink fuel = none ↔ ∃ opened rows after,
          RowSink.begin ⟨session.cursor.paths, session.cursor.types, false⟩ sink =
            (.ok (), opened) ∧
          rows.length = fuel ∧ session.cursor.answers fuel = Cursor.handing rows ∧
          RowSink.writeRows [] rows opened = (.ok (), after)) ∧
        ∀ drained, session.cursor.drainInto sink fuel = some drained → ∃ rows ending log,
          session.cursor.drainInto (Heard.mk sink []) fuel =
            some ⟨drained.answer, drained.cursor, ⟨drained.sink, log⟩, drained.notices⟩ ∧
          Orderly ⟨session.cursor.paths, session.cursor.types, false⟩ [] rows ending
            drained.answer log ∧
          session.cursor.Draws rows ending drained ∧
          session.cursor.Resumes rows ending drained.cursor := by
  refine ⟨fun table => writeTo_orderly table sink, ?_⟩
  intro σ _ source queryId paths types options values bitmaps start session opened run fuel
  have coherent := run.coherent (Cursor.withPage_coherent opened)
  refine ⟨Cursor.drainInto_eq_none_iff, ?_⟩
  intro drained ended
  obtain ⟨rows, ending, log, heard, orderly, draws⟩ := coherent.drainInto_told ended
  exact ⟨rows, ending, log, heard, orderly, draws, draws.resumes coherent⟩

/-- Three rows at hand, of a source that has no more. -/
def threeRows : Session Script where
  cursor :=
    { source := ⟨{ pages := [], closings := [] }, []⟩, queryId := 7, options := {}
      paths := ["pump"], types := [.boolean]
      values := [[1], [0], [1]], bitmaps := [[1], [1], [1]] }

/-- A sink that refuses the second row. -/
def choosy : Recorder := { refusedCall := some 2 }

/-- The drain ends with the refusal, and the third row is the next one. -/
theorem threeRows_told : ∃ drained, threeRows.cursor.drainInto choosy 4 = some drained ∧
    drained.answer = .error (.sink (.reported "sink refused")) ∧
    drained.sink.calls = [.begin ⟨["pump"], [.boolean], false⟩,
      .row none [some (.boolean true)], .row none [some (.boolean false)]] ∧
    drained.cursor.tryNext.answer = .ok (some [some (.boolean true)]) ∧
    ∃ rows ending log, threeRows.cursor.drainInto (Heard.mk choosy []) 4 =
        some ⟨drained.answer, drained.cursor, ⟨drained.sink, log⟩, drained.notices⟩ ∧
      Orderly ⟨["pump"], [.boolean], false⟩ [] rows ending drained.answer log ∧
      threeRows.cursor.Draws rows ending drained ∧
      threeRows.cursor.Resumes rows ending drained.cursor := by
  obtain ⟨-, drains⟩ := sinks_told_in_order choosy
  obtain ⟨-, told⟩ := @drains Script _ { pages := [], closings := [] } 7 ["pump"] [.boolean] {}
    [[1], [0], [1]] [[1], [1], [1]] _ threeRows rfl .refl 4
  exact ⟨_, rfl, rfl, rfl, rfl, told _ rfl⟩

end Session
end SeriesClient.Paging
