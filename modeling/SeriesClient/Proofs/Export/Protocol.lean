import SeriesClient.Export.Recorder
import SeriesClient.Table

/-! What a session tells its sink: to begin, then one row after the other, then to finish. The first
call that is refused is the last one, whatever the sink. -/
namespace SeriesClient.Export
variable {κ κ' : Type} [RowSink κ] [RowSink κ']

namespace RowSink

/-- Seen through `view`, a sink answers and goes on as it does by itself. -/
structure View (view : κ → κ') : Prop where
  begin : ∀ layout sink,
    RowSink.begin layout (view sink) = (RowSink.begin layout sink).map id view
  writeRow : ∀ timestamp row sink,
    RowSink.writeRow timestamp row (view sink) = (RowSink.writeRow timestamp row sink).map id view
  finish : ∀ sink, RowSink.finish (view sink) = (RowSink.finish sink).map id view

namespace View
variable {view : κ → κ'} (faithful : View view)
include faithful

theorem writeRows (timestamps : List Int64) (rows : List Row) (sink : κ) :
    RowSink.writeRows timestamps rows (view sink) =
      (RowSink.writeRows timestamps rows sink).map id view := by
  induction rows generalizing timestamps sink with
  | nil => rfl
  | cons row rows ih =>
    simp only [RowSink.writeRows, faithful.writeRow]
    rcases RowSink.writeRow timestamps.head? row sink with ⟨e | ok, after⟩
    · rfl
    · exact ih timestamps.tail after

theorem session (layout : Layout) (timestamps : List Int64) (rows : List Row) (sink : κ) :
    RowSink.session layout timestamps rows (view sink) =
      (RowSink.session layout timestamps rows sink).map id view := by
  simp only [RowSink.session, faithful.begin]
  rcases RowSink.begin layout sink with ⟨e | ok, opened⟩
  · rfl
  · simp only [Prod.map, id, faithful.writeRows]
    rcases RowSink.writeRows timestamps rows opened with ⟨e | ok, filled⟩
    · rfl
    · exact faithful.finish filled

end View
end RowSink

/-- Calls with the answers to them. -/
abbrev Log := List (SinkCall × Except Error Unit)

/-- A sink with a log of the calls on it. -/
structure Heard (κ : Type) where
  sink : κ
  log : Log := []

namespace Heard

def keep (heard : Heard κ) (call : SinkCall) (told : Except Error Unit × κ) :
    Except Error Unit × Heard κ :=
  (told.1, ⟨told.2, heard.log ++ [(call, told.1)]⟩)

instance : RowSink (Heard κ) where
  begin layout heard := heard.keep (.begin layout) (RowSink.begin layout heard.sink)
  writeRow timestamp row heard :=
    heard.keep (.row timestamp row) (RowSink.writeRow timestamp row heard.sink)
  finish heard := heard.keep .finish (RowSink.finish heard.sink)

/-- The log changes nothing. -/
theorem view : RowSink.View (Heard.sink : Heard κ → κ) :=
  ⟨fun _ _ => rfl, fun _ _ _ => rfl, fun _ => rfl⟩

variable {heard after : Heard κ} {answer : Except Error Unit}

theorem log_begin {layout : Layout} (told : RowSink.begin layout heard = (answer, after)) :
    after.log = heard.log ++ [(.begin layout, answer)] := by
  obtain ⟨rfl, rfl⟩ := Prod.mk.inj told
  rfl

theorem log_writeRow {timestamp : Option Int64} {row : Row}
    (told : RowSink.writeRow timestamp row heard = (answer, after)) :
    after.log = heard.log ++ [(.row timestamp row, answer)] := by
  obtain ⟨rfl, rfl⟩ := Prod.mk.inj told
  rfl

theorem log_finish (told : RowSink.finish heard = (answer, after)) :
    after.log = heard.log ++ [(.finish, answer)] := by
  obtain ⟨rfl, rfl⟩ := Prod.mk.inj told
  rfl

end Heard

/-- How a session ends: by a call that is refused, because a row could not be read, or with a call
of `finish`. -/
inductive Ending where
  | refused
  | broken
  | finished
deriving DecidableEq, Repr

/-- What a session that has begun tells its sink. All rows but the last are accepted, and that one
is unless the session ends by it. -/
inductive RowsTold : List Int64 → List Row → Ending → Except Error Unit → Log → Prop
  | refused {timestamps : List Int64} {row : Row} {e : Error} :
      RowsTold timestamps [row] .refused (.error e) [(.row timestamps.head? row, .error e)]
  | broken {timestamps : List Int64} {e : Error} : RowsTold timestamps [] .broken (.error e) []
  | finished {timestamps : List Int64} {answer : Except Error Unit} :
      RowsTold timestamps [] .finished answer [(.finish, answer)]
  | accepted {timestamps : List Int64} {row : Row} {rows : List Row} {ending : Ending}
      {answer : Except Error Unit} {log : Log}
      (others : RowsTold timestamps.tail rows ending answer log) :
      RowsTold timestamps (row :: rows) ending answer ((.row timestamps.head? row, .ok ()) :: log)

/-- A call that is refused is the last one, and its refusal the answer to the session. -/
def StopsAtRefusal (answer : Except Error Unit) (log : Log) : Prop :=
  ∀ before call e behind, log = before ++ (call, .error e) :: behind →
    behind = [] ∧ answer = .error e

theorem stopsAtRefusal_single (call : SinkCall) (answer : Except Error Unit) :
    StopsAtRefusal answer [(call, answer)] := by
  intro before other e behind split
  cases before with
  | nil =>
    cases split
    exact ⟨rfl, rfl⟩
  | cons head before => simp at split

theorem stopsAtRefusal_cons {answer : Except Error Unit} {log : Log} (call : SinkCall)
    (stops : StopsAtRefusal answer log) : StopsAtRefusal answer ((call, .ok ()) :: log) := by
  intro before other e behind split
  cases before with
  | nil => cases split
  | cons head before => exact stops before other e behind (List.cons.inj split).2

/-- A session that keeps to the protocol, told these rows: the calls in their order, the end of the
session with the first refusal, and when it comes to a call of `finish`. -/
structure Orderly (layout : Layout) (timestamps : List Int64) (rows : List Row) (ending : Ending)
    (answer : Except Error Unit) (log : Log) : Prop where
  calls : log.map Prod.fst = .begin layout :: (rows.mapIdx fun i row => .row timestamps[i]? row) ++
    if ending = .finished then [.finish] else []
  stops : StopsAtRefusal answer log
  finishes : ending = .finished ↔
    (∀ told ∈ log, told.1 ≠ .finish → told.2 = .ok ()) ∧ ending ≠ .broken
  breaks : ending = .broken → ∀ told ∈ log, told.2 = .ok ()
  succeeds : answer = .ok () ↔ ending = .finished ∧ ∀ told ∈ log, told.2 = .ok ()

theorem orderly_unopened (layout : Layout) (timestamps : List Int64) (e : Error) :
    Orderly layout timestamps [] .refused (.error e) [(.begin layout, .error e)] :=
  ⟨rfl, stopsAtRefusal_single _ _, by simp, nofun, by simp⟩

namespace RowsTold
variable {timestamps : List Int64} {rows : List Row} {ending : Ending}
  {answer : Except Error Unit} {log : Log}

theorem calls (told : RowsTold timestamps rows ending answer log) :
    log.map Prod.fst = (rows.mapIdx fun i row => .row timestamps[i]? row) ++
      if ending = .finished then [.finish] else [] := by
  induction told with
  | refused => simp [List.head?_eq_getElem?]
  | broken => rfl
  | finished => rfl
  | accepted others ih => simp [ih, List.head?_eq_getElem?, List.mapIdx_cons]

theorem stops (told : RowsTold timestamps rows ending answer log) : StopsAtRefusal answer log := by
  induction told with
  | refused => exact stopsAtRefusal_single _ _
  | broken =>
    intro before call e behind split
    simp at split
  | finished => exact stopsAtRefusal_single _ _
  | accepted others ih => exact stopsAtRefusal_cons _ ih

theorem finishes (told : RowsTold timestamps rows ending answer log) : ending = .finished ↔
    (∀ told ∈ log, told.1 ≠ .finish → told.2 = .ok ()) ∧ ending ≠ .broken := by
  induction told with
  | refused => simp
  | broken => simp
  | finished => simp
  | accepted others ih => simpa using ih

theorem breaks (told : RowsTold timestamps rows ending answer log) (broken : ending = .broken) :
    ∀ told ∈ log, told.2 = .ok () := by
  induction told with
  | refused => cases broken
  | broken => simp
  | finished => cases broken
  | accepted others ih => simpa using ih broken

theorem succeeds (told : RowsTold timestamps rows ending answer log) :
    answer = .ok () ↔ ending = .finished ∧ ∀ told ∈ log, told.2 = .ok () := by
  induction told with
  | refused => simp
  | broken => simp
  | finished => simp
  | accepted others ih => simpa using ih

theorem orderly (told : RowsTold timestamps rows ending answer log) (layout : Layout) :
    Orderly layout timestamps rows ending answer ((.begin layout, .ok ()) :: log) := by
  constructor
  case calls => exact congrArg (SinkCall.begin layout :: ·) told.calls
  case stops => exact stopsAtRefusal_cons _ told.stops
  case finishes => simpa using told.finishes
  case breaks => simpa using told.breaks
  case succeeds => simpa using told.succeeds

end RowsTold

/-- Of the rows it is to write, a session tells those in front, and if it comes to its end, all. -/
structure Covers (all rows : List Row) (ending : Ending) : Prop where
  front : rows <+: all
  whole : ending = .finished → rows = all
  readable : ending ≠ .broken

/-- Rows that are written into a session that has begun: all are accepted, or some of those in front
are and the one behind them is refused. -/
theorem rows_told {timestamps : List Int64} {all : List Row} {heard after : Heard κ}
    {answer : Except Error Unit}
    (done : RowSink.writeRows timestamps all heard = (answer, after)) :
    ∃ log, after.log = heard.log ++ log ∧
      ((∃ e rows, answer = .error e ∧ RowsTold timestamps rows .refused (.error e) log ∧
          rows <+: all) ∨
        answer = .ok () ∧
          ∀ last, RowsTold timestamps all .finished last (log ++ [(.finish, last)])) := by
  induction all generalizing timestamps heard with
  | nil =>
    cases done
    exact ⟨[], (List.append_nil _).symm, .inr ⟨rfl, fun last => .finished⟩⟩
  | cons row all ih =>
    rw [RowSink.writeRows] at done
    rcases written : RowSink.writeRow timestamps.head? row heard with ⟨e | ok, next⟩
    · simp only [written] at done
      cases done
      exact ⟨_, Heard.log_writeRow written, .inl ⟨e, [row], rfl, .refused, ⟨all, rfl⟩⟩⟩
    · simp only [written] at done
      obtain ⟨log, same, outcome⟩ := ih done
      refine ⟨(.row timestamps.head? row, .ok ()) :: log, ?_, ?_⟩
      · rw [same, Heard.log_writeRow written, List.append_assoc]
        rfl
      · rcases outcome with ⟨e, rows, rfl, told, front⟩ | ⟨rfl, told⟩
        · exact .inl ⟨e, row :: rows, rfl, .accepted told, (List.prefix_cons_inj row).mpr front⟩
        · exact .inr ⟨rfl, fun last => .accepted (told last)⟩

theorem session_told {layout : Layout} {timestamps : List Int64} {all : List Row}
    {heard after : Heard κ} {answer : Except Error Unit}
    (done : RowSink.session layout timestamps all heard = (answer, after)) :
    ∃ rows ending log, after.log = heard.log ++ log ∧
      Orderly layout timestamps rows ending answer log ∧ Covers all rows ending := by
  rw [RowSink.session] at done
  rcases begun : RowSink.begin layout heard with ⟨e | ok, opened⟩
  · simp only [begun] at done
    cases done
    exact ⟨[], .refused, _, Heard.log_begin begun, orderly_unopened layout timestamps e,
      List.nil_prefix, nofun, nofun⟩
  · rcases wrote : RowSink.writeRows timestamps all opened with ⟨answered, filled⟩
    obtain ⟨log, told, outcome⟩ := rows_told wrote
    rw [Heard.log_begin begun, List.append_assoc] at told
    simp only [begun, wrote] at done
    rcases outcome with ⟨e, rows, rfl, refused, front⟩ | ⟨rfl, whole⟩
    · cases done
      exact ⟨rows, .refused, _, told, refused.orderly layout, front, nofun, nofun⟩
    · have last := Heard.log_finish done
      rw [told, List.append_assoc] at last
      exact ⟨all, .finished, _, last, (whole answer).orderly layout, List.prefix_rfl,
        fun _ => rfl, nofun⟩

/-- A table is written to any sink by calls in order, up to the first refusal. -/
theorem writeTo_orderly (table : Table) (sink : κ) : ∃ rows ending log,
    table.writeTo (Heard.mk sink []) = ((table.writeTo sink).1, ⟨(table.writeTo sink).2, log⟩) ∧
    Orderly ⟨table.paths, table.types, decide (table.timestamps ≠ [])⟩ table.timestamps rows ending
      (table.writeTo sink).1 log ∧ Covers table.rows rows ending := by
  have timed : table.timed = decide (table.timestamps ≠ []) := by
    rw [Table.timed]
    cases table.timestamps <;> rfl
  have plain : table.writeTo sink = (table.writeTo (Heard.mk sink [])).map id Heard.sink :=
    Heard.view.session _ _ _ (Heard.mk sink [])
  rcases done : table.writeTo (Heard.mk sink []) with ⟨answer, after, log⟩
  obtain ⟨rows, ending, told, logged, orderly, covers⟩ := session_told done
  obtain rfl : log = told := logged
  rw [plain, done]
  exact ⟨rows, ending, log, rfl, timed ▸ orderly, covers⟩

end SeriesClient.Export
