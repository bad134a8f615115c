import Mathlib
import SeriesClient.Proofs.Export.Csv.Sessions

/-! Who holds the output of a sink of delimited text, whatever its destination refuses. The sink
does between sessions and the writer does in one; a session that cannot be finished takes the output
with it. After that a `finish` has nothing to finish, succeeds, and gives no output back. -/
namespace SeriesClient.Export.Csv
variable {δ : Type}

/-- Who may hold the output of a sink. -/
inductive Keeper where
  | sink
  | writer
  | nobody
deriving DecidableEq, Repr

/-- A sink whose output is held by a keeper. It is never held twice. -/
inductive Held : Keeper → CsvSink δ → Prop
  | sink {format : Format} {destination : δ} {timed : Bool} {columns : Nat} :
      Held .sink { format, output := some destination, timed, columns }
  | writer {format : Format} {writer : Writer δ} {timed : Bool} {columns : Nat} :
      Held .writer { format, output := none, writer := some writer, timed, columns }
  | nobody {format : Format} {timed : Bool} {columns : Nat} :
      Held .nobody { format, output := none, timed, columns }

theorem Held.output_eq_none_iff {keeper : Keeper} {sink : CsvSink δ} (held : Held keeper sink) :
    sink.output = none ↔ keeper ≠ .sink := by
  cases held <;> simp

/-- What a call answers and to whom it passes the output. The header of a new session may be
refused by the destination, and the session is open all the same. -/
inductive Passes : Keeper → SinkCall → Except Error Unit → Keeper → Prop
  | refused {keeper : Keeper} {call : SinkCall} {fault : Error} (other : call ≠ .finish) :
      Passes keeper call (.error fault) keeper
  | opened {layout : Layout} {answer : Except Error Unit} :
      Passes .sink (.begin layout) answer .writer
  | wrote {timestamp : Option Int64} {cells : Row} {answer : Except Error Unit} :
      Passes .writer (.row timestamp cells) answer .writer
  | returned {keeper : Keeper} (kept : keeper ≠ .nobody) : Passes keeper .finish (.ok ()) .sink
  | lost {fault : Error} : Passes .writer .finish (.error fault) .nobody
  | missed : Passes .nobody .finish (.ok ()) .nobody

theorem Passes.nobody_iff {before after : Keeper} {call : SinkCall} {answer : Except Error Unit}
    (passes : Passes before call answer after) : after = .nobody ↔
      before = .nobody ∨ call = .finish ∧ ∃ fault, answer = .error fault := by
  cases passes with
  | refused other => simp [other]
  | opened => simp
  | wrote => simp
  | returned kept => simp [kept]
  | lost => simp
  | missed => simp

theorem Passes.lost_iff {before after : Keeper} (passes : Passes before .finish (.ok ()) after) :
    after ≠ .sink ↔ before = .nobody := by
  cases passes with
  | returned kept => simp [kept]
  | missed => simp

theorem Passes.lost_of_error {before after : Keeper} {fault : Error}
    (passes : Passes before .finish (.error fault) after) : after ≠ .sink ∧ before ≠ .nobody := by
  cases passes with
  | refused other => exact absurd rfl other
  | lost => simp

theorem Passes.of_nobody {after : Keeper} {call : SinkCall} {answer : Except Error Unit}
    (passes : Passes .nobody call answer after) : answer = .ok () ↔ call = .finish := by
  cases passes with
  | refused other => simp [other]
  | returned kept => exact absurd rfl kept
  | missed => simp

variable [Destination δ]

theorem begin_passes {keeper : Keeper} {sink : CsvSink δ} (held : Held keeper sink)
    (layout : Layout) : ∃ after, Held after (sink.begin layout).2 ∧
      Passes keeper (.begin layout) (sink.begin layout).1 after := by
  by_cases types : layout.paths.length = layout.types.length
  · cases held with
    | @sink format destination timed columns =>
      rw [begin_idle format destination timed columns types]
      cases format.headers with
      | true => exact ⟨.writer, .writer, .opened⟩
      | false => exact ⟨.writer, .writer, .opened⟩
    | writer => exact ⟨.writer, .writer, .refused SinkCall.noConfusion⟩
    | nobody =>
      have refused : ∀ (format : Format) (timed : Bool) (columns : Nat),
          CsvSink.begin layout { format, output := (none : Option δ), timed, columns } =
            (.error (.sink .outputTaken), { format, output := none, timed, columns }) := by
        simp [CsvSink.begin, types]
      rw [refused]
      exact ⟨.nobody, .nobody, .refused SinkCall.noConfusion⟩
  · have unchanged : ∃ fault, sink.begin layout = (.error fault, sink) := by
      rw [CsvSink.begin, if_pos types]
      split <;> exact ⟨_, rfl⟩
    obtain ⟨fault, unchanged⟩ := unchanged
    rw [unchanged]
    exact ⟨keeper, held, .refused SinkCall.noConfusion⟩

theorem row_passes {keeper : Keeper} {sink : CsvSink δ} (held : Held keeper sink)
    (timestamp : Option Int64) (cells : Row) :
    ∃ after, Held after (sink.writeRow timestamp cells).2 ∧
      Passes keeper (.row timestamp cells) (sink.writeRow timestamp cells).1 after := by
  rw [CsvSink.writeRow]
  split
  · exact ⟨keeper, held, .refused SinkCall.noConfusion⟩
  · split
    · exact ⟨keeper, held, .refused SinkCall.noConfusion⟩
    · cases held with
      | sink => exact ⟨.sink, .sink, .refused SinkCall.noConfusion⟩
      | writer => exact ⟨.writer, .writer, .wrote⟩
      | nobody => exact ⟨.nobody, .nobody, .refused SinkCall.noConfusion⟩

theorem finish_passes {keeper : Keeper} {sink : CsvSink δ} (held : Held keeper sink) :
    ∃ after, Held after sink.finish.2 ∧ Passes keeper .finish sink.finish.1 after := by
  cases held with
  | sink => exact ⟨.sink, .sink, .returned Keeper.noConfusion⟩
  | nobody => exact ⟨.nobody, .nobody, .missed⟩
  | writer =>
    rw [CsvSink.finish]
    simp only
    split
    · exact ⟨.nobody, .nobody, .lost⟩
    · split
      · exact ⟨.nobody, .nobody, .lost⟩
      · exact ⟨.sink, .sink, .returned Keeper.noConfusion⟩

theorem call_passes {keeper : Keeper} {sink : CsvSink δ} (held : Held keeper sink)
    (call : SinkCall) :
    ∃ after, Held after (call.apply sink).2 ∧ Passes keeper call (call.apply sink).1 after := by
  cases call with
  | begin layout => exact begin_passes held layout
  | row timestamp cells => exact row_passes held timestamp cells
  | finish => exact finish_passes held

/-- Some of the calls is a `finish` that failed. -/
def FinishFailed (sink : CsvSink δ) (calls : List SinkCall) : Prop :=
  ∃ fault, (SinkCall.finish, Except.error fault) ∈ calls.zip (SinkCall.run sink calls).1

theorem finishFailed_cons (sink : CsvSink δ) (call : SinkCall) (calls : List SinkCall) :
    FinishFailed sink (call :: calls) ↔
      (call = .finish ∧ ∃ fault, (call.apply sink).1 = .error fault) ∨
        FinishFailed (call.apply sink).2 calls := by
  simp only [FinishFailed, SinkCall.run, List.zip_cons_cons, List.mem_cons, Prod.mk.injEq,
    exists_or, exists_and_left]
  exact or_congr_left (and_congr eq_comm (exists_congr fun _ => eq_comm))

/-- The output stays with some keeper until a `finish` fails, and comes back to none after. -/
theorem run_held {keeper : Keeper} {sink : CsvSink δ} (held : Held keeper sink)
    (calls : List SinkCall) : ∃ after, Held after (SinkCall.run sink calls).2 ∧
      (after = .nobody ↔ keeper = .nobody ∨ FinishFailed sink calls) := by
  induction calls generalizing keeper sink with
  | nil => exact ⟨keeper, held, by simp [FinishFailed]⟩
  | cons call calls ih =>
    obtain ⟨between, held, passes⟩ := call_passes held call
    obtain ⟨after, held, lost⟩ := ih held
    refine ⟨after, held, ?_⟩
    rw [lost, passes.nobody_iff, finishFailed_cons, or_assoc]

/-- What a `finish` does with the output, by whether one has failed before. -/
structure Finishes (sink : CsvSink δ) (failed : Prop) : Prop where
  succeeds : sink.finish.1 = .ok () → (sink.finish.2.output = none ↔ failed)
  fails : ∀ fault, sink.finish.1 = .error fault → sink.finish.2.output = none ∧ ¬ failed
  /-- Behind a failed one every `finish` succeeds, and nothing else does. -/
  spent : failed → ∀ call : SinkCall, (call.apply sink).1 = .ok () ↔ call = .finish

theorem Held.finishes {keeper : Keeper} {sink : CsvSink δ} (held : Held keeper sink) :
    Finishes sink (keeper = .nobody) := by
  obtain ⟨after, kept, passes⟩ := finish_passes held
  refine ⟨fun done => ?_, fun fault refused => ?_, fun nobody call => ?_⟩
  · rw [done] at passes
    exact kept.output_eq_none_iff.trans passes.lost_iff
  · rw [refused] at passes
    exact ⟨kept.output_eq_none_iff.mpr passes.lost_of_error.1, passes.lost_of_error.2⟩
  · subst nobody
    obtain ⟨_, _, passes⟩ := call_passes held call
    exact passes.of_nobody

/-- A `finish` gives the output back, unless it fails or one has failed before. -/
theorem finishes_of_calls (format : Format) (destination : δ) (calls : List SinkCall) :
    Finishes (sinkAfter format destination calls)
      (FinishFailed (CsvSink.onto format destination) calls) := by
  have held : Held .sink (CsvSink.onto format destination) := .sink
  obtain ⟨after, held, lost⟩ := run_held held calls
  have failed : FinishFailed (CsvSink.onto format destination) calls ↔ after = .nobody := by
    simp [lost]
  rw [failed]
  exact held.finishes

def refusing : Store := { refusedFlush := some 1 }

/-- One session, whose `finish` fails if the destination refuses its first flush. -/
def lostCalls : List SinkCall := [.begin ⟨["a"], [.long], false⟩, .finish]

theorem lost_calls_finish : FinishFailed (CsvSink.onto {} refusing) lostCalls ∧
    (sinkAfter {} refusing lostCalls).finish.1 = .ok () ∧
    (sinkAfter {} refusing lostCalls).finish.2.output = none := by
  have answers : (SinkCall.run (CsvSink.onto {} refusing) lostCalls).1 =
      [.ok (), .error (.io "flush refused")] := by cbv
  have failed : FinishFailed (CsvSink.onto {} refusing) lostCalls := by
    refine ⟨.io "flush refused", ?_⟩
    rw [answers]
    simp [lostCalls]
  have finishes := finishes_of_calls {} refusing lostCalls
  have done : (sinkAfter {} refusing lostCalls).finish.1 = .ok () := by cbv
  exact ⟨failed, done, (finishes.succeeds done).mpr failed⟩

/-- A `finish` that succeeds does not stand for an output. -/
theorem finish_without_output : ¬ ∀ calls : List SinkCall,
    (sinkAfter {} refusing calls).finish.1 = .ok () →
      (sinkAfter {} refusing calls).finish.2.output ≠ none := by
  intro kept
  exact kept lostCalls (by cbv) (by cbv)

end SeriesClient.Export.Csv
