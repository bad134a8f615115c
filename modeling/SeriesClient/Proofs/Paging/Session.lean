import Mathlib.Logic.Relation
import SeriesClient.Proofs.Paging.Observed

/-! A cursor in use, by any calls in any order. Every call comes down to a few moves of the cursor,
so what the moves preserve holds in every state that is ever reached. -/
namespace SeriesClient.Paging
open Export Relation
variable {σ κ : Type}

/-- The cursor with the rows handed out so far and what was reported. -/
structure Session (σ : Type) where
  cursor : Cursor (Observed σ)
  handed : List Row := []
  notices : List Notice := []

/-- Rows in an answer. -/
def given : Except Error (Option Row) → List Row
  | .ok (some row) => [row]
  | _ => []

/-- Rows in an item of an iterator. -/
def item : Option (Except Error Row) → List Row
  | some (.ok row) => [row]
  | _ => []

namespace Session

/-- The session after a call that handed out `rows`. -/
def on (session : Session σ) (cursor : Cursor (Observed σ)) (rows : List Row)
    (notices : List Notice) : Session σ :=
  ⟨cursor, session.handed ++ rows, session.notices ++ notices⟩

theorem on_on (session : Session σ) (first second : Cursor (Observed σ)) (rows more : List Row)
    (notices others : List Notice) : (session.on first rows notices).on second more others =
      session.on second (rows ++ more) (notices ++ others) := by
  simp only [on, List.append_assoc]

theorem on_self (session : Session σ) : session.on session.cursor [] [] = session := by
  simp only [on, List.append_nil]

variable [PageSource σ]

def hasNext (session : Session σ) : Session σ :=
  session.on session.cursor.hasNext.cursor [] session.cursor.hasNext.notices

def tryNext (session : Session σ) : Session σ :=
  session.on session.cursor.tryNext.cursor (given session.cursor.tryNext.answer)
    session.cursor.tryNext.notices

def next (session : Session σ) : Session σ :=
  session.on session.cursor.next.cursor (item session.cursor.next.answer)
    session.cursor.next.notices

def takeLastError (session : Session σ) : Session σ :=
  session.on session.cursor.takeLastError.2 [] []

def close (session : Session σ) : Session σ := session.on session.cursor.close.2 [] []

/-- A drain hands out what it offers to the sink, also what the sink refuses. -/
def drain [RowSink κ] (session : Session σ) (sink : κ) (fuel : Nat) : Option (Session σ) :=
  (session.cursor.drainInto (Watched.mk sink []) fuel).map fun drained =>
    session.on drained.cursor drained.sink.rows drained.notices

/-- Calls on a cursor, in any order; a drain may go to any sink. A drain that is still under way
has made so many calls of `tryNext`. -/
inductive Step : Session σ → Session σ → Prop
  | hasNext (session : Session σ) : Step session session.hasNext
  | tryNext (session : Session σ) : Step session session.tryNext
  | next (session : Session σ) : Step session session.next
  | takeLastError (session : Session σ) : Step session session.takeLastError
  | close (session : Session σ) : Step session session.close
  | drain {κ : Type} [RowSink κ] {session after : Session σ} (sink : κ) (fuel : Nat)
      (ended : session.drain sink fuel = some after) : Step session after

abbrev Reaches (before after : Session σ) : Prop := ReflTransGen Step before after

/-- What calls are made of. -/
inductive Move : Session σ → Session σ → Prop
  | look {session : Session σ} {turn : Turn (Observed σ) Bool}
      (effect : session.cursor.Looks turn) :
      Move session (session.on turn.cursor [] turn.notices)
  | take {session : Session σ} {turn : Turn (Observed σ) (Except Error (Option Row))}
      (effect : session.cursor.Takes turn) :
      Move session (session.on turn.cursor (given turn.answer) turn.notices)
  | forget (session : Session σ) : Move session session.takeLastError
  | close (session : Session σ) : Move session session.close

abbrev Moves (before after : Session σ) : Prop := ReflTransGen Move before after

theorem Move.coherent {session after : Session σ} (move : Move session after)
    (coherent : session.cursor.Coherent) : after.cursor.Coherent := by
  cases move with
  | look effect => exact effect.coherent coherent
  | take effect => exact effect.coherent coherent
  | forget => exact ⟨coherent.paired, coherent.within⟩
  | close => exact ⟨coherent.paired, coherent.within⟩

theorem Moves.coherent {session after : Session σ} (moves : Moves session after)
    (coherent : session.cursor.Coherent) : after.cursor.Coherent := by
  induction moves with
  | refl => exact coherent
  | tail _ move ih => exact move.coherent ih

theorem tryNext_moves {session : Session σ} (coherent : session.cursor.Coherent) :
    Moves session session.tryNext :=
  .single (.take (Cursor.tryNext_effect coherent))

theorem turn_moves {session : Session σ} {answer : Except Error (Option Row)}
    {next : Cursor (Observed σ)} {notices : List Notice} (coherent : session.cursor.Coherent)
    (turned : session.cursor.tryNext = ⟨answer, next, notices⟩) :
    Moves session (session.on next (given answer) notices) := by
  have moved := tryNext_moves coherent
  rwa [tryNext, turned] at moved

theorem next_eq_tryNext (session : Session σ) : session.next = session.tryNext := by
  have same : item session.cursor.next.answer = given session.cursor.tryNext.answer := by
    rw [Cursor.next]
    rcases session.cursor.tryNext.answer with e | none | row <;> rfl
  rw [next, tryNext, same]
  rfl

section Drains
variable [RowSink κ]

/-- A drain is so many calls of `tryNext`, whose rows all go to the sink. -/
theorem drains_moves {session : Session σ} {watched : Watched κ}
    {drained : Drained (Observed σ) (Watched κ)} (coherent : session.cursor.Coherent)
    (drains : session.cursor.Drains watched drained) :
    ∃ rows, drained.sink.rows = watched.rows ++ rows ∧
      Moves session (session.on drained.cursor rows drained.notices) := by
  generalize here : session.cursor = cursor at drains
  induction drains generalizing session with
  | failed turned =>
    cases here
    exact ⟨[], (List.append_nil _).symm, turn_moves coherent turned⟩
  | finished turned =>
    cases here
    exact ⟨[], (List.append_nil _).symm, turn_moves coherent turned⟩
  | @refused _ _ _ _ _ row _ turned written =>
    cases here
    exact ⟨[row], Watched.rows_writeRow written, turn_moves coherent turned⟩
  | @wrote _ next _ _ notices row _ turned written _ ih =>
    cases here
    have moved := turn_moves coherent turned
    -- The rest of the drain starts in the session that has this row already.
    obtain ⟨more, rows, others⟩ := @ih (session.on next [row] notices) (moved.coherent coherent) rfl
    rw [on_on] at others
    refine ⟨row :: more, ?_, moved.trans others⟩
    rw [rows, Watched.rows_writeRow written, List.append_assoc, List.singleton_append]

theorem drain_moves {session after : Session σ} {sink : κ} {fuel : Nat}
    (coherent : session.cursor.Coherent) (ended : session.drain sink fuel = some after) :
    Moves session after := by
  obtain ⟨drained, ran, rfl⟩ := Option.map_eq_some_iff.mp ended
  rw [Cursor.drainInto] at ran
  rcases begun : RowSink.begin ⟨session.cursor.paths, session.cursor.types, false⟩
    (Watched.mk sink []) with ⟨e | ok, watched⟩
  · have none := Watched.rows_begin begun
    rw [begun] at ran
    cases ran
    simp only [none, on_self]
    exact .refl
  · have none := Watched.rows_begin begun
    rw [begun] at ran
    obtain ⟨rows, written, moves⟩ := drains_moves coherent (Cursor.drainRows_effect ran)
    rw [none, List.nil_append] at written
    exact written ▸ moves

end Drains

theorem Step.moves {session after : Session σ} (step : Step session after)
    (coherent : session.cursor.Coherent) : Moves session after := by
  cases step with
  | hasNext => exact .single (.look (Cursor.hasNext_effect session.cursor))
  | tryNext => exact tryNext_moves coherent
  | next => exact next_eq_tryNext session ▸ tryNext_moves coherent
  | takeLastError => exact .single (.forget session)
  | close => exact .single (.close session)
  | drain sink fuel ended => exact drain_moves coherent ended

/-- What the moves of a coherent cursor preserve, all calls preserve. -/
theorem Reaches.moves {session after : Session σ} (run : Reaches session after)
    (coherent : session.cursor.Coherent) : Moves session after := by
  induction run with
  | refl => exact .refl
  | tail _ step ih => exact ih.trans (step.moves (ih.coherent coherent))

theorem Reaches.coherent {session after : Session σ} (run : Reaches session after)
    (coherent : session.cursor.Coherent) : after.cursor.Coherent :=
  (run.moves coherent).coherent coherent

theorem Moves.keeps {P : Session σ → Prop} (kept : ∀ {s t}, Move s t → P s → P t)
    {session after : Session σ} (moves : Moves session after) (holds : P session) : P after := by
  induction moves with
  | refl => exact holds
  | tail _ move ih => exact kept move ih

theorem Reaches.keeps {P : Session σ → Prop} (kept : ∀ {s t}, Move s t → P s → P t)
    {session after : Session σ} (run : Reaches session after)
    (coherent : session.cursor.Coherent) (holds : P session) : P after :=
  (run.moves coherent).keeps kept holds

end Session
end SeriesClient.Paging
