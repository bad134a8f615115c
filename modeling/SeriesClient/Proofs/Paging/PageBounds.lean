import SeriesClient.Proofs.Overrun
import SeriesClient.Proofs.Paging.Session

/-! A cursor stays within its page. The calls are written once more with lookups and differences
that overrun where there is nothing, and in no state that calls can lead to does one of them. -/
namespace SeriesClient.Paging
open Export Wire
variable {σ κ : Type}

namespace Cursor

def bufferedRowsChecked (cursor : Cursor σ) : Except Overrun Nat :=
  leftBehind cursor.values.length cursor.index

/-- The row at hand is looked up in both lists of the page before it is decoded. -/
def advanceChecked (cursor : Cursor σ) :
    Except Overrun (Turn σ (Except Error (Option Row))) := do
  let _ ← lookUp cursor.bitmaps cursor.index
  let _ ← lookUp cursor.values cursor.index
  .ok cursor.advance

theorem advanceChecked_eq {cursor : Cursor σ} (coherent : cursor.Coherent)
    (left : cursor.index < cursor.values.length) :
    cursor.advanceChecked = .ok cursor.advance := by
  obtain ⟨values, bitmap, valued, masked, -⟩ := coherent.pending_eq_cons left
  rw [advanceChecked, lookUp_eq_ok_iff.mpr masked, lookUp_eq_ok_iff.mpr valued]
  rfl

variable [PageSource σ]

def tryNextChecked (cursor : Cursor σ) :
    Except Overrun (Turn σ (Except Error (Option Row))) := do
  let ready := cursor.hasNext
  if ready.answer then
    let turn ← ready.cursor.advanceChecked
    .ok { turn with notices := ready.notices ++ turn.notices }
  else .ok ⟨.ok none, ready.cursor, ready.notices⟩

theorem tryNextChecked_eq {cursor : Cursor σ} (coherent : cursor.Coherent) :
    cursor.tryNextChecked = .ok cursor.tryNext := by
  have look := hasNext_effect cursor
  rw [tryNextChecked, tryNext]
  cases found : cursor.hasNext.answer with
  | false => rfl
  | true =>
    have checked := advanceChecked_eq (look.coherent coherent) (look.left found)
    simp only [checked, if_true]
    rfl

-- A page that did not pair up would be overrun: here a row has no mask.
example (cursor : Cursor Script) :
    ({ cursor with index := 0, values := [[0]], bitmaps := [] }.tryNextChecked).map Turn.answer =
      .error ⟨0, 0⟩ := rfl

variable [RowSink κ]

/-- Like `drainRows`, and an overrun of any of its takes is one of the drain. -/
def drainRowsChecked (cursor : Cursor σ) (sink : κ) :
    (fuel : Nat) → Except Overrun (Option (Drained σ κ))
  | 0 => .ok none
  | fuel + 1 => do
    let turn ← cursor.tryNextChecked
    match turn.answer with
    | .error e => .ok (some ⟨.error e, turn.cursor, sink, turn.notices⟩)
    | .ok none =>
      let (answer, sink) := RowSink.finish sink
      .ok (some ⟨answer, turn.cursor, sink, turn.notices⟩)
    | .ok (some row) =>
      match RowSink.writeRow none row sink with
      | (.error e, sink) => .ok (some ⟨.error e, turn.cursor, sink, turn.notices⟩)
      | (.ok (), sink) => do
        let rest ← drainRowsChecked turn.cursor sink fuel
        .ok (rest.map fun drained => { drained with notices := turn.notices ++ drained.notices })

def drainIntoChecked (cursor : Cursor σ) (sink : κ) (fuel : Nat) :
    Except Overrun (Option (Drained σ κ)) :=
  match RowSink.begin ⟨cursor.paths, cursor.types, false⟩ sink with
  | (.error e, sink) => .ok (some ⟨.error e, cursor, sink, []⟩)
  | (.ok (), sink) => cursor.drainRowsChecked sink fuel

theorem drainRowsChecked_eq {cursor : Cursor σ} (coherent : cursor.Coherent) (sink : κ)
    (fuel : Nat) : cursor.drainRowsChecked sink fuel = .ok (cursor.drainRows sink fuel) := by
  induction fuel generalizing cursor sink with
  | zero => rfl
  | succ fuel ih =>
    have onward := (tryNext_effect coherent).coherent coherent
    rw [drainRowsChecked, drainRows, tryNextChecked_eq coherent]
    rcases turned : cursor.tryNext with ⟨e | none | row, next, notices⟩
    · rfl
    · rfl
    · rw [turned] at onward
      rcases written : RowSink.writeRow none row sink with ⟨e | ok, after⟩
      · simp only [bind, Except.bind, written]
      · simp only [bind, Except.bind, written, ih onward]

theorem drainIntoChecked_eq {cursor : Cursor σ} (coherent : cursor.Coherent) (sink : κ)
    (fuel : Nat) : cursor.drainIntoChecked sink fuel = .ok (cursor.drainInto sink fuel) := by
  rw [drainIntoChecked, drainInto]
  rcases RowSink.begin ⟨cursor.paths, cursor.types, false⟩ sink with ⟨e | ok, begun⟩
  · rfl
  · exact drainRowsChecked_eq coherent begun fuel

end Cursor

namespace Session
variable [PageSource σ]

/-- Whatever pages the source gives and in whatever order the calls are made, no more of a page is
used up than there is and its two lists pair up. So the rows still to come are counted by a true
difference, and neither a take nor a drain looks up what is not there. -/
theorem page_never_overrun {source : σ} {queryId : Int64} {paths : List String}
    {types : List DataType} {options : FetchOptions} {values bitmaps : List Bytes}
    {start : Cursor (Observed σ)} {session : Session σ}
    (opened : Cursor.withPage ⟨source, []⟩ queryId paths types options values bitmaps = .ok start)
    (run : Reaches ⟨start, [], []⟩ session) :
    session.cursor.index ≤ session.cursor.values.length ∧
    session.cursor.values.length = session.cursor.bitmaps.length ∧
    session.cursor.bufferedRowsChecked = .ok session.cursor.bufferedRows ∧
    session.cursor.tryNextChecked = .ok session.cursor.tryNext ∧
    ∀ {κ : Type} [RowSink κ] (sink : κ) (fuel : Nat),
      session.cursor.drainIntoChecked sink fuel = .ok (session.cursor.drainInto sink fuel) := by
  have coherent := run.coherent (Cursor.withPage_coherent opened)
  have counted : session.cursor.bufferedRowsChecked = .ok session.cursor.bufferedRows :=
    leftBehind_eq_ok_iff.mpr (Nat.add_sub_of_le coherent.within)
  exact ⟨coherent.within, coherent.paired, counted, Cursor.tryNextChecked_eq coherent,
    Cursor.drainIntoChecked_eq coherent⟩

/-- A source that fails, then gives a page that does not pair up, then one whose first row is cut
short. -/
def ragged : Script where
  pages := [.error (.transport "down"), .ok ⟨[[1], [0]], [[1]], true⟩,
    .ok ⟨[[], [1]], [[1], [1]], true⟩]
  closings := []

def raggedOpening : Session Script where
  cursor :=
    { source := ⟨ragged, []⟩, queryId := 7, options := {}, paths := ["pump"],
      types := [.boolean], values := [[0]], bitmaps := [[1]] }

/-- The fetch fails after the first page is given away; the row that is cut short uses up its whole
page. -/
def raggedReading : Session Script :=
  raggedOpening.tryNext.hasNext.takeLastError.next.tryNext

theorem ragged_never_overrun :
    Reaches raggedOpening raggedReading ∧
    raggedReading.notices = [.fetchFailed (.transport "down"),
      .fetchFailed (.corrupted .bitmap (.unequalBuffers 2 1)),
      .rowDamaged 0 (.corrupted (.cell 0 0) (.shortRead 1 0 0))] ∧
    raggedReading.cursor.index = 2 ∧ raggedReading.cursor.values.length = 2 ∧
    raggedReading.cursor.values.length = raggedReading.cursor.bitmaps.length ∧
    raggedReading.cursor.bufferedRowsChecked = .ok 0 ∧
    raggedReading.cursor.tryNextChecked = .ok raggedReading.cursor.tryNext := by
  have run : Reaches raggedOpening raggedReading :=
    .tail (.tail (.tail (.tail (.single (.tryNext _)) (.hasNext _)) (.takeLastError _)) (.next _))
      (.tryNext _)
  obtain ⟨-, paired, counted, taken, -⟩ := @page_never_overrun Script _ ragged 7 ["pump"]
    [.boolean] {} [[0]] [[1]] _ raggedReading rfl run
  exact ⟨run, by rfl, by rfl, by rfl, paired, counted, taken⟩

end Session
end SeriesClient.Paging
