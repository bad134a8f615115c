import SeriesClient.Proofs.Paging.Demand

/-! What a drain that ends well has done. Its sink was given all rows that were at hand and all that
came, in one whole session. Whether more are to come is for the cursor to say: a drain also ends
well behind a fetch that brought no row, and behind a row damaged before. -/
namespace SeriesClient.Paging
open Export Relation
variable {σ κ : Type}

/-- Why no page was taken from a fetch. -/
def Exchange.refusal? : Exchange → Option Error
  | fetched _ (.ok page) =>
    if page.values.length = page.bitmaps.length then none
    else some (.corrupted .bitmap (.unequalBuffers page.values.length page.bitmaps.length))
  | fetched _ (.error e) => some e
  | closed .. => none

namespace Cursor

/-- Why a cursor has no row to give: there is none, or the last of the exchanges `made` was a fetch
that brought none. -/
inductive Stops (cursor : Cursor (Observed σ)) (made : List Exchange) : Prop
  | exhausted (last : cursor.availability = .exhausted)
  | refused {exchange : Exchange} {e : Error} (latest : made.getLast? = some exchange)
      (reason : exchange.refusal? = some e) (unknown : cursor.availability = .unknown)
      (kept : cursor.lastError = some e)
  | paused {request : FetchRequest}
      (latest : made.getLast? = some (.fetched request (.ok ⟨[], [], true⟩)))
      (more : cursor.availability = .more)

theorem Stops.append {cursor : Cursor (Observed σ)} {made : List Exchange}
    (stops : cursor.Stops made) (earlier : List Exchange) : cursor.Stops (earlier ++ made) := by
  cases stops with
  | exhausted last => exact .exhausted last
  | refused latest reason unknown kept =>
    exact .refused (by rw [List.getLast?_append, latest, Option.some_or]) reason unknown kept
  | paused latest more =>
    exact .paused (by rw [List.getLast?_append, latest, Option.some_or]) more

/-- With nothing left at hand, the rows handed out are those that were there and those that came. -/
theorem Delivers.decodes {before after : Cursor (Observed σ)} {rows : List Row}
    {made : List Exchange} (delivers : before.Delivers rows after)
    (record : after.source.exchanges = before.source.exchanges ++ made)
    (empty : after.pending = []) : rows.map .ok =
      (before.pending ++ made.flatMap Exchange.accepted).map (Wire.readRow before.types) := by
  obtain ⟨used, fresh, accepted, kept, decoded⟩ := delivers.accounts
  rw [Observed.accepted, record, List.flatMap_append] at accepted
  rw [List.append_cancel_left accepted, kept, empty, List.append_nil]
  exact decoded

variable [PageSource σ]

theorem Fetches.stops {cursor fetched : Cursor (Observed σ)} {notices : List Notice}
    (effect : Fetches cursor fetched notices) (empty : fetched.values = []) :
    fetched.Stops [.fetched cursor.request cursor.asks.1] := by
  cases effect with
  | @accepted page source answered paired =>
    obtain ⟨values, bitmaps, hasMore⟩ := page
    cases empty
    cases List.eq_nil_of_length_eq_zero paired.symm
    rw [answered]
    cases hasMore with
    | true => exact .paused rfl rfl
    | false => exact .exhausted rfl
  | rejected answered unpaired reason =>
    rw [answered]
    exact .refused rfl ((if_neg unpaired).trans (congrArg some reason.symm)) rfl rfl
  | failed answered =>
    rw [answered]
    exact .refused rfl rfl rfl rfl

/-- A look that finds no row shows why. -/
theorem Looks.stops {cursor : Cursor (Observed σ)} {turn : Turn (Observed σ) Bool}
    (effect : Looks cursor turn) (none : turn.answer = false) :
    turn.cursor.Stops cursor.demand := by
  cases effect with
  | buffered left => cases none
  | ended used last => exact .exhausted last
  | asked used more fetching =>
    rw [demand, if_pos ⟨used, more⟩]
    exact fetching.stops (List.isEmpty_iff.mp ((Bool.not_eq_false' _).mp none))

end Cursor

namespace Session

variable [PageSource σ]

/-- A drain of the session that went through: it handed out `rows`, made these exchanges, met no
damage and left nothing at hand. -/
structure Emptied (session : Session σ) (rows : List Row) (made : List Exchange)
    (drained : Drained (Observed σ) κ) : Prop where
  moves : Moves session (session.on drained.cursor rows drained.notices)
  sound : Undamaged drained.notices
  delivers : session.cursor.Delivers rows drained.cursor
  record : drained.cursor.source.exchanges = session.cursor.source.exchanges ++ made
  empty : drained.cursor.pending = []
  stops : drained.cursor.Stops made

theorem emptied_of_drains [RowSink κ] {session : Session σ} {sink : κ}
    {drained : Drained (Observed σ) κ} (coherent : session.cursor.Coherent)
    (drains : session.cursor.Drains sink drained) (well : drained.answer = .ok ()) :
    ∃ rows made written, RowSink.writeRows [] rows sink = (.ok (), written) ∧
      RowSink.finish written = (.ok (), drained.sink) ∧ session.Emptied rows made drained := by
  generalize here : session.cursor = cursor at drains
  induction drains generalizing session with
  | failed turned => cases well
  | refused turned written => cases well
  | @finished _ _ sink _ turned =>
    cases here
    have effect := Cursor.tryNext_effect coherent
    rw [turned] at effect
    have sound := effect.undamaged_iff.mpr ⟨none, rfl⟩
    cases effect with
    | nothing look =>
      exact ⟨[], session.cursor.demand, sink, rfl, Prod.ext well rfl, turn_moves coherent turned,
        sound, look.delivers, look.exchanges, look.used rfl, look.stops rfl⟩
  | @wrote _ next _ _ notices row _ turned written _ ih =>
    cases here
    have effect := Cursor.tryNext_effect coherent
    rw [turned] at effect
    have sound := effect.undamaged_iff.mpr ⟨some row, rfl⟩
    have moved := turn_moves coherent turned
    -- The rest of the drain starts in the session that has this row already.
    obtain ⟨rows, made, last, wrote, closed, emptied⟩ :=
      @ih (session.on next [row] notices) (moved.coherent coherent) well rfl
    have moves := emptied.moves
    rw [on_on] at moves
    refine ⟨row :: rows, session.cursor.demand ++ made, last, ?_, closed, moved.trans moves,
      undamaged_append.mpr ⟨sound, emptied.sound⟩,
      (effect.delivers sound).trans emptied.delivers, ?_, emptied.empty, emptied.stops.append _⟩
    · rw [RowSink.writeRows, List.head?_nil, written]
      exact wrote
    · rw [emptied.record, ← List.append_assoc]
      exact congrArg (· ++ made) effect.exchanges

/-- A drain that ends well has taken its sink through one whole session, with the rows that were at
hand and those that came during the drain, in this order and all decoded. No row is at hand then,
and the cursor shows why; where it says that there are no more, the source has said so before, or a
row was damaged before the drain. -/
theorem drained_accounted [RowSink κ] {source : σ} {queryId : Int64} {paths : List String}
    {types : List DataType} {options : FetchOptions} {values bitmaps : List Bytes}
    {start : Cursor (Observed σ)} {session : Session σ} {sink : κ} {fuel : Nat}
    {drained : Drained (Observed σ) κ}
    (opened : Cursor.withPage ⟨source, []⟩ queryId paths types options values bitmaps = .ok start)
    (run : Reaches ⟨start, [], []⟩ session)
    (ended : session.cursor.drainInto sink fuel = some drained) (well : drained.answer = .ok ()) :
    ∃ rows made,
      RowSink.session ⟨session.cursor.paths, session.cursor.types, false⟩ [] rows sink =
        (.ok (), drained.sink) ∧
      drained.cursor.source.exchanges = session.cursor.source.exchanges ++ made ∧
      rows.map .ok = (session.cursor.pending ++ made.flatMap Exchange.accepted).map
        (Wire.readRow session.cursor.types) ∧
      drained.cursor.bufferedRows = 0 ∧ drained.cursor.Stops made ∧
      (drained.cursor.availability = .exhausted ↔
        drained.cursor.source.Finished ∨ ¬ Undamaged session.notices) := by
  have coherent := run.coherent (Cursor.withPage_coherent opened)
  have foreseen := run.keeps (fun move foreseen => foreseen.move move)
    (Cursor.withPage_coherent opened) (withPage_foreseen opened)
  rw [Cursor.drainInto] at ended
  rcases begun : RowSink.begin ⟨session.cursor.paths, session.cursor.types, false⟩ sink with
    ⟨e | ok, sink'⟩
  · rw [begun] at ended
    cases ended
    cases well
  · rw [begun] at ended
    obtain ⟨rows, made, last, wrote, closed, emptied⟩ :=
      emptied_of_drains coherent (Cursor.drainRows_effect ended) well
    have after := emptied.moves.coherent coherent
    have known := emptied.moves.keeps (fun move foreseen => foreseen.move move) foreseen
    have damage : Undamaged (session.notices ++ drained.notices) ↔ Undamaged session.notices :=
      undamaged_append.trans (and_iff_left emptied.sound)
    refine ⟨rows, made, ?_, emptied.record,
      emptied.delivers.decodes emptied.record emptied.empty, ?_, emptied.stops, ?_⟩
    · rw [RowSink.session, begun]
      simp only [wrote, closed]
    · exact after.length_pending.symm.trans (congrArg List.length emptied.empty)
    · exact known.exhausted_iff.trans (or_congr_right (not_congr damage))

/-- A cursor on a source that has one row, on the page after `first`. -/
def withheld (first : Except Error Page) : Session Script :=
  scripted { pages := [first, .ok ⟨[[1]], [[1]], false⟩], closings := [] }

/-- After a look that failed, a drain gives the row to its sink and knows that it was the last. -/
theorem withheld_accounted : ∃ drained,
    (withheld (.error (.transport "down"))).hasNext.cursor.drainInto ({} : Recorder) 2 =
      some drained ∧
    drained.answer = .ok () ∧ drained.cursor.availability = .exhausted ∧
    drained.cursor.source.Finished ∧
    ∃ rows, RowSink.session ⟨["pump"], [.boolean], false⟩ [] rows ({} : Recorder) =
      (.ok (), drained.sink) := by
  have run : Reaches (withheld (.error (.transport "down")))
      (withheld (.error (.transport "down"))).hasNext := .single (.hasNext _)
  have sound : Undamaged (withheld (.error (.transport "down"))).hasNext.notices :=
    (Cursor.hasNext_effect _).undamaged
  refine ⟨_, rfl, rfl, rfl, ?_⟩
  obtain ⟨rows, made, whole, -, -, -, -, ended⟩ := @drained_accounted Script Recorder _ _ _ 7
    ["pump"] [.boolean] {} [] [] _ _ {} 2 _ rfl run rfl rfl
  exact ⟨(ended.mp rfl).resolve_right (not_not_intro sound), rows, whole⟩

/-- A drain ends well, having told its sink of a whole result without a row, while the source still
has the row. -/
def EndsShort (session : Session Script) (left : Availability) : Prop :=
  ∃ drained, session.cursor.drainInto ({} : Recorder) 1 = some drained ∧ drained.answer = .ok () ∧
    drained.sink.calls = [.begin ⟨["pump"], [.boolean], false⟩, .finish] ∧
    drained.cursor.availability = left ∧
    drained.cursor.source.source.pages = [.ok ⟨[[1]], [[1]], false⟩]

/-- So it goes with an empty page that announces more, with a failed fetch, and after a row that was
damaged, with more pages announced. -/
theorem drained_short :
    (withheld (.ok ⟨[], [], true⟩)).EndsShort .more ∧
    (withheld (.error (.transport "down"))).EndsShort .unknown ∧
    (withheld (.ok ⟨[[]], [[1]], true⟩)).tryNext.EndsShort .exhausted :=
  ⟨⟨_, rfl, rfl, rfl, rfl, rfl⟩, ⟨_, rfl, rfl, rfl, rfl, rfl⟩, ⟨_, rfl, rfl, rfl, rfl, rfl⟩⟩

end Session
end SeriesClient.Paging
