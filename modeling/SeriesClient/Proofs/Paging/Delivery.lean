import SeriesClient.Export.Recorder
import SeriesClient.Proofs.Paging.Session

/-! Rows in, rows out: what a cursor has handed out is the front of what it has received, and the
page at hand is the rest. Failed fetches and rejected pages take no part in it. -/
namespace SeriesClient.Paging
open Export Relation
variable {σ : Type}

/-- No report of a row that did not decode. -/
def Undamaged (notices : List Notice) : Prop := ∀ row e, Notice.rowDamaged row e ∉ notices

theorem undamaged_append {first second : List Notice} :
    Undamaged (first ++ second) ↔ Undamaged first ∧ Undamaged second := by
  constructor
  · intro both
    exact ⟨fun row e found => both row e (List.mem_append_left second found),
      fun row e found => both row e (List.mem_append_right first found)⟩
  · rintro ⟨left, right⟩ row e found
    rcases List.mem_append.mp found with earlier | later
    · exact left row e earlier
    · exact right row e later

namespace Cursor

/-- Between two states of a cursor `rows` were handed out: they are the front of what was at hand
and what was accepted in between, and what is left is at hand now. -/
structure Delivers (before : Cursor (Observed σ)) (rows : List Row)
    (after : Cursor (Observed σ)) : Prop where
  types : after.types = before.types
  accounts : ∃ used fresh, after.source.accepted = before.source.accepted ++ fresh ∧
    before.pending ++ fresh = used ++ after.pending ∧
    rows.map .ok = used.map (Wire.readRow before.types)

theorem Delivers.refl (cursor : Cursor (Observed σ)) : cursor.Delivers [] cursor :=
  ⟨rfl, [], [], (List.append_nil _).symm, List.append_nil _, rfl⟩

theorem Delivers.trans {first second third : Cursor (Observed σ)} {rows more : List Row}
    (earlier : first.Delivers rows second) (later : second.Delivers more third) :
    first.Delivers (rows ++ more) third := by
  obtain ⟨used, fresh, accepted, kept, decoded⟩ := earlier.accounts
  obtain ⟨used', fresh', accepted', kept', decoded'⟩ := later.accounts
  refine ⟨later.types.trans earlier.types, used ++ used', fresh ++ fresh', ?_, ?_, ?_⟩
  · rw [accepted', accepted, List.append_assoc]
  · rw [← List.append_assoc, kept, List.append_assoc, kept', List.append_assoc]
  · rw [earlier.types] at decoded'
    rw [List.map_append, List.map_append, decoded, decoded']

theorem delivers_cleared {cursor : Cursor (Observed σ)}
    (used : cursor.values.length ≤ cursor.index) : cursor.Delivers [] cursor.cleared := by
  refine ⟨rfl, [], [], (List.append_nil _).symm, ?_, rfl⟩
  rw [pending_of_used used, pending_cleared]

theorem delivers_stepped {cursor : Cursor (Observed σ)} {row : Bytes × Bytes} {cells : Row}
    (atHand : cursor.pending = row :: cursor.stepped.pending)
    (decoded : Wire.readRow cursor.types row = .ok cells) :
    cursor.Delivers [cells] cursor.stepped := by
  refine ⟨rfl, [row], [], (List.append_nil _).symm, ?_, ?_⟩
  · rw [List.append_nil, atHand, List.singleton_append]
  · rw [List.map_singleton, List.map_singleton, decoded]

variable [PageSource σ]

theorem accepted_of_asked {cursor : Cursor (Observed σ)} {answer : Except Error Page}
    {source : Observed σ} (answered : cursor.asks = (answer, source)) :
    source.accepted = cursor.source.accepted ++
      (Exchange.fetched cursor.request answer).accepted := by
  rw [Observed.accepted, asked_exchange answered, List.flatMap_append, List.flatMap_singleton]
  rfl

/-- Onto an empty place a fetch brings what it accepts, and nothing else. -/
theorem Fetches.delivers {cursor fetched : Cursor (Observed σ)} {notices : List Notice}
    (effect : Fetches cursor fetched notices) (empty : cursor.pending = [])
    (fresh : cursor.index = 0) : cursor.Delivers [] fetched := by
  cases effect with
  | @accepted page source answered paired =>
    refine ⟨rfl, [], page.rows, ?_, ?_, rfl⟩
    · rw [accepted_of_asked answered, Exchange.accepted, if_pos paired]
    · rw [empty, pending, fresh]
      rfl
  | rejected answered unpaired reason =>
    refine ⟨rfl, [], [], ?_, List.append_nil _, rfl⟩
    rw [accepted_of_asked answered, Exchange.accepted, if_neg unpaired]
  | failed answered =>
    refine ⟨rfl, [], [], ?_, List.append_nil _, rfl⟩
    rw [accepted_of_asked answered, Exchange.accepted]

theorem Looks.delivers {cursor : Cursor (Observed σ)} {turn : Turn (Observed σ) Bool}
    (effect : Looks cursor turn) : cursor.Delivers [] turn.cursor := by
  cases effect with
  | buffered left => exact .refl cursor
  | ended used last => exact delivers_cleared used
  | asked used more fetching =>
    exact (delivers_cleared used).trans (fetching.delivers (pending_cleared cursor) rfl)

theorem Takes.delivers {cursor : Cursor (Observed σ)}
    {turn : Turn (Observed σ) (Except Error (Option Row))} (effect : Takes cursor turn)
    (sound : Undamaged turn.notices) : cursor.Delivers (given turn.answer) turn.cursor := by
  cases effect with
  | nothing look => exact look.delivers
  | row look left atHand decoded => exact look.delivers.trans (delivers_stepped atHand decoded)
  | damaged look left atHand refused =>
    exact absurd (List.mem_append_right _ List.mem_cons_self) (sound _ _)

theorem delivers_close (cursor : Cursor (Observed σ)) :
    cursor.Delivers [] cursor.close.2 := by
  refine ⟨rfl, [], [], ?_, List.append_nil _, rfl⟩
  exact List.flatMap_append

end Cursor

namespace Session

/-- The rows handed out account for what was received, unless a row was damaged. -/
def Accounts (start : Cursor (Observed σ)) (session : Session σ) : Prop :=
  Undamaged session.notices → start.Delivers session.handed session.cursor

theorem Accounts.on {start cursor : Cursor (Observed σ)} {session : Session σ} {rows : List Row}
    {notices : List Notice} (accounts : Accounts start session)
    (delivers : Undamaged notices → session.cursor.Delivers rows cursor) :
    Accounts start (session.on cursor rows notices) := by
  intro sound
  obtain ⟨before, now⟩ := undamaged_append.mp sound
  exact (accounts before).trans (delivers now)

variable [PageSource σ]

theorem Accounts.move {start : Cursor (Observed σ)} {session after : Session σ}
    (accounts : Accounts start session) (move : Move session after) : Accounts start after := by
  cases move with
  | look effect => exact accounts.on fun _ => effect.delivers
  | take effect => exact accounts.on effect.delivers
  | forget => exact accounts.on fun _ => ⟨rfl, (Cursor.Delivers.refl session.cursor).accounts⟩
  | close => exact accounts.on fun _ => Cursor.delivers_close session.cursor

theorem Accounts.moves {start : Cursor (Observed σ)} {session after : Session σ}
    (accounts : Accounts start session) (moves : Moves session after) : Accounts start after := by
  induction moves with
  | refl => exact accounts
  | tail _ move ih => exact ih.move move

/-- Rows received: those of the first page and those of the accepted pages after it. -/
def received (session : Session σ) (first : List (Bytes × Bytes)) : List (Bytes × Bytes) :=
  first ++ session.cursor.source.accepted

/-- Rows received that are not at hand any more. -/
def gone (session : Session σ) (first : List (Bytes × Bytes)) : Nat :=
  (session.received first).length - session.cursor.bufferedRows

/-- Whatever the source answers and in whatever order the calls are made, no row is lost, repeated
or moved: the rows handed out decode the front of what was received, the page at hand is what is
left of it. -/
theorem rows_conserved {source : σ} {queryId : Int64} {paths : List String}
    {types : List DataType} {options : FetchOptions} {values bitmaps : List Bytes}
    {start : Cursor (Observed σ)} {session : Session σ}
    (opened : Cursor.withPage ⟨source, []⟩ queryId paths types options values bitmaps = .ok start)
    (run : Reaches ⟨start, [], []⟩ session) (sound : Undamaged session.notices) :
    let first := values.zip bitmaps
    session.cursor.bufferedRows ≤ (session.received first).length ∧
    session.handed.map .ok =
      ((session.received first).take (session.gone first)).map (Wire.readRow types) ∧
    session.cursor.values.drop session.cursor.index =
      ((session.received first).drop (session.gone first)).map Prod.fst ∧
    session.cursor.bitmaps.drop session.cursor.index =
      ((session.received first).drop (session.gone first)).map Prod.snd := by
  intro first
  have moves := run.moves (Cursor.withPage_coherent opened)
  have coherent := moves.coherent (Cursor.withPage_coherent opened)
  have begun : Accounts start ⟨start, [], []⟩ := fun _ => .refl start
  obtain ⟨used, fresh, accepted, kept, decoded⟩ := (begun.moves moves sound).accounts
  -- At the start nothing is accepted and the first page is at hand.
  obtain ⟨-, -, rfl⟩ := Cursor.withPage_eq_ok.mp opened
  have whole : session.received first = used ++ session.cursor.pending := by
    rw [received, accepted]
    exact kept
  have left := coherent.length_pending
  have count : session.gone first = used.length := by
    rw [gone, whole, List.length_append]
    omega
  rw [count, whole, List.take_left, List.drop_left, coherent.map_fst_pending,
    coherent.map_snd_pending]
  refine ⟨?_, decoded, rfl, rfl⟩
  rw [List.length_append]
  omega

/-- A source that fails, then gives a page that does not pair up, then two good pages. -/
def faltering : Observed Script where
  source :=
    { pages := [.error (.transport "down"), .ok ⟨[[1]], [], true⟩, .ok ⟨[[1]], [[1]], true⟩,
        .ok ⟨[[], [0]], [[0], [1]], false⟩]
      closings := [] }

def opening : Session Script where
  cursor :=
    { source := faltering, queryId := 7, options := {}, paths := ["pump"], types := [.boolean],
      values := [[0]], bitmaps := [[1]] }

/-- Looks, takes and a drain; both failed looks come before the second row. -/
def faltered : Option (Session Script) :=
  opening.hasNext.tryNext.tryNext.hasNext.takeLastError.next.close.drain ({} : Recorder) 3

theorem faltered_conserved : ∃ session, faltered = some session ∧
    session.notices = [.fetchFailed (.transport "down"),
      .fetchFailed (.corrupted .bitmap (.unequalBuffers 1 0))] ∧
    session.handed = [[some (.boolean false)], [some (.boolean true)], [none],
      [some (.boolean false)]] ∧
    session.handed.map .ok = ((session.received [([0], [1])]).take
      (session.gone [([0], [1])])).map (Wire.readRow [.boolean]) := by
  have run : Reaches opening opening.hasNext.tryNext.tryNext.hasNext.takeLastError.next.close :=
    .tail (.tail (.tail (.tail (.tail (.tail (.single (.hasNext _)) (.tryNext _)) (.tryNext _))
      (.hasNext _)) (.takeLastError _)) (.next _)) (.close _)
  obtain ⟨session, ended⟩ := Option.isSome_iff_exists.mp (show faltered.isSome = true by rfl)
  have notices : faltered.map (·.notices) = some [.fetchFailed (.transport "down"),
      .fetchFailed (.corrupted .bitmap (.unequalBuffers 1 0))] := by rfl
  have handed : faltered.map (·.handed) = some [[some (.boolean false)], [some (.boolean true)],
      [none], [some (.boolean false)]] := by rfl
  rw [ended] at notices handed
  have reported := Option.some.inj notices
  have sound : Undamaged session.notices := by
    intro row e
    simp [reported]
  exact ⟨session, ended, reported, Option.some.inj handed,
    (@rows_conserved Script _ faltering.source 7 ["pump"] [.boolean] {} [[0]] [[1]] _ session rfl
      (run.tail (.drain ({} : Recorder) 3 ended)) sound).2.1⟩

end Session
end SeriesClient.Paging
