import SeriesClient.Paging.Drain
import SeriesClient.Proofs.Wire.ReceivedRow

/-! What a call does to a cursor, by what the source answers and what the page at hand holds. The
effects say everything a call can do, so that no invariant opens the calls themselves. -/
namespace SeriesClient.Paging.Cursor
open Export Wire
variable {σ κ : Type}

/-- Rows of the page at hand that are still to come, as received. -/
def pending (cursor : Cursor σ) : List (Bytes × Bytes) :=
  (cursor.values.zip cursor.bitmaps).drop cursor.index

/-- The page at hand pairs up, and no more of it is used up than there is. -/
structure Coherent (cursor : Cursor σ) : Prop where
  paired : cursor.values.length = cursor.bitmaps.length
  within : cursor.index ≤ cursor.values.length

/-- The cursor with its page given away. -/
def cleared (cursor : Cursor σ) : Cursor σ :=
  { cursor with values := [], bitmaps := [], index := 0 }

/-- The cursor past its next row. -/
def stepped (cursor : Cursor σ) : Cursor σ := { cursor with index := cursor.index + 1 }

/-- The cursor after a row that did not decode. -/
def spent (cursor : Cursor σ) : Cursor σ :=
  { cursor with index := cursor.values.length, availability := .exhausted }

/-- A cursor opens on a page that pairs up, under as many types as paths. -/
theorem withPage_eq_ok {source : σ} {queryId : Int64} {paths : List String}
    {types : List DataType} {options : FetchOptions} {values bitmaps : List Bytes}
    {cursor : Cursor σ} : withPage source queryId paths types options values bitmaps = .ok cursor ↔
      paths.length = types.length ∧ values.length = bitmaps.length ∧
        cursor = { source, queryId, options, paths, types, values, bitmaps } := by
  rw [withPage]
  by_cases declared : paths.length = types.length
  · by_cases paired : values.length = bitmaps.length
    · simp only [declared, paired, checkBuffers, ne_eq, not_true_eq_false, ↓reduceIte, bind,
        Except.bind, Except.ok.injEq, true_and, eq_comm]
    · simp [declared, paired, checkBuffers, bind, Except.bind]
  · simp [declared, bind, Except.bind]

theorem withPage_coherent {source : σ} {queryId : Int64} {paths : List String}
    {types : List DataType} {options : FetchOptions} {values bitmaps : List Bytes}
    {cursor : Cursor σ}
    (opened : withPage source queryId paths types options values bitmaps = .ok cursor) :
    cursor.Coherent := by
  obtain ⟨-, paired, rfl⟩ := withPage_eq_ok.mp opened
  exact ⟨paired, Nat.zero_le _⟩

theorem cleared_coherent (cursor : Cursor σ) : cursor.cleared.Coherent := ⟨rfl, Nat.le_refl 0⟩

@[simp] theorem pending_cleared (cursor : Cursor σ) : cursor.cleared.pending = [] := rfl

theorem pending_of_used {cursor : Cursor σ} (used : cursor.values.length ≤ cursor.index) :
    cursor.pending = [] := by
  apply List.drop_eq_nil_of_le
  rw [List.length_zip]
  omega

theorem pending_spent (cursor : Cursor σ) : cursor.spent.pending = [] :=
  pending_of_used (Nat.le_refl _)

theorem Coherent.length_pending {cursor : Cursor σ} (coherent : cursor.Coherent) :
    cursor.pending.length = cursor.bufferedRows := by
  have paired := coherent.paired
  rw [pending, List.length_drop, List.length_zip, bufferedRows]
  omega

theorem Coherent.map_fst_pending {cursor : Cursor σ} (coherent : cursor.Coherent) :
    cursor.pending.map Prod.fst = cursor.values.drop cursor.index := by
  rw [pending, List.map_drop, List.map_fst_zip (Nat.le_of_eq coherent.paired)]

theorem Coherent.map_snd_pending {cursor : Cursor σ} (coherent : cursor.Coherent) :
    cursor.pending.map Prod.snd = cursor.bitmaps.drop cursor.index := by
  rw [pending, List.map_drop, List.map_snd_zip (Nat.le_of_eq coherent.paired.symm)]

/-- With a row left, the page at hand shows both of its buffers. -/
theorem Coherent.pending_eq_cons {cursor : Cursor σ} (coherent : cursor.Coherent)
    (left : cursor.index < cursor.values.length) :
    ∃ values bitmap, cursor.values[cursor.index]? = some values ∧
      cursor.bitmaps[cursor.index]? = some bitmap ∧
      cursor.pending = (values, bitmap) :: cursor.stepped.pending := by
  have masked : cursor.index < cursor.bitmaps.length := coherent.paired ▸ left
  refine ⟨cursor.values[cursor.index], cursor.bitmaps[cursor.index],
    List.getElem?_eq_getElem left, List.getElem?_eq_getElem masked, ?_⟩
  have there : cursor.index < (cursor.values.zip cursor.bitmaps).length := by
    rw [List.length_zip]
    omega
  rw [pending, List.drop_eq_getElem_cons there, List.getElem_zip]
  rfl

theorem Coherent.stepped {cursor : Cursor σ} (coherent : cursor.Coherent)
    (left : cursor.index < cursor.values.length) : cursor.stepped.Coherent :=
  ⟨coherent.paired, left⟩

theorem Coherent.spent {cursor : Cursor σ} (coherent : cursor.Coherent) :
    cursor.spent.Coherent :=
  ⟨coherent.paired, Nat.le_refl _⟩

def request (cursor : Cursor σ) : FetchRequest := cursor.options.request cursor.queryId

variable [PageSource σ]

/-- The answer of the source to the next request, and the source after it. -/
def asks (cursor : Cursor σ) : Except Error Page × σ :=
  PageSource.fetch cursor.request cursor.source

/-- What asking for a page does: a page that pairs up is taken, anything else is kept as the last
error and leaves the page at hand. -/
inductive Fetches (cursor : Cursor σ) : Cursor σ → List Notice → Prop
  | accepted {page : Page} {source : σ} (answered : cursor.asks = (.ok page, source))
      (paired : page.values.length = page.bitmaps.length) :
      Fetches cursor { cursor with
        source
        values := page.values
        bitmaps := page.bitmaps
        availability := if page.hasMore then .more else .exhausted } []
  | rejected {page : Page} {source : σ} {e : Error} (answered : cursor.asks = (.ok page, source))
      (unpaired : page.values.length ≠ page.bitmaps.length)
      (reason : e = .corrupted .bitmap
        (.unequalBuffers page.values.length page.bitmaps.length)) :
      Fetches cursor { cursor with source, availability := .unknown, lastError := some e }
        [.fetchFailed e]
  | failed {source : σ} {e : Error} (answered : cursor.asks = (.error e, source)) :
      Fetches cursor { cursor with source, availability := .unknown, lastError := some e }
        [.fetchFailed e]

theorem fetch_effect (cursor : Cursor σ) : Fetches cursor cursor.fetch.1 cursor.fetch.2 := by
  cases answered : cursor.asks with
  | mk answer source =>
    have asked := answered
    rw [asks, request] at asked
    cases answer with
    | error e =>
      rw [fetch, asked]
      exact .failed answered
    | ok page =>
      by_cases paired : page.values.length = page.bitmaps.length
      · rw [fetch, asked]
        simp only [bind, Except.bind, checkBuffers, if_neg (not_not_intro paired)]
        exact .accepted answered paired
      · rw [fetch, asked]
        simp only [bind, Except.bind, checkBuffers, if_pos paired]
        exact .rejected answered paired rfl

/-- What looking for another row does. -/
inductive Looks (cursor : Cursor σ) : Turn σ Bool → Prop
  | buffered (left : cursor.index < cursor.values.length) : Looks cursor ⟨true, cursor, []⟩
  | ended (used : cursor.values.length ≤ cursor.index) (last : cursor.availability = .exhausted) :
      Looks cursor ⟨false, cursor.cleared, []⟩
  | asked {fetched : Cursor σ} {notices : List Notice}
      (used : cursor.values.length ≤ cursor.index) (more : cursor.availability ≠ .exhausted)
      (fetching : Fetches cursor.cleared fetched notices) :
      Looks cursor ⟨!fetched.values.isEmpty, fetched, notices⟩

theorem hasNext_effect (cursor : Cursor σ) : Looks cursor cursor.hasNext := by
  rw [hasNext]
  split
  · next left => exact .buffered left
  · next used =>
    simp only
    split
    · next last => exact .ended (Nat.le_of_not_lt used) last
    · next more => exact .asked (Nat.le_of_not_lt used) more (fetch_effect cursor.cleared)

/-- What taking a row does: after a look, the row at hand is decoded if there is one. -/
inductive Takes (cursor : Cursor σ) : Turn σ (Except Error (Option Row)) → Prop
  | nothing {ended : Cursor σ} {notices : List Notice}
      (look : Looks cursor ⟨false, ended, notices⟩) : Takes cursor ⟨.ok none, ended, notices⟩
  | row {ready : Cursor σ} {notices : List Notice} {row : Bytes × Bytes} {cells : Row}
      (look : Looks cursor ⟨true, ready, notices⟩) (left : ready.index < ready.values.length)
      (atHand : ready.pending = row :: ready.stepped.pending)
      (decoded : readRow ready.types row = .ok cells) :
      Takes cursor ⟨.ok (some cells), ready.stepped, notices⟩
  | damaged {ready : Cursor σ} {notices : List Notice} {row : Bytes × Bytes} {e : Error}
      (look : Looks cursor ⟨true, ready, notices⟩) (left : ready.index < ready.values.length)
      (atHand : ready.pending = row :: ready.stepped.pending)
      (refused : readRow ready.types row = .error e) :
      Takes cursor ⟨.error e, ready.spent, notices ++ [.rowDamaged ready.index e]⟩

/-- What draining rows does to a sink whose session has begun: so many takes and writes, up to the
end of the rows or the first failure. -/
inductive Drains [RowSink κ] : Cursor σ → κ → Drained σ κ → Prop
  | failed {cursor next : Cursor σ} {sink : κ} {notices : List Notice} {e : Error}
      (turned : cursor.tryNext = ⟨.error e, next, notices⟩) :
      Drains cursor sink ⟨.error e, next, sink, notices⟩
  | finished {cursor next : Cursor σ} {sink : κ} {notices : List Notice}
      (turned : cursor.tryNext = ⟨.ok none, next, notices⟩) :
      Drains cursor sink ⟨(RowSink.finish sink).1, next, (RowSink.finish sink).2, notices⟩
  | refused {cursor next : Cursor σ} {sink after : κ} {notices : List Notice} {row : Row}
      {e : Error} (turned : cursor.tryNext = ⟨.ok (some row), next, notices⟩)
      (written : RowSink.writeRow none row sink = (.error e, after)) :
      Drains cursor sink ⟨.error e, next, after, notices⟩
  | wrote {cursor next : Cursor σ} {sink after : κ} {notices : List Notice} {row : Row}
      {rest : Drained σ κ} (turned : cursor.tryNext = ⟨.ok (some row), next, notices⟩)
      (written : RowSink.writeRow none row sink = (.ok (), after))
      (others : Drains next after rest) :
      Drains cursor sink { rest with notices := notices ++ rest.notices }

theorem drainRows_effect [RowSink κ] {cursor : Cursor σ} {sink : κ} {fuel : Nat}
    {drained : Drained σ κ} (ended : cursor.drainRows sink fuel = some drained) :
    Drains cursor sink drained := by
  induction fuel generalizing cursor sink drained with
  | zero => cases ended
  | succ fuel ih =>
    rw [drainRows] at ended
    rcases turned : cursor.tryNext with ⟨e | none | row, next, notices⟩
    · rw [turned] at ended
      cases ended
      exact .failed turned
    · rw [turned] at ended
      cases ended
      exact .finished turned
    · rcases written : RowSink.writeRow none row sink with ⟨e | ok, after⟩
      · simp only [turned, written] at ended
        cases ended
        exact .refused turned written
      · simp only [turned, written] at ended
        obtain ⟨rest, ran, rfl⟩ := Option.map_eq_some_iff.mp ended
        exact .wrote turned written (ih ran)

section Invariants

theorem Fetches.coherent {cursor fetched : Cursor σ} {notices : List Notice}
    (effect : Fetches cursor fetched notices) (fresh : cursor.index = 0)
    (coherent : cursor.Coherent) : fetched.Coherent := by
  cases effect with
  | accepted answered paired => exact ⟨paired, fresh ▸ Nat.zero_le _⟩
  | rejected => exact ⟨coherent.paired, coherent.within⟩
  | failed => exact ⟨coherent.paired, coherent.within⟩

theorem Fetches.index_eq {cursor fetched : Cursor σ} {notices : List Notice}
    (effect : Fetches cursor fetched notices) : fetched.index = cursor.index := by
  cases effect <;> rfl

theorem Looks.coherent {cursor : Cursor σ} {turn : Turn σ Bool} (effect : Looks cursor turn)
    (coherent : cursor.Coherent) : turn.cursor.Coherent := by
  cases effect with
  | buffered left => exact coherent
  | ended used last => exact cleared_coherent cursor
  | asked used more fetching => exact fetching.coherent rfl (cleared_coherent cursor)

/-- A look that finds a row leaves it at hand. -/
theorem Looks.left {cursor : Cursor σ} {turn : Turn σ Bool} (effect : Looks cursor turn)
    (found : turn.answer = true) : turn.cursor.index < turn.cursor.values.length := by
  cases effect with
  | buffered left => exact left
  | ended used last => cases found
  | asked used more fetching =>
    rw [fetching.index_eq]
    have filled := (Bool.not_eq_true' _).mp found
    exact List.length_pos_iff.mpr (List.isEmpty_eq_false_iff.mp filled)

/-- A look that finds no row leaves nothing at hand. -/
theorem Looks.used {cursor : Cursor σ} {turn : Turn σ Bool} (effect : Looks cursor turn)
    (none : turn.answer = false) : turn.cursor.pending = [] := by
  cases effect with
  | buffered left => cases none
  | ended used last => exact pending_cleared cursor
  | asked used more fetching =>
    have empty := (Bool.not_eq_false' _).mp none
    refine pending_of_used ?_
    rw [List.isEmpty_iff.mp empty]
    exact Nat.zero_le _

theorem tryNext_effect {cursor : Cursor σ} (coherent : cursor.Coherent) :
    Takes cursor cursor.tryNext := by
  have look := hasNext_effect cursor
  have ready := look.coherent coherent
  rw [tryNext]
  cases turned : cursor.hasNext with
  | mk answer after notices =>
    rw [turned] at look ready
    cases answer with
    | false => exact .nothing look
    | true =>
      have left := look.left rfl
      obtain ⟨values, bitmap, valued, masked, atHand⟩ := ready.pending_eq_cons left
      simp only [advance, valued, masked, if_true]
      cases decoded : decodeRow values (.view after.types.length bitmap) after.types with
      | ok cells =>
        rw [List.append_nil]
        exact .row look left atHand decoded
      | error e => exact .damaged look left atHand decoded

theorem Takes.coherent {cursor : Cursor σ} {turn : Turn σ (Except Error (Option Row))}
    (effect : Takes cursor turn) (coherent : cursor.Coherent) : turn.cursor.Coherent := by
  cases effect with
  | nothing look => exact look.coherent coherent
  | row look left => exact (look.coherent coherent).stepped left
  | damaged look => exact (look.coherent coherent).spent

end Invariants
end SeriesClient.Paging.Cursor
