import SeriesClient.Proofs.Paging.Observed

/-! Results cut into pages. A cursor that has all of them before it keeps them in view: looking for
a row changes neither the rows still to come nor what will have been asked in the end. -/
namespace SeriesClient.Paging
open Export Wire
variable {σ κ : Type}

/-- Pages as a server cuts a result: all but the last hold rows and announce more. -/
inductive Cut : List Page → Prop
  | last {page : Page} (paired : page.values.length = page.bitmaps.length)
      (final : page.hasMore = false) : Cut [page]
  | more {page : Page} {pages : List Page} (paired : page.values.length = page.bitmaps.length)
      (filled : page.values ≠ []) (announced : page.hasMore = true) (rest : Cut pages) :
      Cut (page :: pages)

theorem Cut.zip_buffers {pages : List Page} (cut : Cut pages) :
    (pages.flatMap Page.values).zip (pages.flatMap Page.bitmaps) = pages.flatMap Page.rows := by
  induction cut with
  | last paired final => simp only [List.flatMap_singleton, Page.rows]
  | more paired filled announced rest ih =>
    rw [List.flatMap_cons, List.flatMap_cons, List.flatMap_cons, List.zip_append paired, ih]
    rfl

theorem Cut.paired_buffers {pages : List Page} (cut : Cut pages) :
    (pages.flatMap Page.values).length = (pages.flatMap Page.bitmaps).length := by
  induction cut with
  | last paired final => simpa only [List.flatMap_singleton] using paired
  | more paired filled announced rest ih =>
    rw [List.flatMap_cons, List.flatMap_cons, List.length_append, List.length_append, paired, ih]

variable [PageSource σ]

/-- The source answers its next requests with these pages. -/
def Serves (request : FetchRequest) : List Page → σ → Prop
  | [], _ => True
  | page :: pages, source =>
    ∃ after, PageSource.fetch request source = (.ok page, after) ∧ Serves request pages after

namespace Cursor

/-- Rows still to come, if the source has these pages left. -/
def remaining (cursor : Cursor (Observed σ)) (pages : List Page) : List (Bytes × Bytes) :=
  cursor.pending ++ pages.flatMap Page.rows

/-- What the record of the source will be when these pages are fetched as well. -/
def forecast (cursor : Cursor (Observed σ)) (pages : List Page) : List Exchange :=
  cursor.source.exchanges ++ pages.map fun page => .fetched cursor.request (.ok page)

/-- The cursor has these pages before it, or knows that there are none. -/
structure Faces (cursor : Cursor (Observed σ)) (pages : List Page) : Prop where
  coherent : cursor.Coherent
  served : Serves cursor.request pages cursor.source.source
  ending : cursor.availability = .exhausted ∧ pages = [] ∨
    cursor.availability ≠ .exhausted ∧ Cut pages

theorem Faces.exhausted {cursor : Cursor (Observed σ)} (faces : cursor.Faces []) :
    cursor.availability = .exhausted := by
  rcases faces.ending with ⟨last, -⟩ | ⟨-, cut⟩
  · exact last
  · cases cut

theorem asks_of_served {cursor : Cursor (Observed σ)} {page : Page} {pages : List Page}
    (served : Serves cursor.request (page :: pages) cursor.source.source) :
    ∃ source : Observed σ, cursor.asks = (.ok page, source) ∧
      Serves cursor.request pages source.source := by
  obtain ⟨after, brought, later⟩ := served
  refine ⟨⟨after, cursor.source.exchanges ++ [.fetched cursor.request (.ok page)]⟩, ?_, later⟩
  change Observed.fetch cursor.request cursor.source = _
  rw [Observed.fetch, brought]

/-- With pages left a fetch brings the first of them. -/
theorem Fetches.faces {cursor fetched : Cursor (Observed σ)} {notices : List Notice}
    {page : Page} {pages : List Page} (effect : Fetches cursor fetched notices)
    (empty : cursor.pending = []) (fresh : cursor.index = 0)
    (served : Serves cursor.request (page :: pages) cursor.source.source)
    (cut : Cut (page :: pages)) :
    fetched.Faces pages ∧ fetched.forecast pages = cursor.forecast (page :: pages) ∧
      fetched.remaining pages = cursor.remaining (page :: pages) ∧
      (fetched.values.isEmpty = true → pages = []) := by
  obtain ⟨after, asked, later⟩ := asks_of_served served
  have paired : page.values.length = page.bitmaps.length := by cases cut <;> assumption
  cases effect with
  | @accepted brought source answered pairs =>
    cases asked.symm.trans answered
    refine ⟨⟨⟨pairs, fresh ▸ Nat.zero_le _⟩, later, ?_⟩, ?_, ?_, ?_⟩
    · cases cut with
      | last paired final => exact .inl ⟨if_neg (by simp [final]), rfl⟩
      | more paired filled announced rest => exact .inr ⟨by simp [announced], rest⟩
    · rw [forecast, forecast, asked_exchange answered, List.append_assoc, List.map_cons]
      rfl
    · rw [remaining, remaining, empty, pending, fresh, List.flatMap_cons]
      rfl
    · intro none
      cases cut with
      | last paired final => rfl
      | more paired filled announced rest => exact absurd (List.isEmpty_iff.mp none) filled
  | rejected answered unpaired reason =>
    cases asked.symm.trans answered
    exact absurd paired unpaired
  | failed answered => cases asked.symm.trans answered

theorem Looks.faces {cursor : Cursor (Observed σ)} {turn : Turn (Observed σ) Bool}
    {pages : List Page} (effect : Looks cursor turn) (faces : cursor.Faces pages) :
    ∃ pages', turn.cursor.Faces pages' ∧ turn.cursor.forecast pages' = cursor.forecast pages ∧
      turn.cursor.remaining pages' = cursor.remaining pages ∧
      (turn.answer = false → pages' = []) := by
  cases effect with
  | buffered left =>
    refine ⟨pages, faces, rfl, rfl, ?_⟩
    intro found
    cases found
  | ended used last =>
    rcases faces.ending with ⟨-, rfl⟩ | ⟨more, -⟩
    · refine ⟨[], ⟨cleared_coherent cursor, trivial, .inl ⟨last, rfl⟩⟩, rfl, ?_, fun _ => rfl⟩
      rw [remaining, remaining, pending_of_used used, pending_cleared]
    · exact absurd last more
  | @asked fetched notices used more fetching =>
    rcases faces.ending with ⟨last, -⟩ | ⟨-, cut⟩
    · exact absurd last more
    · cases pages with
      | nil => cases cut
      | cons page pages =>
        obtain ⟨facing, record, rows, empty⟩ :=
          fetching.faces (pending_cleared cursor) rfl faces.served cut
        refine ⟨pages, facing, record, ?_, ?_⟩
        · rw [rows, remaining, remaining, pending_of_used used, pending_cleared]
        · intro none
          exact empty ((Bool.not_eq_false' _).mp none)

end Cursor
end SeriesClient.Paging
