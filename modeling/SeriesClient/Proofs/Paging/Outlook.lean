import SeriesClient.Proofs.Paging.Delivery

/-! What a cursor knows of pages beyond the one at hand: what the latest fetch told, until the last
page is there or a row is damaged. From then on nothing is asked for, whatever is called. -/
namespace SeriesClient.Paging
open Relation
variable {σ : Type}

/-- The page that a cursor takes from an exchange: one that pairs up. -/
def Exchange.page? : Exchange → Option Page
  | fetched _ (.ok page) => if page.values.length = page.bitmaps.length then some page else none
  | fetched _ (.error _) => none
  | closed .. => none

/-- What a fetch tells of further pages: nothing if no page was taken from it. -/
def Exchange.outlook? : Exchange → Option Availability
  | fetched request answer => some <| match (fetched request answer).page? with
    | some page => if page.hasMore then .more else .exhausted
    | none => .unknown
  | closed .. => none

namespace Observed

/-- Pages taken, in the order in which they were fetched. -/
def pages (observed : Observed σ) : List Page := observed.exchanges.filterMap Exchange.page?

/-- What the latest fetch told; before the first one nothing is known. -/
def outlook (observed : Observed σ) : Availability :=
  (observed.exchanges.filterMap Exchange.outlook?).getLast?.getD .unknown

/-- A page was taken that its source called the last. -/
def Finished (observed : Observed σ) : Prop := ∃ page ∈ observed.pages, page.hasMore = false

section Closing
variable [PageSource σ] (queryId : Int64) (observed : Observed σ)

theorem pages_close : (PageSource.close queryId observed).2.pages = observed.pages := by
  simp [PageSource.close, close, pages, Exchange.page?]

theorem outlook_close : (PageSource.close queryId observed).2.outlook = observed.outlook := by
  simp [PageSource.close, close, outlook, Exchange.outlook?]

theorem requests_close : (PageSource.close queryId observed).2.requests = observed.requests := by
  simp [PageSource.close, close, requests, Exchange.request?]

end Closing
end Observed

namespace Cursor

/-- Nothing is at hand, and nothing will be asked for. -/
structure Silent (cursor : Cursor σ) : Prop where
  exhausted : cursor.availability = .exhausted
  used : cursor.values.length ≤ cursor.index

theorem Silent.cleared {cursor : Cursor σ} (silent : cursor.Silent) : cursor.cleared.Silent :=
  ⟨silent.exhausted, Nat.le_refl 0⟩

variable [PageSource σ]

theorem Silent.look {cursor : Cursor σ} {turn : Turn σ Bool} (silent : cursor.Silent)
    (effect : Looks cursor turn) : turn = ⟨false, cursor.cleared, []⟩ := by
  cases effect with
  | buffered left => exact absurd silent.used (Nat.not_le_of_lt left)
  | ended used last => rfl
  | asked used more fetching => exact absurd silent.exhausted more

theorem Silent.take {cursor : Cursor σ} {turn : Turn σ (Except Error (Option Row))}
    (silent : cursor.Silent) (effect : Takes cursor turn) :
    turn = ⟨.ok none, cursor.cleared, []⟩ := by
  cases effect with
  | nothing look =>
    cases silent.look look
    rfl
  | row look => cases silent.look look
  | damaged look => cases silent.look look

theorem Looks.exhausted {cursor : Cursor σ} {turn : Turn σ Bool} (effect : Looks cursor turn)
    (last : cursor.availability = .exhausted) :
    turn.cursor.availability = .exhausted ∧ turn.cursor.source = cursor.source := by
  cases effect with
  | buffered left => exact ⟨last, rfl⟩
  | ended used _ => exact ⟨last, rfl⟩
  | asked used more fetching => exact absurd last more

theorem Takes.exhausted {cursor : Cursor σ} {turn : Turn σ (Except Error (Option Row))}
    (effect : Takes cursor turn) (last : cursor.availability = .exhausted) :
    turn.cursor.availability = .exhausted ∧ turn.cursor.source = cursor.source := by
  cases effect with
  | nothing look => exact look.exhausted last
  | row look => exact look.exhausted last
  | damaged look => exact ⟨rfl, (look.exhausted last).2⟩

section Notices

theorem Fetches.undamaged {cursor fetched : Cursor σ} {notices : List Notice}
    (effect : Fetches cursor fetched notices) : Undamaged notices := by
  intro row e found
  cases effect with
  | accepted => cases found
  | rejected => cases List.mem_singleton.mp found
  | failed => cases List.mem_singleton.mp found

theorem Looks.undamaged {cursor : Cursor σ} {turn : Turn σ Bool} (effect : Looks cursor turn) :
    Undamaged turn.notices := by
  cases effect with
  | buffered left => exact fun _ _ => List.not_mem_nil
  | ended used last => exact fun _ _ => List.not_mem_nil
  | asked used more fetching => exact fetching.undamaged

/-- A damaged row is reported by the call that fails on it, and by no other. -/
theorem Takes.undamaged_iff {cursor : Cursor σ} {turn : Turn σ (Except Error (Option Row))}
    (effect : Takes cursor turn) : Undamaged turn.notices ↔ ∃ found, turn.answer = .ok found := by
  cases effect with
  | nothing look => exact iff_of_true look.undamaged ⟨none, rfl⟩
  | @row ready notices row cells look => exact iff_of_true look.undamaged ⟨some cells, rfl⟩
  | damaged look =>
    refine iff_of_false ?_ ?_
    · intro sound
      exact sound _ _ (List.mem_append_right _ List.mem_cons_self)
    · rintro ⟨found, answered⟩
      cases answered

end Notices

section Record
variable {cursor fetched : Cursor (Observed σ)} {notices : List Notice}

/-- After a fetch the cursor knows what the fetch told. -/
theorem Fetches.outlook (effect : Fetches cursor fetched notices) :
    fetched.availability = fetched.source.outlook := by
  cases effect with
  | accepted answered paired =>
    simp [Observed.outlook, asked_exchange answered, Exchange.outlook?, Exchange.page?, paired]
  | rejected answered unpaired =>
    simp [Observed.outlook, asked_exchange answered, Exchange.outlook?, Exchange.page?, unpaired]
  | failed answered =>
    simp [Observed.outlook, asked_exchange answered, Exchange.outlook?, Exchange.page?]

theorem Fetches.finished_iff (effect : Fetches cursor fetched notices) :
    fetched.source.Finished ↔ cursor.source.Finished ∨ fetched.availability = .exhausted := by
  cases effect with
  | @accepted page source answered paired =>
    cases more : page.hasMore <;>
      simp [Observed.Finished, Observed.pages, asked_exchange answered, Exchange.page?, paired,
        more, or_and_right, exists_or]
  | rejected answered unpaired =>
    simp [Observed.Finished, Observed.pages, asked_exchange answered, Exchange.page?, unpaired]
  | failed answered =>
    simp [Observed.Finished, Observed.pages, asked_exchange answered, Exchange.page?]

end Record
end Cursor

namespace Session

/-- The source has given its last page, or a row was damaged. -/
def Ended (session : Session σ) : Prop :=
  session.cursor.source.Finished ∨ ¬ Undamaged session.notices

/-- The cursor knows what there is to know, and a damaged row was its last. -/
structure Foreseen (session : Session σ) : Prop where
  exhausted_iff : session.cursor.availability = .exhausted ↔ session.Ended
  outlook : ¬ session.Ended → session.cursor.availability = session.cursor.source.outlook
  silent : ¬ Undamaged session.notices → session.cursor.Silent

/-- A move that fetches nothing and meets no damage. -/
theorem Foreseen.on {session : Session σ} (foreseen : Foreseen session)
    (cursor : Cursor (Observed σ)) (rows : List Row)
    (availability : cursor.availability = session.cursor.availability)
    (finished : cursor.source.Finished ↔ session.cursor.source.Finished)
    (outlook : cursor.source.outlook = session.cursor.source.outlook)
    (silent : session.cursor.Silent → cursor.Silent) : Foreseen (session.on cursor rows []) := by
  have notices : (session.on cursor rows []).notices = session.notices := List.append_nil _
  have ended : (session.on cursor rows []).Ended ↔ session.Ended := by
    rw [Ended, Ended, notices]
    exact or_congr_left finished
  refine ⟨?_, ?_, ?_⟩
  · rw [ended, ← foreseen.exhausted_iff, ← availability]
    rfl
  · intro going
    exact availability.trans ((foreseen.outlook (mt ended.mpr going)).trans outlook.symm)
  · intro damaged
    exact silent (foreseen.silent (notices ▸ damaged))

theorem withPage_foreseen {source : σ} {queryId : Int64} {paths : List String}
    {types : List DataType} {options : FetchOptions} {values bitmaps : List Bytes}
    {start : Cursor (Observed σ)}
    (opened : Cursor.withPage ⟨source, []⟩ queryId paths types options values bitmaps = .ok start) :
    Foreseen ⟨start, [], []⟩ := by
  obtain ⟨-, -, rfl⟩ := Cursor.withPage_eq_ok.mp opened
  have sound : Undamaged [] := fun _ _ => List.not_mem_nil
  refine ⟨iff_of_false Availability.noConfusion ?_, fun _ => rfl, ?_⟩
  · rintro (⟨page, found, -⟩ | damaged)
    · cases found
    · exact damaged sound
  · exact fun damaged => absurd sound damaged

variable [PageSource σ]

theorem Foreseen.look {session : Session σ} {turn : Turn (Observed σ) Bool}
    (foreseen : Foreseen session) (effect : session.cursor.Looks turn) :
    Foreseen (session.on turn.cursor [] turn.notices) := by
  cases effect with
  | buffered left => exact foreseen.on _ [] rfl .rfl rfl id
  | ended used last => exact foreseen.on _ [] rfl .rfl rfl Cursor.Silent.cleared
  | @asked fetched notices used more fetching =>
    -- The cursor asks only if nothing has ended yet, so the end can only come with this page.
    obtain ⟨unfinished, sound⟩ := not_or.mp (mt foreseen.exhausted_iff.mpr more)
    have reported : Undamaged (session.on fetched [] notices).notices :=
      undamaged_append.mpr ⟨Classical.not_not.mp sound, fetching.undamaged⟩
    have ended : (session.on fetched [] notices).Ended ↔ fetched.availability = .exhausted := by
      rw [Ended, or_iff_left (Classical.not_not.mpr reported)]
      exact fetching.finished_iff.trans (or_iff_right unfinished)
    exact ⟨ended.symm, fun _ => fetching.outlook, fun damaged => absurd reported damaged⟩

theorem Foreseen.take {session : Session σ}
    {turn : Turn (Observed σ) (Except Error (Option Row))} (foreseen : Foreseen session)
    (effect : session.cursor.Takes turn) :
    Foreseen (session.on turn.cursor (given turn.answer) turn.notices) := by
  cases effect with
  | nothing look => exact foreseen.look look
  | @row ready notices row cells look left atHand decoded =>
    have looked := (foreseen.look look).on ready.stepped [cells] rfl .rfl rfl
      fun silent => ⟨silent.exhausted, Nat.le_succ_of_le silent.used⟩
    rwa [on_on, List.append_nil] at looked
  | @damaged ready notices row e look =>
    have damaged : ¬ Undamaged (session.notices ++ (notices ++ [.rowDamaged ready.index e])) :=
      fun sound => sound ready.index e (by simp)
    exact ⟨iff_of_true rfl (.inr damaged), fun going => absurd (.inr damaged) going,
      fun _ => ⟨rfl, Nat.le_refl _⟩⟩

theorem Foreseen.move {session after : Session σ} (foreseen : Foreseen session)
    (move : Move session after) : Foreseen after := by
  cases move with
  | look effect => exact foreseen.look effect
  | take effect => exact foreseen.take effect
  | forget => exact foreseen.on _ [] rfl .rfl rfl fun silent => ⟨silent.exhausted, silent.used⟩
  | close =>
    refine foreseen.on _ [] rfl ?_ ?_ fun silent => ⟨silent.exhausted, silent.used⟩
    · rw [Observed.Finished, Observed.Finished, Cursor.close, Observed.pages_close]
    · exact Observed.outlook_close session.cursor.queryId session.cursor.source

/-- Once exhausted, a cursor stays so and leaves the source alone. -/
theorem Move.exhausted {session after : Session σ} (move : Move session after)
    (last : session.cursor.availability = .exhausted) :
    after.cursor.availability = .exhausted ∧
      after.cursor.source.requests = session.cursor.source.requests := by
  cases move with
  | look effect =>
    obtain ⟨still, source⟩ := effect.exhausted last
    exact ⟨still, congrArg Observed.requests source⟩
  | take effect =>
    obtain ⟨still, source⟩ := effect.exhausted last
    exact ⟨still, congrArg Observed.requests source⟩
  | forget => exact ⟨last, rfl⟩
  | close => exact ⟨last, Observed.requests_close session.cursor.queryId session.cursor.source⟩

theorem Move.silent {session after : Session σ} (move : Move session after)
    (silent : session.cursor.Silent) : after.cursor.Silent := by
  cases move with
  | look effect =>
    rw [silent.look effect]
    exact silent.cleared
  | take effect =>
    rw [silent.take effect]
    exact silent.cleared
  | forget => exact ⟨silent.exhausted, silent.used⟩
  | close => exact ⟨silent.exhausted, silent.used⟩

theorem Reaches.exhausted {session later : Session σ} (run : Reaches session later)
    (coherent : session.cursor.Coherent) (last : session.cursor.availability = .exhausted) :
    later.cursor.availability = .exhausted ∧
      later.cursor.source.requests = session.cursor.source.requests := by
  refine run.keeps (P := fun later => later.cursor.availability = .exhausted ∧
    later.cursor.source.requests = session.cursor.source.requests) ?_ coherent ⟨last, rfl⟩
  rintro before after move ⟨last, requests⟩
  obtain ⟨still, same⟩ := move.exhausted last
  exact ⟨still, same.trans requests⟩

/-- What the cursor says of further pages follows from the exchanges and the damage so far, in every
state that calls can lead to. Where it says that there are none, it says so for good and asks no
more; after a damaged row there is never another one, whatever was left. -/
theorem availability_accounted {source : σ} {queryId : Int64} {paths : List String}
    {types : List DataType} {options : FetchOptions} {values bitmaps : List Bytes}
    {start : Cursor (Observed σ)} {session : Session σ}
    (opened : Cursor.withPage ⟨source, []⟩ queryId paths types options values bitmaps = .ok start)
    (run : Reaches ⟨start, [], []⟩ session) :
    (session.cursor.availability = .exhausted ↔ session.Ended) ∧
    (¬ session.Ended → session.cursor.availability = session.cursor.source.outlook) ∧
    (session.Ended → ∀ later, Reaches session later → later.cursor.availability = .exhausted ∧
      later.cursor.source.requests = session.cursor.source.requests) ∧
    ((∃ e, session.cursor.tryNext.answer = .error e) ↔
      ¬ Undamaged session.cursor.tryNext.notices) ∧
    (¬ Undamaged session.notices → ∀ later, Reaches session later →
      later.cursor.hasNext.answer = false ∧ later.cursor.tryNext.answer = .ok none) := by
  have coherent := run.coherent (Cursor.withPage_coherent opened)
  have foreseen := run.keeps (fun move foreseen => foreseen.move move)
    (Cursor.withPage_coherent opened) (withPage_foreseen opened)
  refine ⟨foreseen.exhausted_iff, foreseen.outlook, ?_, ?_, ?_⟩
  · intro ended later onward
    exact onward.exhausted coherent (foreseen.exhausted_iff.mpr ended)
  · rw [(Cursor.tryNext_effect coherent).undamaged_iff]
    cases session.cursor.tryNext.answer <;> simp
  · intro damaged later onward
    have silent := onward.keeps (fun move silent => move.silent silent) coherent
      (foreseen.silent damaged)
    have look := silent.look (Cursor.hasNext_effect later.cursor)
    have take := silent.take (Cursor.tryNext_effect (onward.coherent coherent))
    exact ⟨congrArg Turn.answer look, congrArg Turn.answer take⟩

/-- A cursor as it is opened on a scripted source, without a page. -/
def scripted (source : Script) : Session Script where
  cursor :=
    { source := ⟨source, []⟩, queryId := 7, options := {}, paths := ["pump"], types := [.boolean],
      values := [], bitmaps := [] }

/-- A source that fails, then gives a page whose first row is cut short, and has another page. -/
def stumbling : Script where
  pages := [.error (.transport "down"), .ok ⟨[[], [1]], [[1], [1]], true⟩,
    .ok ⟨[[0]], [[1]], false⟩]
  closings := []

/-- A look that fails, and a take that meets the damaged row. -/
def stumbled : Session Script := (scripted stumbling).hasNext.tryNext

theorem stumbled_accounted :
    stumbled.notices = [.fetchFailed (.transport "down"),
      .rowDamaged 0 (.corrupted (.cell 0 0) (.shortRead 1 0 0))] ∧
    stumbled.cursor.source.outlook = .more ∧ stumbled.cursor.availability = .exhausted ∧
    stumbled.close.next.cursor.source.requests = [⟨7, 1000⟩, ⟨7, 1000⟩] ∧
    stumbled.close.next.cursor.tryNext.answer = .ok none := by
  have notices : stumbled.notices = [.fetchFailed (.transport "down"),
      .rowDamaged 0 (.corrupted (.cell 0 0) (.shortRead 1 0 0))] := by rfl
  have damaged : ¬ Undamaged stumbled.notices := by
    intro sound
    exact sound 0 (.corrupted (.cell 0 0) (.shortRead 1 0 0)) (by simp [notices])
  have run : Reaches (scripted stumbling) stumbled := .tail (.single (.hasNext _)) (.tryNext _)
  have onward : Reaches stumbled stumbled.close.next := .tail (.single (.close _)) (.next _)
  obtain ⟨exhausted, -, quiet, -, silent⟩ := @availability_accounted Script _ stumbling 7 ["pump"]
    [.boolean] {} [] [] _ stumbled rfl run
  exact ⟨notices, by rfl, exhausted.mpr (.inr damaged),
    (quiet (.inr damaged) _ onward).2.trans (by rfl), (silent damaged _ onward).2⟩

end Session
end SeriesClient.Paging
