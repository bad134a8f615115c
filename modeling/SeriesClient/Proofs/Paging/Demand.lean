import SeriesClient.Proofs.Paging.Outlook
import SeriesClient.Proofs.Paging.Tabular

/-! When a cursor asks its source for a page. It asks if a row is wanted, none is at hand and there
may be more, once, and for its own result; looking ahead costs nothing that taking would not. -/
namespace SeriesClient
open Export Relation

/-- Options as a caller can come by them. -/
inductive FetchOptions.Configured : FetchOptions → Prop
  | default : Configured {}
  | withFetchSize {options sized : FetchOptions} (size : Int32) (configured : Configured options)
      (accepted : options.withFetchSize size = .ok sized) : Configured sized

theorem FetchOptions.Configured.pos {options : FetchOptions} (configured : options.Configured) :
    0 < options.fetchSize := by
  cases configured with
  | default => decide
  | @withFetchSize options _ size configured accepted =>
    rw [FetchOptions.withFetchSize] at accepted
    split at accepted
    · cases accepted
    · next positive =>
      cases accepted
      exact Int32.not_le.mp positive

namespace Paging
variable {σ κ : Type}

/-- The exchange is a fetch by this request, or releases the result that the request is for. -/
def Exchange.Concerns (request : FetchRequest) : Exchange → Prop
  | fetched asked _ => asked = request
  | closed queryId _ => queryId = request.queryId

namespace Cursor

/-- The page at hand is the latest of `pages`, unless it was given away. -/
def HoldsLast (cursor : Cursor σ) (pages : List Page) : Prop :=
  cursor.values = [] ∧ cursor.bitmaps = [] ∨
    ∃ page, pages.getLast? = some page ∧
      cursor.values = page.values ∧ cursor.bitmaps = page.bitmaps

theorem source_advance (cursor : Cursor σ) : cursor.advance.cursor.source = cursor.source := by
  rw [advance]
  split
  · split <;> rfl
  · rfl

theorem Coherent.advance_ne_none {cursor : Cursor σ} (coherent : cursor.Coherent)
    (left : cursor.index < cursor.values.length) : cursor.advance.answer ≠ .ok none := by
  obtain ⟨values, bitmap, valued, masked, -⟩ := coherent.pending_eq_cons left
  simp only [advance, valued, masked]
  cases Wire.decodeRow values (.view cursor.types.length bitmap) cursor.types <;> simp

variable [PageSource σ]

theorem hasNext_of_left {cursor : Cursor σ} (left : cursor.index < cursor.values.length) :
    cursor.hasNext = ⟨true, cursor, []⟩ :=
  if_pos left

/-- The cursor after some looks for a row. -/
def looked (cursor : Cursor σ) : (looks : Nat) → Cursor σ
  | 0 => cursor
  | looks + 1 => cursor.hasNext.cursor.looked looks

theorem looked_of_left {cursor : Cursor σ} (left : cursor.index < cursor.values.length)
    (looks : Nat) : cursor.looked looks = cursor := by
  induction looks with
  | zero => rfl
  | succ looks ih => rw [looked, hasNext_of_left left, ih]

/-- With a row at hand no look is needed to take it, and taking it asks for nothing. -/
theorem tryNext_of_left {cursor : Cursor σ} (left : cursor.index < cursor.values.length) :
    cursor.tryNext = cursor.advance := by
  rw [tryNext, hasNext_of_left left]
  rfl

/-- A look that finds a row reports nothing. -/
theorem Looks.quiet {cursor : Cursor σ} {turn : Turn σ Bool} (effect : Looks cursor turn)
    (found : turn.answer = true) : turn.notices = [] := by
  cases effect with
  | buffered left => rfl
  | ended used last => rfl
  | asked used more fetching =>
    cases fetching with
    | accepted => rfl
    | rejected => cases found
    | failed => cases found

/-- Taking a row that a look has found is taking it at once. -/
theorem tryNext_of_found {cursor : Cursor σ} (found : cursor.hasNext.answer = true) :
    cursor.tryNext = cursor.hasNext.cursor.advance := by
  have quiet := (hasNext_effect cursor).quiet found
  rw [tryNext]
  simp only [found, quiet, if_true, List.nil_append]

/-- Looks for a row that is there, one and `looks` more: each finds it and changes nothing, and the
row is then taken as it would have been without them. -/
structure LooksFree (cursor : Cursor σ) (looks : Nat) : Prop where
  found : (cursor.looked (looks + 1)).hasNext = ⟨true, cursor.looked (looks + 1), []⟩
  source : (cursor.looked (looks + 1)).tryNext.cursor.source = cursor.hasNext.cursor.source
  answer : (cursor.looked (looks + 1)).tryNext.answer = cursor.tryNext.answer
  after : (cursor.looked (looks + 1)).tryNext.cursor = cursor.tryNext.cursor
  row : (cursor.looked (looks + 1)).tryNext.answer ≠ .ok none

theorem Coherent.looksFree {cursor : Cursor σ} (coherent : cursor.Coherent)
    (found : cursor.hasNext.answer = true) (looks : Nat) : cursor.LooksFree looks := by
  have look := hasNext_effect cursor
  have left := look.left found
  have same : cursor.looked (looks + 1) = cursor.hasNext.cursor := looked_of_left left looks
  have taken := tryNext_of_found found
  refine ⟨?_, ?_, ?_, ?_, ?_⟩
  · rw [same, hasNext_of_left left]
  · rw [same, tryNext_of_left left, source_advance]
  · rw [same, tryNext_of_left left, taken]
  · rw [same, tryNext_of_left left, taken]
  · rw [same, tryNext_of_left left]
    exact (look.coherent coherent).advance_ne_none left

theorem Looks.request {cursor : Cursor σ} {turn : Turn σ Bool} (effect : Looks cursor turn) :
    turn.cursor.request = cursor.request := by
  cases effect with
  | buffered left => rfl
  | ended used last => rfl
  | asked used more fetching => cases fetching <;> rfl

theorem Takes.request {cursor : Cursor σ} {turn : Turn σ (Except Error (Option Row))}
    (effect : Takes cursor turn) : turn.cursor.request = cursor.request := by
  cases effect with
  | nothing look => exact look.request
  | row look => exact look.request
  | damaged look => exact look.request

/-- Draining is taking rows, some number of times. -/
theorem Drains.after [RowSink κ] {cursor : Cursor σ} {sink : κ} {drained : Drained σ κ}
    (drains : cursor.Drains sink drained) : ∃ calls, drained.cursor = cursor.after calls := by
  induction drains with
  | failed turned => exact ⟨1, congrArg Turn.cursor turned.symm⟩
  | finished turned => exact ⟨1, congrArg Turn.cursor turned.symm⟩
  | refused turned written => exact ⟨1, congrArg Turn.cursor turned.symm⟩
  | wrote turned written others ih =>
    obtain ⟨calls, same⟩ := ih
    refine ⟨calls + 1, ?_⟩
    rw [Cursor.after, turned]
    exact same

theorem drainInto_after [RowSink κ] {cursor : Cursor σ} {sink : κ} {fuel : Nat}
    {drained : Drained σ κ} (ended : cursor.drainInto sink fuel = some drained) :
    ∃ calls, drained.cursor = cursor.after calls := by
  rw [drainInto] at ended
  split at ended
  · cases ended
    exact ⟨0, rfl⟩
  · exact (drainRows_effect ended).after

section Record
variable {cursor fetched : Cursor (Observed σ)} {notices : List Notice}

/-- The exchange that wanting a row leads to: a fetch if the page at hand is used up and there may
be another one, else none. -/
def demand (cursor : Cursor (Observed σ)) : List Exchange :=
  if cursor.values.length ≤ cursor.index ∧ cursor.availability ≠ .exhausted then
    [.fetched cursor.request cursor.asks.1]
  else []

theorem Fetches.exchanges (effect : Fetches cursor fetched notices) :
    fetched.source.exchanges =
      cursor.source.exchanges ++ [.fetched cursor.request cursor.asks.1] := by
  cases effect with
  | accepted answered => exact answered ▸ asked_exchange answered
  | rejected answered => exact answered ▸ asked_exchange answered
  | failed answered => exact answered ▸ asked_exchange answered

theorem Looks.exchanges {turn : Turn (Observed σ) Bool} (effect : Looks cursor turn) :
    turn.cursor.source.exchanges = cursor.source.exchanges ++ cursor.demand := by
  cases effect with
  | buffered left =>
    rw [demand, if_neg fun wants => Nat.not_le_of_lt left wants.1, List.append_nil]
  | ended used last =>
    rw [demand, if_neg fun wants => wants.2 last, List.append_nil]
    rfl
  | asked used more fetching =>
    rw [demand, if_pos ⟨used, more⟩]
    exact fetching.exchanges

theorem Takes.exchanges {turn : Turn (Observed σ) (Except Error (Option Row))}
    (effect : Takes cursor turn) :
    turn.cursor.source.exchanges = cursor.source.exchanges ++ cursor.demand := by
  cases effect with
  | nothing look => exact look.exchanges
  | row look => exact look.exchanges
  | damaged look => exact look.exchanges

/-- What each call asks of the source: nothing but what wanting one row leads to, and for a drain
what wanting one row after the other does. A release touches the source alone. -/
structure AsksOnDemand (cursor : Cursor (Observed σ)) : Prop where
  hasNext : cursor.hasNext.cursor.source.exchanges = cursor.source.exchanges ++ cursor.demand
  tryNext : cursor.tryNext.cursor.source.exchanges = cursor.source.exchanges ++ cursor.demand
  next : cursor.next.cursor.source.exchanges = cursor.source.exchanges ++ cursor.demand
  drainInto : ∀ {κ : Type} [RowSink κ] (sink : κ) (fuel : Nat) (drained : Drained (Observed σ) κ),
    cursor.drainInto sink fuel = some drained → ∃ calls, drained.cursor = cursor.after calls
  takeLastError : cursor.takeLastError.2.source = cursor.source
  close : ∃ source : Observed σ, cursor.close.2 = { cursor with source } ∧
    source.exchanges = cursor.source.exchanges ++ [.closed cursor.queryId cursor.close.1]

theorem Coherent.asksOnDemand (coherent : cursor.Coherent) : cursor.AsksOnDemand := by
  have look := hasNext_effect cursor
  have take := tryNext_effect coherent
  exact ⟨look.exchanges, take.exchanges, take.exchanges, fun _ _ _ => drainInto_after, rfl,
    _, rfl, rfl⟩

theorem Looks.holdsLast {turn : Turn (Observed σ) Bool} {first : Page}
    (effect : Looks cursor turn) (holds : cursor.HoldsLast (first :: cursor.source.pages)) :
    turn.cursor.HoldsLast (first :: turn.cursor.source.pages) := by
  cases effect with
  | buffered left => exact holds
  | ended used last => exact .inl ⟨rfl, rfl⟩
  | asked used more fetching =>
    cases fetching with
    | @accepted page source answered paired =>
      have pages : source.pages = cursor.source.pages ++ [page] := by
        simp [Observed.pages, asked_exchange answered, Exchange.page?, paired, cleared]
      refine .inr ⟨page, ?_, rfl, rfl⟩
      rw [pages, ← List.cons_append, List.getLast?_concat]
    | rejected => exact .inl ⟨rfl, rfl⟩
    | failed => exact .inl ⟨rfl, rfl⟩

theorem Takes.holdsLast {turn : Turn (Observed σ) (Except Error (Option Row))} {first : Page}
    (effect : Takes cursor turn) (holds : cursor.HoldsLast (first :: cursor.source.pages)) :
    turn.cursor.HoldsLast (first :: turn.cursor.source.pages) := by
  cases effect with
  | nothing look => exact look.holdsLast holds
  | row look => exact look.holdsLast holds
  | damaged look => exact look.holdsLast holds

/-- Wanting a row leads to no exchange but for the result of the cursor. -/
theorem concerns_demand {after : List Exchange}
    (before : ∀ exchange ∈ cursor.source.exchanges, exchange.Concerns cursor.request)
    (record : after = cursor.source.exchanges ++ cursor.demand) :
    ∀ exchange ∈ after, exchange.Concerns cursor.request := by
  intro exchange found
  rcases List.mem_append.mp (record ▸ found) with earlier | now
  · exact before exchange earlier
  · rw [demand] at now
    split at now
    · cases List.mem_singleton.mp now
      rfl
    · cases now

end Record
end Cursor

namespace Session
variable [PageSource σ]

/-- The cursor stays with its result and its options, and with one page at a time. -/
structure Stays (request : FetchRequest) (first : Page) (session : Session σ) : Prop where
  asking : session.cursor.request = request
  concerns : ∀ exchange ∈ session.cursor.source.exchanges, exchange.Concerns request
  holds : session.cursor.HoldsLast (first :: session.cursor.source.pages)

theorem Stays.move {request : FetchRequest} {first : Page} {session after : Session σ}
    (stays : Stays request first session) (move : Move session after) :
    Stays request first after := by
  obtain ⟨rfl, concerns, holds⟩ := stays
  cases move with
  | look effect =>
    exact ⟨effect.request, Cursor.concerns_demand concerns effect.exchanges,
      effect.holdsLast holds⟩
  | take effect =>
    exact ⟨effect.request, Cursor.concerns_demand concerns effect.exchanges,
      effect.holdsLast holds⟩
  | forget => exact ⟨rfl, concerns, holds⟩
  | close =>
    refine ⟨rfl, ?_, ?_⟩
    · intro exchange found
      rcases List.mem_append.mp found with before | now
      · exact concerns exchange before
      · exact List.mem_singleton.mp now ▸ rfl
    · have pages := Observed.pages_close session.cursor.queryId session.cursor.source
      exact (congrArg (fun pages => session.cursor.HoldsLast (first :: pages)) pages).mpr holds

/-- In every state that calls can lead to, a page is asked for only if a row is wanted, none is at
hand and there may be more, once, and by the request of this result; a look that found a row costs
nothing and changes nothing; and the cursor holds one page at most. -/
theorem asks_on_demand {source : σ} {queryId : Int64} {paths : List String}
    {types : List DataType} {options : FetchOptions} {values bitmaps : List Bytes}
    {start : Cursor (Observed σ)} {session : Session σ}
    (opened : Cursor.withPage ⟨source, []⟩ queryId paths types options values bitmaps = .ok start)
    (run : Reaches ⟨start, [], []⟩ session) :
    session.cursor.AsksOnDemand ∧
    (session.cursor.hasNext.answer = true → ∀ looks, session.cursor.LooksFree looks) ∧
    session.cursor.HoldsLast ({ values, bitmaps } :: session.cursor.source.pages) ∧
    session.cursor.request = ⟨queryId, options.fetchSize⟩ ∧
    (∀ exchange ∈ session.cursor.source.exchanges,
      exchange.Concerns ⟨queryId, options.fetchSize⟩) ∧
    (options.Configured → 0 < options.fetchSize) := by
  have coherent := run.coherent (Cursor.withPage_coherent opened)
  have begun : Stays ⟨queryId, options.fetchSize⟩ { values, bitmaps } ⟨start, [], []⟩ := by
    obtain ⟨-, -, rfl⟩ := Cursor.withPage_eq_ok.mp opened
    exact ⟨rfl, fun _ found => absurd found List.not_mem_nil, .inr ⟨_, rfl, rfl, rfl⟩⟩
  have stays := run.keeps (fun move stays => stays.move move) (Cursor.withPage_coherent opened)
    begun
  exact ⟨coherent.asksOnDemand, coherent.looksFree, stays.holds, stays.asking, stays.concerns,
    FetchOptions.Configured.pos⟩

/-- A source with one page. -/
def supplying : Script where
  pages := [.ok ⟨[[0], [1]], [[1], [1]], true⟩]
  closings := []

/-- Two rows a page, and one that came along: it is taken, and a look brings the page. -/
def supplied : Session Script :=
  let opened : Session Script :=
    { cursor :=
        { source := ⟨supplying, []⟩, queryId := 7, options := ⟨2⟩, paths := ["pump"],
          types := [.boolean], values := [[1]], bitmaps := [[1]] } }
  opened.tryNext.hasNext

theorem supplied_on_demand :
    supplied.cursor.source.requests = [⟨7, 2⟩] ∧ supplied.cursor.bufferedRows = 2 ∧
    supplied.cursor.hasNext.answer = true ∧ supplied.cursor.LooksFree 4 ∧
    supplied.cursor.tryNext.cursor.source.exchanges = supplied.cursor.source.exchanges ∧
    0 < supplied.cursor.request.fetchSize := by
  have run : Reaches _ supplied := .tail (.single (.tryNext _)) (.hasNext _)
  have found : supplied.cursor.hasNext.answer = true := by rfl
  have configured : FetchOptions.Configured ⟨2⟩ := .withFetchSize 2 .default rfl
  obtain ⟨asks, free, -, request, -, positive⟩ := @asks_on_demand Script _ supplying 7 ["pump"]
    [.boolean] ⟨2⟩ [[1]] [[1]] _ supplied rfl run
  refine ⟨by rfl, by rfl, found, free found 4, asks.tryNext.trans (List.append_nil _), ?_⟩
  rw [request]
  exact positive configured

end Session
end Paging
end SeriesClient
