import SeriesClient.Proofs.Paging.Drained

/-! The last error of a cursor is the latest refusal by its source since the error was last taken.
No other failure counts: no row that is damaged, no sink and no release that fails. -/
namespace SeriesClient.Paging
open Export Relation
variable {σ : Type}

/-- The latest of the refusals among these exchanges. -/
def latestRefusal? (made : List Exchange) : Option Error :=
  made.reverse.findSome? Exchange.refusal?

theorem latestRefusal?_append (earlier later : List Exchange) :
    latestRefusal? (earlier ++ later) = (latestRefusal? later).or (latestRefusal? earlier) := by
  rw [latestRefusal?, List.reverse_append, List.findSome?_append]
  rfl

theorem latestRefusal?_eq_none {made : List Exchange}
    (accepted : ∀ exchange ∈ made, exchange.refusal? = none) : latestRefusal? made = none := by
  refine List.findSome?_eq_none_iff.mpr fun exchange found => ?_
  exact accepted exchange (List.mem_reverse.mp found)

theorem latestRefusal?_eq_some_iff {made : List Exchange} {e : Error} :
    latestRefusal? made = some e ↔ ∃ before exchange behind,
      made = before ++ exchange :: behind ∧ exchange.refusal? = some e ∧
        ∀ later ∈ behind, later.refusal? = none := by
  constructor
  · intro found
    obtain ⟨behind, exchange, before, backwards, refused, accepted⟩ :=
      List.findSome?_eq_some_iff.mp found
    refine ⟨before.reverse, exchange, behind.reverse, ?_, refused, ?_⟩
    · rw [← List.reverse_reverse made, backwards]
      simp
    · exact fun later found => accepted later (List.mem_reverse.mp found)
  · rintro ⟨before, exchange, behind, rfl, refused, accepted⟩
    have single : latestRefusal? [exchange] = some e := List.findSome?_singleton.trans refused
    rw [List.append_cons, latestRefusal?_append, latestRefusal?_append, single,
      latestRefusal?_eq_none accepted]
    rfl

namespace Cursor

/-- Between two states of a cursor these exchanges were made, and the latest refusal among them is
kept; without one the last error stays what it was. -/
structure Remembers (before : Cursor (Observed σ)) (made : List Exchange)
    (after : Cursor (Observed σ)) : Prop where
  record : after.source.exchanges = before.source.exchanges ++ made
  failure : after.lastError = (latestRefusal? made).or before.lastError

theorem Remembers.refl (cursor : Cursor (Observed σ)) : cursor.Remembers [] cursor :=
  ⟨(List.append_nil _).symm, rfl⟩

theorem Remembers.trans {first second third : Cursor (Observed σ)} {made more : List Exchange}
    (earlier : first.Remembers made second) (later : second.Remembers more third) :
    first.Remembers (made ++ more) third := by
  refine ⟨?_, ?_⟩
  · rw [later.record, earlier.record, List.append_assoc]
  · rw [later.failure, earlier.failure, latestRefusal?_append, Option.or_assoc]

variable [PageSource σ] {cursor fetched : Cursor (Observed σ)}

theorem Fetches.remembers {notices : List Notice} (effect : Fetches cursor fetched notices) :
    cursor.Remembers [.fetched cursor.request cursor.asks.1] fetched := by
  refine ⟨effect.exchanges, ?_⟩
  cases effect with
  | accepted answered paired =>
    have taken : Exchange.refusal? (.fetched cursor.request cursor.asks.1) = none := by
      rw [answered]
      exact if_pos paired
    rw [latestRefusal?_eq_none (List.forall_mem_singleton.mpr taken)]
    rfl
  | @rejected page source e answered unpaired reason =>
    have refused : Exchange.refusal? (.fetched cursor.request cursor.asks.1) = some e := by
      rw [answered, reason]
      exact if_neg unpaired
    have latest : latestRefusal? [.fetched cursor.request cursor.asks.1] = some e :=
      List.findSome?_singleton.trans refused
    rw [latest]
    rfl
  | failed answered =>
    rw [answered]
    rfl

theorem Looks.remembers {turn : Turn (Observed σ) Bool} (effect : Looks cursor turn) :
    cursor.Remembers cursor.demand turn.cursor := by
  refine ⟨effect.exchanges, ?_⟩
  cases effect with
  | buffered left =>
    rw [demand, if_neg fun wants => Nat.not_le_of_lt left wants.1]
    rfl
  | ended used last =>
    rw [demand, if_neg fun wants => wants.2 last]
    rfl
  | asked used more fetching =>
    rw [demand, if_pos ⟨used, more⟩]
    exact fetching.remembers.failure

/-- A row is no matter of the source, whether it decodes or not. -/
theorem Takes.remembers {turn : Turn (Observed σ) (Except Error (Option Row))}
    (effect : Takes cursor turn) : cursor.Remembers cursor.demand turn.cursor := by
  cases effect with
  | nothing look => exact look.remembers
  | row look => exact ⟨look.remembers.record, look.remembers.failure⟩
  | damaged look => exact ⟨look.remembers.record, look.remembers.failure⟩

theorem remembers_close (cursor : Cursor (Observed σ)) :
    cursor.Remembers [.closed cursor.queryId cursor.close.1] cursor.close.2 :=
  ⟨rfl, rfl⟩

theorem Coherent.remembers_after (coherent : cursor.Coherent) (calls : Nat) :
    ∃ made, cursor.Remembers made (cursor.after calls) := by
  induction calls generalizing cursor with
  | zero => exact ⟨[], .refl cursor⟩
  | succ calls ih =>
    have taking := tryNext_effect coherent
    obtain ⟨made, others⟩ := ih (taking.coherent coherent)
    exact ⟨cursor.demand ++ made, taking.remembers.trans others⟩

end Cursor

namespace Session
variable [PageSource σ]

/-- A call that does not take the last error away. -/
inductive Onward : Session σ → Session σ → Prop
  | hasNext (session : Session σ) : Onward session session.hasNext
  | tryNext (session : Session σ) : Onward session session.tryNext
  | next (session : Session σ) : Onward session session.next
  | close (session : Session σ) : Onward session session.close
  | drain {κ : Type} [RowSink κ] {session after : Session σ} (sink : κ) (fuel : Nat)
      (ended : session.drain sink fuel = some after) : Onward session after

theorem Onward.step {session after : Session σ} (call : Onward session after) :
    Step session after := by
  cases call with
  | hasNext => exact .hasNext session
  | tryNext => exact .tryNext session
  | next => exact .next session
  | close => exact .close session
  | drain sink fuel ended => exact .drain sink fuel ended

theorem Step.onward_or_taken {session after : Session σ} (step : Step session after) :
    Onward session after ∨ after = session.takeLastError := by
  cases step with
  | hasNext => exact .inl (.hasNext session)
  | tryNext => exact .inl (.tryNext session)
  | next => exact .inl (.next session)
  | takeLastError => exact .inr rfl
  | close => exact .inl (.close session)
  | drain sink fuel ended => exact .inl (.drain sink fuel ended)

theorem Onward.remembers {session after : Session σ} (call : Onward session after)
    (coherent : session.cursor.Coherent) :
    ∃ made, session.cursor.Remembers made after.cursor := by
  have taking := Cursor.tryNext_effect coherent
  cases call with
  | hasNext => exact ⟨_, (Cursor.hasNext_effect session.cursor).remembers⟩
  | tryNext => exact ⟨_, taking.remembers⟩
  | next =>
    rw [next_eq_tryNext]
    exact ⟨_, taking.remembers⟩
  | close => exact ⟨_, Cursor.remembers_close session.cursor⟩
  | drain sink fuel ended =>
    obtain ⟨drained, ran, rfl⟩ := Option.map_eq_some_iff.mp ended
    obtain ⟨calls, same⟩ := Cursor.drainInto_after ran
    obtain ⟨made, others⟩ := coherent.remembers_after calls
    exact ⟨made, same ▸ others⟩

/-- Calls one after the other, none of which takes the last error away. -/
abbrev Onwards (before after : Session σ) : Prop := ReflTransGen Onward before after

theorem Onwards.reaches {session after : Session σ} (run : Onwards session after) :
    Reaches session after :=
  ReflTransGen.mono (fun _ _ => Onward.step) _ _ run

theorem Onwards.remembers {session after : Session σ} (run : Onwards session after)
    (coherent : session.cursor.Coherent) :
    ∃ made, session.cursor.Remembers made after.cursor := by
  induction run with
  | refl => exact ⟨[], .refl session.cursor⟩
  | tail run call ih =>
    obtain ⟨made, earlier⟩ := ih
    obtain ⟨more, later⟩ := call.remembers ((Onwards.reaches run).coherent coherent)
    exact ⟨made ++ more, earlier.trans later⟩

/-- From here on the last error counts: the cursor was opened, or its last error was taken. -/
inductive Marks (start : Session σ) : Session σ → Prop
  | opened : Marks start start
  | taken {session : Session σ} (run : Reaches start session) : Marks start session.takeLastError

theorem Marks.reaches {start mark : Session σ} (marks : Marks start mark) :
    Reaches start mark := by
  cases marks with
  | opened => exact .refl
  | taken run => exact run.tail (.takeLastError _)

/-- Every run has a latest mark. -/
theorem Reaches.exists_mark {start session : Session σ} (run : Reaches start session) :
    ∃ mark, Marks start mark ∧ Onwards mark session := by
  induction run with
  | refl => exact ⟨start, .opened, .refl⟩
  | @tail session after run step ih =>
    obtain ⟨mark, marks, since⟩ := ih
    rcases step.onward_or_taken with call | rfl
    · exact ⟨mark, marks, since.tail call⟩
    · exact ⟨_, .taken run, .refl⟩

/-- In every state that calls can lead to, there is a last error exactly if the source has refused
since it was last taken, or since the cursor was opened, and then it is the latest refusal. A call
in which the source does not refuse leaves it as it was, whatever else fails. -/
theorem last_error_exact {source : σ} {queryId : Int64} {paths : List String}
    {types : List DataType} {options : FetchOptions} {values bitmaps : List Bytes}
    {start : Cursor (Observed σ)} {session : Session σ}
    (opened : Cursor.withPage ⟨source, []⟩ queryId paths types options values bitmaps = .ok start)
    (run : Reaches ⟨start, [], []⟩ session) :
    (∃ mark, Marks ⟨start, [], []⟩ mark ∧ Onwards mark session) ∧
    (∀ mark, Marks ⟨start, [], []⟩ mark → Onwards mark session → ∃ made,
      session.cursor.source.exchanges = mark.cursor.source.exchanges ++ made ∧
      ∀ e, session.cursor.lastError = some e ↔ ∃ before exchange behind,
        made = before ++ exchange :: behind ∧ exchange.refusal? = some e ∧
          ∀ later ∈ behind, later.refusal? = none) ∧
    ∀ after, Onward session after → ∃ made,
      after.cursor.source.exchanges = session.cursor.source.exchanges ++ made ∧
      ((∀ exchange ∈ made, exchange.refusal? = none) →
        after.cursor.lastError = session.cursor.lastError) := by
  have coherent := Cursor.withPage_coherent opened
  refine ⟨run.exists_mark, ?_, ?_⟩
  · intro mark marks since
    obtain ⟨made, record, failure⟩ := since.remembers (marks.reaches.coherent coherent)
    have none : mark.cursor.lastError = none := by
      cases marks with
      | opened =>
        obtain ⟨-, -, rfl⟩ := Cursor.withPage_eq_ok.mp opened
        rfl
      | taken => rfl
    rw [none, Option.or_none] at failure
    refine ⟨made, record, fun e => ?_⟩
    rw [failure]
    exact latestRefusal?_eq_some_iff
  · intro after call
    obtain ⟨made, record, failure⟩ := call.remembers (run.coherent coherent)
    refine ⟨made, record, fun accepted => ?_⟩
    rw [failure, latestRefusal?_eq_none accepted]
    rfl

/-- A source that fails, then gives a page that does not pair up, then one with a broken row, and
cannot release its result. -/
def failing : Script where
  pages := [.error (.transport "down"), .ok ⟨[[1]], [], true⟩, .ok ⟨[[]], [[1]], true⟩]
  closings := [.error (.transport "gone")]

/-- A cursor on this source, whose first failure was seen and taken. -/
def forgiven : Session Script :=
  let opened : Session Script :=
    { cursor :=
        { source := ⟨failing, []⟩, queryId := 7, options := {}, paths := ["pump"],
          types := [.boolean], values := [], bitmaps := [] } }
  opened.hasNext.takeLastError

/-- The page that does not pair up counts. The broken row and the release behind it do not. -/
theorem forgiven_last_error :
    forgiven.cursor.lastError = none ∧ forgiven.hasNext.tryNext.close.notices =
      [.fetchFailed (.transport "down"), .fetchFailed (.corrupted .bitmap (.unequalBuffers 1 0)),
        .rowDamaged 0 (.corrupted (.cell 0 0) (.shortRead 1 0 0))] ∧
    forgiven.hasNext.tryNext.cursor.close.1 = .error (.transport "gone") ∧
    forgiven.hasNext.tryNext.close.cursor.lastError =
      some (.corrupted .bitmap (.unequalBuffers 1 0)) := by
  refine ⟨rfl, rfl, rfl, ?_⟩
  have since : Onwards forgiven forgiven.hasNext.tryNext.close :=
    .tail (.tail (.single (.hasNext _)) (.tryNext _)) (.close _)
  have taken : Reaches _ forgiven := .tail (.single (.hasNext _)) (.takeLastError _)
  obtain ⟨-, latest, -⟩ := @last_error_exact Script _ failing 7 ["pump"] [.boolean] {} [] [] _ _
    rfl (taken.trans since.reaches)
  obtain ⟨made, record, kept⟩ := latest forgiven (.taken (.single (.hasNext _))) since
  have listed : forgiven.hasNext.tryNext.close.cursor.source.exchanges =
      forgiven.cursor.source.exchanges ++ [.fetched forgiven.cursor.request (.ok ⟨[[1]], [], true⟩),
        .fetched forgiven.cursor.request (.ok ⟨[[]], [[1]], true⟩),
        .closed 7 (.error (.transport "gone"))] := rfl
  obtain rfl := List.append_cancel_left (listed.symm.trans record)
  exact (kept _).mpr ⟨[], _, _, rfl, rfl, by decide⟩

end Session
end SeriesClient.Paging
