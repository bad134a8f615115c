import SeriesClient.Proofs.Paging.Drained
import SeriesClient.Proofs.Traced

/-! What a cursor does within a call, one deed after the other: it asks its source and it decodes
rows. A call reports the deeds that failed and nothing else. -/
namespace SeriesClient.Paging
open Wire
variable {σ : Type}

/-- A thing that a cursor does, with what came of it. -/
inductive Deed where
  | asked (exchange : Exchange)
  /-- The row at this place of the page was decoded. -/
  | decoded (place : Nat) (outcome : Except Error Row)

namespace Deed

def exchange? : Deed → Option Exchange
  | asked exchange => some exchange
  | decoded .. => none

def row? : Deed → Option Row
  | decoded _ (.ok row) => some row
  | _ => none

/-- Refused pages and rows that do not decode are worth a notice. -/
def notice? : Deed → Option Notice
  | asked exchange => exchange.refusal?.map .fetchFailed
  | decoded place (.error e) => some (.rowDamaged place e)
  | decoded _ (.ok _) => none

end Deed

namespace Cursor
variable [PageSource σ]

/-- What calls on a cursor are made of: a page that is used up is given away, a page is asked for,
the row at hand is decoded, the last error is forgotten, the result is released. -/
inductive Acts : Cursor σ → List Deed → Cursor σ → Prop
  | clear {cursor : Cursor σ} (used : cursor.values.length ≤ cursor.index) :
      Acts cursor [] cursor.cleared
  | ask {cursor fetched : Cursor σ} {notices : List Notice}
      (fetching : Fetches cursor fetched notices) :
      Acts cursor [.asked (.fetched cursor.request cursor.asks.1)] fetched
  | decode {cursor : Cursor σ} {row : Bytes × Bytes} {cells : Row}
      (atHand : cursor.pending = row :: cursor.stepped.pending)
      (decoded : readRow cursor.types row = .ok cells) :
      Acts cursor [.decoded cursor.index (.ok cells)] cursor.stepped
  | spoil {cursor : Cursor σ} {row : Bytes × Bytes} {e : Error}
      (atHand : cursor.pending = row :: cursor.stepped.pending)
      (refused : readRow cursor.types row = .error e) :
      Acts cursor [.decoded cursor.index (.error e)] cursor.spent
  | forget (cursor : Cursor σ) : Acts cursor [] cursor.takeLastError.2
  | close (cursor : Cursor σ) :
      Acts cursor [.asked (.closed cursor.queryId cursor.close.1)] cursor.close.2

abbrev Does : Cursor σ → List Deed → Cursor σ → Prop := Traced Acts

variable {cursor : Cursor (Observed σ)}

theorem Acts.exchanges {after : Cursor (Observed σ)} {deeds : List Deed}
    (acts : Acts cursor deeds after) : after.source.exchanges =
      cursor.source.exchanges ++ deeds.filterMap Deed.exchange? := by
  cases acts with
  | ask fetching => exact fetching.exchanges
  | close => rfl
  | _ => exact (List.append_nil _).symm

/-- The source has seen all that the cursor asked. -/
theorem Does.exchanges {after : Cursor (Observed σ)} {deeds : List Deed}
    (does : Does cursor deeds after) : after.source.exchanges =
      cursor.source.exchanges ++ deeds.filterMap Deed.exchange? := by
  induction does with
  | refl => exact (List.append_nil _).symm
  | next head tail ih => rw [ih, head.exchanges, List.filterMap_append, List.append_assoc]

/-- A fetch is reported if the page was refused. -/
theorem Fetches.notices_eq {cursor fetched : Cursor σ} {notices : List Notice}
    (effect : Fetches cursor fetched notices) : notices =
      [Deed.asked (.fetched cursor.request cursor.asks.1)].filterMap Deed.notice? := by
  have noted (refusal : Option Error) (same : Exchange.refusal?
      (.fetched cursor.request cursor.asks.1) = refusal) :
      [Deed.asked (.fetched cursor.request cursor.asks.1)].filterMap Deed.notice? =
        (refusal.map Notice.fetchFailed).toList := by
    rw [← same, List.filterMap_cons, List.filterMap_nil, Deed.notice?]
    cases Exchange.refusal? (.fetched cursor.request cursor.asks.1) <;> rfl
  cases effect with
  | accepted answered paired =>
    rw [noted none (by rw [answered]; exact if_pos paired)]
    rfl
  | @rejected _ _ e answered unpaired reason =>
    rw [noted (some e) (by rw [answered, reason]; exact if_neg unpaired)]
    rfl
  | @failed _ e answered =>
    rw [noted (some e) (by rw [answered]; rfl)]
    rfl

theorem Looks.does {cursor : Cursor σ} {turn : Turn σ Bool} (effect : Looks cursor turn) :
    ∃ deeds, Does cursor deeds turn.cursor ∧ deeds.filterMap Deed.row? = [] ∧
      turn.notices = deeds.filterMap Deed.notice? := by
  cases effect with
  | buffered left => exact ⟨[], .refl cursor, rfl, rfl⟩
  | ended used last => exact ⟨[], .single (.clear used), rfl, rfl⟩
  | asked used more fetching =>
    exact ⟨_, .next (.clear used) (.single (.ask fetching)), rfl, fetching.notices_eq⟩

theorem Takes.does {cursor : Cursor σ} {turn : Turn σ (Except Error (Option Row))}
    (effect : Takes cursor turn) : ∃ deeds, Does cursor deeds turn.cursor ∧
      deeds.filterMap Deed.row? = given turn.answer ∧
      turn.notices = deeds.filterMap Deed.notice? := by
  cases effect with
  | nothing look => exact look.does
  | row look left atHand decoded =>
    obtain ⟨deeds, does, none, notices⟩ := look.does
    refine ⟨_, does.trans (.single (.decode atHand decoded)), ?_, ?_⟩
    · rw [List.filterMap_append, none]
      rfl
    · rw [List.filterMap_append, ← notices]
      exact (List.append_nil _).symm
  | damaged look left atHand refused =>
    obtain ⟨deeds, does, none, notices⟩ := look.does
    refine ⟨_, does.trans (.single (.spoil atHand refused)), ?_, ?_⟩
    · rw [List.filterMap_append, none]
      rfl
    · rw [List.filterMap_append, ← notices]
      rfl

end Cursor

namespace Session
variable [PageSource σ]

/-- These things were done between two states of a session, and the record of the source, the rows
handed out and the notices all come from them. -/
structure Recounts (session after : Session σ) (deeds : List Deed) : Prop where
  does : session.cursor.Does deeds after.cursor
  exchanges : after.cursor.source.exchanges =
    session.cursor.source.exchanges ++ deeds.filterMap Deed.exchange?
  handed : after.handed = session.handed ++ deeds.filterMap Deed.row?
  notices : after.notices = session.notices ++ deeds.filterMap Deed.notice?

theorem Recounts.refl (session : Session σ) : session.Recounts session [] :=
  ⟨.refl _, (List.append_nil _).symm, (List.append_nil _).symm, (List.append_nil _).symm⟩

theorem Recounts.trans {first second third : Session σ} {deeds more : List Deed}
    (earlier : first.Recounts second deeds) (later : second.Recounts third more) :
    first.Recounts third (deeds ++ more) := by
  refine ⟨earlier.does.trans later.does, ?_, ?_, ?_⟩
  · rw [later.exchanges, earlier.exchanges, List.filterMap_append, List.append_assoc]
  · rw [later.handed, earlier.handed, List.filterMap_append, List.append_assoc]
  · rw [later.notices, earlier.notices, List.filterMap_append, List.append_assoc]

theorem recounts_on {session : Session σ} {cursor : Cursor (Observed σ)} {rows : List Row}
    {notices : List Notice} {deeds : List Deed} (does : session.cursor.Does deeds cursor)
    (handed : deeds.filterMap Deed.row? = rows) (noted : notices = deeds.filterMap Deed.notice?) :
    session.Recounts (session.on cursor rows notices) deeds :=
  ⟨does, does.exchanges, handed ▸ rfl, noted ▸ rfl⟩

theorem Move.recounts {session after : Session σ} (move : Move session after) :
    ∃ deeds, session.Recounts after deeds := by
  cases move with
  | look effect =>
    obtain ⟨deeds, does, none, noted⟩ := effect.does
    exact ⟨deeds, recounts_on does none noted⟩
  | take effect =>
    obtain ⟨deeds, does, handed, noted⟩ := effect.does
    exact ⟨deeds, recounts_on does handed noted⟩
  | forget => exact ⟨_, recounts_on (.single (.forget _)) rfl rfl⟩
  | close => exact ⟨_, recounts_on (.single (.close _)) rfl rfl⟩

theorem Moves.recounts {session after : Session σ} (moves : Moves session after) :
    ∃ deeds, session.Recounts after deeds := by
  induction moves with
  | refl => exact ⟨[], .refl session⟩
  | tail _ move ih =>
    obtain ⟨deeds, earlier⟩ := ih
    obtain ⟨more, later⟩ := move.recounts
    exact ⟨deeds ++ more, earlier.trans later⟩

/-- Each call reports its failed deeds, in the order in which it did them. -/
theorem Step.recounts {session after : Session σ} (step : Step session after)
    (coherent : session.cursor.Coherent) : ∃ deeds, session.Recounts after deeds :=
  (step.moves coherent).recounts

end Session
end SeriesClient.Paging
