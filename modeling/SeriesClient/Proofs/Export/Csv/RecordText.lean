import SeriesClient.Export.Csv.Writer

/-! The text of delimited records, and that a writer puts down this text and nothing else. What has
gone down and what is held back are one text, so that it does not show when the buffer is sent. -/
namespace SeriesClient.Export.Csv

/-- Bytes inside quotes: each quote among them is written twice. -/
def doubled (field : Bytes) : Bytes :=
  field.flatMap fun b => if b == quote then [quote, quote] else [b]

/-- A field up to its closing quote. -/
def opened (delimiter : UInt8) (field : Bytes) : Bytes :=
  if needsQuotes delimiter field then quote :: doubled field else field

def fieldText (delimiter : UInt8) (field : Bytes) : Bytes :=
  opened delimiter field ++ if needsQuotes delimiter field then [quote] else []

/-- Fields side by side, each but the first behind a delimiter. -/
def joined (delimiter : UInt8) : List Bytes → Bytes
  | [] => []
  | field :: fields =>
    fieldText delimiter field ++ fields.flatMap fun other => delimiter :: fieldText delimiter other

/-- A record and the end of its line. No line is left blank. -/
def recordText (delimiter : UInt8) (fields : List Bytes) : Bytes :=
  (if joined delimiter fields = [] then [quote, quote] else joined delimiter fields) ++ [lineFeed]

/-- The laws of the text of a record. A field is in quotes iff it holds the delimiter, a quote or
the end of a line, and quotes in it are doubled; fields have a delimiter between each and the next;
a record has two quotes where it has no byte, and the end of its line. -/
structure RecordLaws (delimiter : UInt8) (field : Bytes → Bytes) (record : List Bytes → Bytes) :
    Prop where
  bare : ∀ bytes, (∀ b ∈ bytes, b ∉ [delimiter, quote, carriageReturn, lineFeed]) →
    field bytes = bytes
  quoted : ∀ bytes, (∃ b ∈ bytes, b ∈ [delimiter, quote, carriageReturn, lineFeed]) →
    field bytes = quote :: doubled bytes ++ [quote]
  blank : ∀ fields, [delimiter].intercalate (fields.map field) = [] →
    record fields = [quote, quote, lineFeed]
  filled : ∀ fields, [delimiter].intercalate (fields.map field) ≠ [] →
    record fields = [delimiter].intercalate (fields.map field) ++ [lineFeed]

theorem needsQuotes_iff {delimiter : UInt8} {field : Bytes} : needsQuotes delimiter field = true ↔
    ∃ b ∈ field, b ∈ [delimiter, quote, carriageReturn, lineFeed] := by
  simp [needsQuotes, or_assoc]

theorem intercalate_cons {α : Type} (between first : List α) (rest : List (List α)) :
    between.intercalate (first :: rest) = first ++ rest.flatMap (between ++ ·) := by
  induction rest generalizing first with
  | nil => simp
  | cons next rest ih =>
    rw [List.intercalate_cons_cons, ih]
    simp only [List.flatMap_cons, List.append_assoc]

theorem joined_eq (delimiter : UInt8) (fields : List Bytes) :
    joined delimiter fields = [delimiter].intercalate (fields.map (fieldText delimiter)) := by
  cases fields with
  | nil => rfl
  | cons field fields =>
    rw [List.map_cons, intercalate_cons, List.flatMap_map, joined]
    rfl

theorem recordText_laws (delimiter : UInt8) :
    RecordLaws delimiter (fieldText delimiter) (recordText delimiter) := by
  constructor
  case bare =>
    intro bytes needless
    have bare : ¬ needsQuotes delimiter bytes = true := by
      rw [needsQuotes_iff]
      exact fun ⟨b, found, special⟩ => needless b found special
    rw [fieldText, opened, if_neg bare, if_neg bare, List.append_nil]
  case quoted =>
    intro bytes needed
    rw [← needsQuotes_iff] at needed
    rw [fieldText, opened, if_pos needed, if_pos needed]
  case blank =>
    intro fields none
    rw [← joined_eq] at none
    rw [recordText, if_pos none]
    rfl
  case filled =>
    intro fields some
    rw [← joined_eq] at some ⊢
    rw [recordText, if_neg some]

/-- Destinations that take all that is written, as long as they are `ready`, and stay so. -/
structure Unfailing {δ : Type} [Destination δ] (ready : δ → Prop) (content : δ → Bytes) :
    Prop where
  write : ∀ d, ready d → ∀ bytes, ∃ d', Destination.write bytes d = (.ok (), d') ∧ ready d' ∧
    content d' = content d ++ bytes
  flush : ∀ d, ready d → ∃ d', Destination.flush d = (.ok (), d') ∧ ready d' ∧
    content d' = content d

/-- Memory without a limit that is not told to refuse a flush. -/
theorem Store.unfailing :
    Unfailing (fun store : Store => store.limit = none ∧ store.refusedFlush = none)
      Store.written := by
  constructor
  · rintro store ⟨unlimited, willing⟩ bytes
    refine ⟨{ store with written := store.written ++ bytes }, ?_, ⟨unlimited, willing⟩, rfl⟩
    simp [Destination.write, Store.write, unlimited]
  · rintro store ⟨unlimited, willing⟩
    refine ⟨{ store with flushes := store.flushes + 1 }, ?_, ⟨unlimited, willing⟩, rfl⟩
    simp [Destination.flush, Store.flush, willing]

/-- A writer as far as it matters: its text, whether sent down or held back, and how far the record
at hand has come. -/
structure Draft where
  text : Bytes
  progress : Progress
  width : Option Nat

namespace Draft

def add (bytes : Bytes) (draft : Draft) : Draft := { draft with
  text := draft.text ++ bytes
  progress := { draft.progress with started := draft.progress.started || !bytes.isEmpty } }

def turn (change : Progress → Progress) (draft : Draft) : Draft :=
  { draft with progress := change draft.progress }

/-- The quotes of the field at hand are closed. -/
def close (draft : Draft) : Draft :=
  if draft.progress.quoted then (draft.add [quote]).turn fun p => { p with quoted := false }
  else draft

/-- A field is entered, with a quote if its bytes call for one. -/
def enter (delimiter : UInt8) (field : Bytes) (draft : Draft) : Draft :=
  ((draft.turn fun p => { p with quoted := needsQuotes delimiter field }).add
    (if needsQuotes delimiter field then [quote] else [])).turn
      fun p => { p with inField := true }

/-- A field is complete but for its closing quote. -/
def field (delimiter : UInt8) (field : Bytes) (draft : Draft) : Draft :=
  ((draft.enter delimiter field).add
    (if needsQuotes delimiter field then doubled field else field)).turn
      fun p => { p with fields := p.fields + 1 }

/-- The field at hand is closed and the next one may be entered. -/
def next (delimiter : UInt8) (draft : Draft) : Draft :=
  (draft.close.add [delimiter]).turn fun p => { p with inField := false }

theorem add_nil (draft : Draft) : draft.add [] = draft := by
  simp [add]

theorem add_add (draft : Draft) (first second : Bytes) :
    (draft.add first).add second = draft.add (first ++ second) := by
  cases first <;> simp [add]

theorem quoted_add (draft : Draft) (bytes : Bytes) :
    (draft.add bytes).progress.quoted = draft.progress.quoted := rfl

theorem text_close (draft : Draft) :
    draft.close.text = draft.text ++ if draft.progress.quoted then [quote] else [] := by
  rw [close]
  split
  · rfl
  · rw [List.append_nil]

theorem text_close_field (delimiter : UInt8) (bytes : Bytes) (draft : Draft) :
    (draft.field delimiter bytes).close.text = draft.text ++ fieldText delimiter bytes := by
  rw [text_close, fieldText, opened]
  cases quoted : needsQuotes delimiter bytes <;> simp [field, enter, turn, add, quoted]

theorem fields_close (draft : Draft) : draft.close.progress.fields = draft.progress.fields := by
  rw [close]
  split <;> rfl

theorem width_close (draft : Draft) : draft.close.width = draft.width := by
  rw [close]
  split <;> rfl

/-- From a draft between records, some fields of the next one have come. -/
structure Covers (delimiter : UInt8) (start : Draft) (come : List Bytes) (draft : Draft) :
    Prop where
  text : draft.close.text = start.text ++ joined delimiter come
  fields : draft.progress.fields = come.length
  started : draft.progress.started = !(joined delimiter come).isEmpty
  quoted : draft.progress.quoted = true → draft.progress.started = true
  width : draft.width = start.width

theorem Covers.none {delimiter : UInt8} {start : Draft} (blank : start.progress = {}) :
    start.Covers delimiter [] start := by
  constructor <;> simp [close, blank, joined]

theorem Covers.first {delimiter : UInt8} {start : Draft} (blank : start.progress = {})
    (field : Bytes) : start.Covers delimiter [field] (start.field delimiter field) := by
  constructor
  · rw [text_close_field, joined, List.flatMap_nil, List.append_nil]
  · simp [Draft.field, enter, turn, add, blank]
  · cases quoted : needsQuotes delimiter field <;>
      simp [Draft.field, enter, turn, add, blank, joined, fieldText, opened, quoted]
  · cases quoted : needsQuotes delimiter field <;>
      simp [Draft.field, enter, turn, add, quoted]
  · rfl

theorem Covers.next {delimiter : UInt8} {start draft : Draft} {fields : List Bytes}
    (some : fields ≠ []) (covers : start.Covers delimiter fields draft) (field : Bytes) :
    start.Covers delimiter (fields ++ [field]) ((draft.next delimiter).field delimiter field) := by
  obtain ⟨first, fields, rfl⟩ := List.exists_cons_of_ne_nil some
  have started : ((draft.next delimiter).field delimiter field).progress.started = true := by
    simp [Draft.field, Draft.next, enter, turn, add]
  constructor
  · rw [text_close_field]
    simp [Draft.next, turn, add, covers.text, joined]
  · simp [Draft.field, Draft.next, enter, turn, add, fields_close, covers.fields]
  · simp [started, joined]
  · exact fun _ => started
  · exact (width_close draft).trans covers.width

/-- As long as no byte has come, nothing is there to be closed. -/
theorem Covers.of_unstarted {delimiter : UInt8} {start draft : Draft} {fields : List Bytes}
    (covers : start.Covers delimiter fields draft) (unstarted : draft.progress.started = false) :
    joined delimiter fields = [] ∧ draft.progress.quoted = false ∧ draft.text = start.text := by
  have none : joined delimiter fields = [] := by
    simpa [unstarted] using covers.started
  have bare : draft.progress.quoted = false := by
    cases quoted : draft.progress.quoted with
    | false => rfl
    | true => exact absurd (covers.quoted quoted) (by simp [unstarted])
  have text := covers.text
  rw [text_close, bare, none] at text
  exact ⟨none, bare, by simpa using text⟩

theorem Covers.widen {delimiter : UInt8} {start draft : Draft} {fields : List Bytes}
    (covers : start.Covers delimiter fields draft) (width : Option Nat) :
    ({ start with width } : Draft).Covers delimiter fields { draft with width } := by
  refine { covers with text := ?_, width := rfl }
  rw [text_close]
  exact draft.text_close.symm.trans covers.text

end Draft

section Draws
variable {δ : Type} (ready : δ → Prop) (content : δ → Bytes) (delimiter : UInt8)

structure Shows (writer : Writer δ) (draft : Draft) : Prop where
  ready : ready writer.destination
  text : content writer.destination ++ writer.buffer.toList = draft.text
  progress : writer.progress = draft.progress
  width : writer.width = draft.width
  delimiter : writer.delimiter = delimiter

/-- A step that succeeds and takes one draft to another. -/
def Does (step : Writing δ Unit) (before after : Draft) : Prop :=
  ∀ writer, Shows ready content delimiter writer before →
    ∃ written, step writer = (.ok (), written) ∧ Shows ready content delimiter written after

/-- A step that fails. -/
def Refuses (step : Writing δ Unit) (before : Draft) (fault : SinkFault) : Prop :=
  ∀ writer, Shows ready content delimiter writer before → (step writer).1 = .error fault

variable {ready content delimiter}

namespace Does
variable {step next : Writing δ Unit} {before between after : Draft}

theorem pure (draft : Draft) : Does ready content delimiter (Pure.pure ()) draft draft :=
  fun writer shows => ⟨writer, rfl, shows⟩

theorem bind (first : Does ready content delimiter step before between)
    (second : Does ready content delimiter next between after) :
    Does ready content delimiter (step >>= fun _ => next) before after := by
  intro writer shows
  obtain ⟨halfway, done, shows⟩ := first writer shows
  obtain ⟨written, done', shows⟩ := second halfway shows
  refine ⟨written, ?_, shows⟩
  rw [← done']
  change StateT.bind step (ExceptT.bindCont fun _ => next) writer = next halfway
  simp only [StateT.bind, done]
  rfl

theorem refuses {fault : SinkFault} (first : Does ready content delimiter step before between)
    (second : Refuses ready content delimiter next between fault) :
    Refuses ready content delimiter (step >>= fun _ => next) before fault := by
  intro writer shows
  obtain ⟨halfway, done, shows⟩ := first writer shows
  rw [← second halfway shows]
  change (StateT.bind step (ExceptT.bindCont fun _ => next) writer).1 = (next halfway).1
  simp only [StateT.bind, done]
  rfl

theorem look {act : Writer δ → Writing δ Unit}
    (each : ∀ writer, Shows ready content delimiter writer before →
      ∃ written, act writer writer = (.ok (), written) ∧
        Shows ready content delimiter written after) :
    Does ready content delimiter (MonadState.get >>= act) before after := each

/-- Of the writer that a step looks at, only the draft matters. -/
theorem get {act : Writer δ → Writing δ Unit}
    (each : ∀ writer, Shows ready content delimiter writer before →
      Does ready content delimiter (act writer) before after) :
    Does ready content delimiter (MonadState.get >>= act) before after :=
  look fun writer shows => each writer shows writer shows

theorem change {turn : Writer δ → Writer δ}
    (each : ∀ writer, Shows ready content delimiter writer before →
      Shows ready content delimiter (turn writer) after) :
    Does ready content delimiter (modify turn) before after :=
  fun writer shows => ⟨turn writer, rfl, each writer shows⟩

end Does

theorem Refuses.bind {step next : Writing δ Unit} {before : Draft} {fault : SinkFault}
    (first : Refuses ready content delimiter step before fault) :
    Refuses ready content delimiter (step >>= fun _ => next) before fault := by
  intro writer shows
  have failed := first writer shows
  change (StateT.bind step (ExceptT.bindCont fun _ => next) writer).1 = .error fault
  rw [StateT.bind]
  generalize step writer = stopped at failed
  obtain ⟨answer, halfway⟩ := stopped
  cases failed
  rfl

theorem Refuses.get {act : Writer δ → Writing δ Unit} {before : Draft} {fault : SinkFault}
    (each : ∀ writer, Shows ready content delimiter writer before →
      Refuses ready content delimiter (act writer) before fault) :
    Refuses ready content delimiter (MonadState.get >>= act) before fault :=
  fun writer shows => each writer shows writer shows

end Draws

namespace Writer
variable {δ : Type} {ready : δ → Prop} {content : δ → Bytes} {delimiter : UInt8} {draft : Draft}

theorem setProgress_does (change : Progress → Progress) :
    Does ready content delimiter (setProgress change) draft (draft.turn change) := by
  apply Does.change
  rintro writer ⟨sound, text, progress, width, same⟩
  exact ⟨sound, text, congrArg change progress, width, same⟩

/-- A record is as wide as those before it, or the first. -/
theorem checkWidth_does (fits : draft.width = none ∨ draft.width = some draft.progress.fields) :
    Does ready content delimiter checkWidth draft
      { draft with width := some draft.progress.fields } := by
  apply Does.look
  rintro writer ⟨sound, text, progress, width, same⟩
  rw [← width, ← progress] at fits
  rcases fits with first | again
  · rw [first]
    exact ⟨_, rfl, sound, text, progress, congrArg (some ·.fields) progress, same⟩
  · rw [again]
    dsimp only
    rw [if_neg (not_not_intro rfl)]
    exact ⟨_, rfl, sound, text, progress, again.trans (congrArg (some ·.fields) progress), same⟩

theorem checkWidth_refuses {width : Nat} (wide : draft.width = some width)
    (uneven : width ≠ draft.progress.fields) :
    Refuses ready content delimiter checkWidth draft
      (.recordWidth draft.progress.fields width) := by
  apply Refuses.get
  rintro writer ⟨-, -, progress, width, -⟩
  rw [progress, width, wide]
  dsimp only
  rw [if_pos uneven]
  exact fun _ _ => rfl

section Held

@[simp] theorem toList_hold (bytes : Bytes) (writer : Writer δ) :
    (writer.hold bytes).buffer.toList = writer.buffer.toList ++ bytes :=
  Array.toList_appendList

theorem hold_nil (writer : Writer δ) : writer.hold [] = writer := by
  simp [hold]

theorem hold_hold (writer : Writer δ) (first second : Bytes) :
    (writer.hold first).hold second = writer.hold (first ++ second) := by
  have same : writer.buffer ++ first ++ second = writer.buffer ++ (first ++ second) :=
    Array.toList_inj.mp (by simp)
  simp only [hold, same]

theorem holdBytes_eq (bytes : Bytes) (writer : Writer δ) :
    writer.holdBytes bytes = writer.hold (doubled bytes) := by
  induction bytes generalizing writer with
  | nil => exact writer.hold_nil.symm
  | cons b bytes ih =>
    rw [holdBytes, List.foldl_cons, ← holdBytes, ih, hold_hold]
    rfl

theorem holdField_eq (field : Bytes) (writer : Writer δ) :
    writer.holdField field = writer.hold (fieldText writer.delimiter field) := by
  rw [holdField, fieldText, opened]
  split
  · rw [holdBytes_eq, hold_hold, hold_hold]
    rfl
  · rw [List.append_nil]

/-- Fields go into the buffer as they stand in the text of their record. -/
theorem holdFields_eq (fields : List Bytes) (writer : Writer δ) :
    writer.holdFields fields = writer.hold (joined writer.delimiter fields) := by
  have others (rest : List Bytes) (writer : Writer δ) :
      rest.foldl (fun writer other => (writer.hold [writer.delimiter]).holdField other) writer =
        writer.hold (rest.flatMap fun other =>
          writer.delimiter :: fieldText writer.delimiter other) := by
    induction rest generalizing writer with
    | nil => exact writer.hold_nil.symm
    | cons other rest ih =>
      rw [List.foldl_cons, ih, holdField_eq, hold_hold, hold_hold]
      rfl
  cases fields with
  | nil => exact writer.hold_nil.symm
  | cons field fields =>
    rw [holdFields, others, holdField_eq, hold_hold]
    rfl

theorem hold_does (bytes : Bytes) :
    Does ready content delimiter (modify (·.hold bytes)) draft
      { draft with text := draft.text ++ bytes } := by
  apply Does.change
  rintro writer ⟨sound, text, progress, width, same⟩
  refine ⟨sound, ?_, progress, width, same⟩
  rw [toList_hold, ← List.append_assoc, ← text]
  rfl

theorem holdFields_does (fields : List Bytes) :
    Does ready content delimiter (modify (·.holdFields fields)) draft
      { draft with text := draft.text ++ joined delimiter fields } := by
  intro writer shows
  have same : writer.holdFields fields = writer.hold (joined delimiter fields) := by
    rw [holdFields_eq, shows.delimiter]
  obtain ⟨written, held, shows⟩ := hold_does (joined delimiter fields) writer shows
  exact ⟨written, (congrArg (Except.ok (), ·) same).trans held, shows⟩

/-- Only a record without fields, or with one that is empty, leaves no trace. -/
theorem flatten_of_joined_nil {fields : List Bytes} (none : joined delimiter fields = []) :
    fields.flatten = [] := by
  cases fields with
  | nil => rfl
  | cons field fields =>
    obtain ⟨empty, rest⟩ := List.append_eq_nil_iff.mp none
    have last : fields = [] := by
      cases fields with
      | nil => rfl
      | cons => cases rest
    rw [fieldText, opened] at empty
    split at empty
    · cases empty
    · rw [last, List.flatten_cons, (List.append_eq_nil_iff.mp empty).1]
      rfl

/-- A record that goes straight into the buffer leaves the same text as one byte by byte. -/
theorem holdRecord_does (blank : draft.progress = {}) {fields : List Bytes}
    (some : fields.flatten ≠ []) (fits : draft.width = none ∨ draft.width = .some fields.length) :
    Does ready content delimiter (holdRecord fields) draft
      ⟨draft.text ++ recordText delimiter fields, {}, .some fields.length⟩ := by
  have traced : joined delimiter fields ≠ [] := fun none => some (flatten_of_joined_nil none)
  rw [recordText, if_neg traced, ← List.append_assoc]
  refine (holdFields_does fields).bind ((setProgress_does _).bind
    ((checkWidth_does fits).bind ((hold_does [lineFeed]).bind ?_)))
  have ended := @setProgress_does _ ready content delimiter
    ⟨draft.text ++ joined delimiter fields ++ [lineFeed],
      { draft.progress with fields := fields.length }, .some fields.length⟩
    fun p => { p with fields := 0 }
  rwa [blank] at ended ⊢

end Held

section Destination
variable [Destination δ] (unfailing : Unfailing ready content)
include unfailing

theorem drain_shows {writer : Writer δ} (shows : Shows ready content delimiter writer draft) :
    ∃ drained, writer.drain = (.ok (), drained) ∧ drained.buffer = #[] ∧
      Shows ready content delimiter drained draft := by
  obtain ⟨sound, text, progress, width, same⟩ := shows
  rw [drain]
  split
  · rename_i empty
    have none : writer.buffer = #[] := Array.isEmpty_iff.mp empty
    exact ⟨writer, rfl, none, sound, text, progress, width, same⟩
  · obtain ⟨destination, taken, sound, content⟩ := unfailing.write _ sound writer.buffer.toList
    rw [taken]
    refine ⟨_, rfl, rfl, sound, ?_, progress, width, same⟩
    simpa [content] using text

theorem spill_does : Does ready content delimiter spill draft draft := by
  intro writer shows
  obtain ⟨drained, sent, -, shows⟩ := drain_shows unfailing shows
  refine ⟨drained, ?_, shows⟩
  rw [spill, sent]

theorem put_does (b : UInt8) (bytes : Bytes) :
    Does ready content delimiter (put (b :: bytes)) draft (draft.add (b :: bytes)) := by
  have added : Does ready content delimiter (modify (add (b :: bytes))) draft
      (draft.add (b :: bytes)) := by
    apply Does.change
    rintro writer ⟨sound, text, progress, width, same⟩
    refine ⟨sound, ?_, ?_, width, same⟩
    · rw [add, toList_hold, ← List.append_assoc]
      exact congrArg (· ++ _) text
    · simp [add, Draft.add, progress]
  apply Does.get
  intro writer _
  split
  · exact added
  · exact (spill_does unfailing).bind added

theorem closeQuotes_does : Does ready content delimiter closeQuotes draft draft.close := by
  apply Does.get
  intro writer shows
  rw [shows.progress, Draft.close]
  split
  · exact (put_does unfailing quote []).bind (setProgress_does _)
  · exact .pure draft

theorem separate_does (behind : draft.progress.fields ≠ 0) :
    Does ready content delimiter separate draft (draft.next delimiter) := by
  apply Does.get
  intro writer shows
  rw [shows.progress, shows.delimiter, if_pos behind]
  exact (closeQuotes_does unfailing).bind ((put_does unfailing delimiter []).bind
    (setProgress_does _))

theorem openField_does (between : draft.progress.inField = false) (bytes : Bytes) :
    Does ready content delimiter (openField bytes) draft (draft.enter delimiter bytes) := by
  apply Does.get
  intro writer shows
  rw [shows.progress, shows.delimiter, between, Draft.enter]
  refine (setProgress_does _).bind ?_
  split
  · exact (put_does unfailing quote []).bind (setProgress_does _)
  · rw [Draft.add_nil]
    exact setProgress_does _

theorem putBytes_does (bytes : Bytes) :
    Does ready content delimiter (putBytes bytes) draft
      (draft.add (if draft.progress.quoted then doubled bytes else bytes)) := by
  induction bytes generalizing draft with
  | nil =>
    have nothing : (if draft.progress.quoted then doubled [] else []) = [] := by
      split <;> rfl
    rw [nothing, Draft.add_nil]
    exact .pure draft
  | cons b bytes ih =>
    apply Does.get
    intro writer shows
    rw [shows.progress]
    have body (first : Bytes) := @ih (draft.add first)
    simp only [Draft.quoted_add, Draft.add_add] at body
    cases quoted : draft.progress.quoted with
    | false => exact (put_does unfailing b []).bind (by simpa [quoted] using body [b])
    | true =>
      simp only [quoted, if_true] at body
      rw [Bool.true_and, if_pos rfl, doubled, List.flatMap_cons, ← doubled]
      split
      · exact (put_does unfailing quote [quote]).bind (body [quote, quote])
      · exact (put_does unfailing b []).bind (body [b])

theorem fill_does (between : draft.progress.inField = false) (bytes : Bytes) :
    Does ready content delimiter (do
      openField bytes
      putBytes bytes
      setProgress fun p => { p with fields := p.fields + 1 }) draft
      (draft.field delimiter bytes) :=
  (openField_does unfailing between bytes).bind
    ((putBytes_does unfailing bytes).bind (setProgress_does _))

theorem putFirst_does (blank : draft.progress = {}) (bytes : Bytes) :
    Does ready content delimiter (putField bytes) draft (draft.field delimiter bytes) := by
  have still : Does ready content delimiter separate draft draft := by
    apply Does.get
    intro writer shows
    rw [shows.progress, blank]
    exact .pure draft
  exact still.bind (fill_does unfailing (by rw [blank]) bytes)

theorem putNext_does (behind : draft.progress.fields ≠ 0) (bytes : Bytes) :
    Does ready content delimiter (putField bytes) draft
      ((draft.next delimiter).field delimiter bytes) :=
  (separate_does unfailing behind).bind (fill_does unfailing rfl bytes)

/-- The fields that are left keep what has come so far. -/
theorem putFields_does {start : Draft} {before : List Bytes} (some : before ≠ [])
    (covers : start.Covers delimiter before draft) (fields : List Bytes) :
    ∃ after, Does ready content delimiter (fields.forM putField) draft after ∧
      start.Covers delimiter (before ++ fields) after := by
  induction fields generalizing before draft with
  | nil =>
    rw [List.append_nil]
    exact ⟨draft, .pure draft, covers⟩
  | cons field fields ih =>
    have behind : draft.progress.fields ≠ 0 := by
      rw [covers.fields]
      exact fun none => some (List.length_eq_zero_iff.mp none)
    obtain ⟨after, done, all⟩ := ih (by simp) (covers.next some field)
    rw [List.append_assoc] at all
    exact ⟨after, (putNext_does unfailing behind field).bind done, all⟩

theorem allFields_does (delimiter : UInt8) (blank : draft.progress = {}) (fields : List Bytes) :
    ∃ after, Does ready content delimiter (fields.forM putField) draft after ∧
      draft.Covers delimiter fields after := by
  cases fields with
  | nil => exact ⟨draft, .pure draft, Draft.Covers.none blank⟩
  | cons field fields =>
    obtain ⟨after, done, all⟩ := putFields_does unfailing (List.cons_ne_nil field [])
      (Draft.Covers.first blank field) fields
    exact ⟨after, (putFirst_does unfailing blank field).bind done, all⟩

theorem endLine_does :
    Does ready content delimiter (do
      closeQuotes
      put [lineFeed]
      setProgress fun _ => {}) draft ⟨draft.close.text ++ [lineFeed], {}, draft.width⟩ := by
  rw [← draft.width_close]
  exact (closeQuotes_does unfailing).bind ((put_does unfailing lineFeed []).bind
    (setProgress_does _))

theorem endRecord_does {start : Draft} {fields : List Bytes}
    (covers : start.Covers delimiter fields draft) :
    Does ready content delimiter endRecord draft
      ⟨start.text ++ recordText delimiter fields, {}, draft.width⟩ := by
  apply Does.get
  intro writer shows
  rw [shows.progress]
  cases started : draft.progress.started with
  | true =>
    have some : joined delimiter fields ≠ [] := by simpa [started] using covers.started
    rw [recordText, if_neg some, ← List.append_assoc, ← covers.text]
    exact endLine_does unfailing
  | false =>
    obtain ⟨none, bare, same⟩ := covers.of_unstarted started
    have blank : (draft.add [quote, quote]).close = draft.add [quote, quote] := by
      rw [Draft.close, Draft.quoted_add, bare]
      rfl
    have ended := @endLine_does _ _ _ delimiter (draft.add [quote, quote]) _ unfailing
    rw [blank] at ended
    rw [recordText, if_pos none, ← same, ← List.append_assoc]
    exact (put_does unfailing quote [quote]).bind ended

theorem putRecord_does (blank : draft.progress = {}) {fields : List Bytes}
    (fits : draft.width = none ∨ draft.width = some fields.length) :
    Does ready content delimiter (putRecord fields) draft
      ⟨draft.text ++ recordText delimiter fields, {}, some fields.length⟩ := by
  obtain ⟨after, written, covers⟩ := allFields_does unfailing delimiter blank fields
  rw [← covers.width, ← covers.fields] at fits
  have ended := endRecord_does unfailing (covers.widen (some fields.length))
  refine written.bind (Does.bind ?_ ended)
  rw [← covers.fields]
  exact checkWidth_does fits

/-- A record of the width of those before it, or the first, goes down as its text, on whichever
way. -/
theorem writeRecord_does (blank : draft.progress = {}) {fields : List Bytes}
    (fits : draft.width = none ∨ draft.width = some fields.length) :
    Does ready content delimiter (writeRecord fields) draft
      ⟨draft.text ++ recordText delimiter fields, {}, some fields.length⟩ := by
  apply Does.get
  intro writer _
  cases roomy : writer.roomy fields with
  | true =>
    have some : fields.flatten ≠ [] := by
      rintro none
      simp [Writer.roomy, none] at roomy
    exact holdRecord_does blank some fits
  | false => exact putRecord_does unfailing blank fits

/-- A record of another width than those before it is refused. -/
theorem writeRecord_refuses (blank : draft.progress = {}) {fields : List Bytes} {width : Nat}
    (wide : draft.width = some width) (uneven : width ≠ fields.length) :
    Refuses ready content delimiter (writeRecord fields) draft
      (.recordWidth fields.length width) := by
  apply Refuses.get
  intro writer _
  cases writer.roomy fields with
  | true =>
    refine (holdFields_does fields).refuses ((setProgress_does _).refuses (Refuses.bind ?_))
    apply checkWidth_refuses
    · exact wide
    · exact uneven
  | false =>
    obtain ⟨after, written, covers⟩ := allFields_does unfailing delimiter blank fields
    refine written.refuses (Refuses.bind ?_)
    rw [← covers.fields] at uneven ⊢
    exact checkWidth_refuses (covers.width.trans wide) uneven

/-- A flush sends all that is held back. -/
theorem flush_shows {writer : Writer δ} (shows : Shows ready content delimiter writer draft) :
    ∃ flushed, writer.flush = (.ok (), flushed) ∧ content flushed.destination = draft.text ∧
      Shows ready content delimiter flushed draft := by
  obtain ⟨drained, sent, empty, sound, text, progress, width, same⟩ := drain_shows unfailing shows
  obtain ⟨destination, flushed, sound, kept⟩ := unfailing.flush _ sound
  rw [empty, List.append_nil] at text
  rw [flush, sent]
  simp only [flushed]
  refine ⟨_, rfl, kept.trans text, sound, ?_, progress, width, same⟩
  simp [kept, text, empty]

end Destination
end Writer
end SeriesClient.Export.Csv
