import SeriesClient.Proofs.Export.Csv.RecordText

/-! A reader of delimited records, one byte at a time. It is strict: no quote and no carriage return
outside quotes, nothing between a closing quote and the end of its field, no last line without an
end. Readers differ on a line without a byte: a record of one empty field, or nothing. Texts of
records that obey the laws are read back by each of them. -/
namespace SeriesClient.Export.Csv

inductive Mode where
  | fresh
  | bare
  | quoted
  /-- After a quote inside quotes: the closing one, or half of a doubled one. -/
  | closing
deriving DecidableEq, Repr

/-- What has been read: whole records, whole fields of the next one, and a part of a field. -/
structure Reading where
  records : List (List Bytes) := []
  fields : List Bytes := []
  field : Bytes := []
  mode : Mode := .fresh
deriving DecidableEq, Repr

namespace Reading

def take (mode : Mode) (b : UInt8) (reading : Reading) : Reading :=
  { reading with field := reading.field ++ [b], mode }

/-- The field at hand ends at a byte that can end one. -/
def endField (delimiter b : UInt8) (reading : Reading) : Option Reading :=
  let fields := reading.fields ++ [reading.field]
  if b = delimiter then some { reading with fields, field := [], mode := .fresh }
  else if b = lineFeed then some { records := reading.records ++ [fields] }
  else none

/-- A byte outside quotes. -/
def plain (delimiter b : UInt8) (reading : Reading) : Option Reading :=
  if b = delimiter ∨ b = lineFeed then reading.endField delimiter b
  else if b = quote ∨ b = carriageReturn then none
  else some (reading.take .bare b)

def step (skipsBlank : Bool) (delimiter : UInt8) (reading : Reading) (b : UInt8) :
    Option Reading :=
  match reading.mode with
  | .quoted =>
    if b = quote then some { reading with mode := .closing } else some (reading.take .quoted b)
  | .closing =>
    if b = quote then some (reading.take .quoted b) else reading.endField delimiter b
  | .bare => reading.plain delimiter b
  | .fresh =>
    if b = quote then some { reading with mode := .quoted }
    else if skipsBlank ∧ b = lineFeed ∧ reading.fields = [] then some reading
    else reading.plain delimiter b

end Reading

/-- The records of a text, if it is one of delimited records. -/
def readRecords (skipsBlank : Bool) (delimiter : UInt8) (text : Bytes) :
    Option (List (List Bytes)) :=
  match text.foldlM (Reading.step skipsBlank delimiter) {} with
  | some { records, fields := [], mode := .fresh, .. } => some records
  | _ => none

namespace Reading
variable {skipsBlank : Bool} {delimiter : UInt8}

/-- Doubled quotes are read as one, other bytes as they are. -/
theorem foldlM_doubled (field : Bytes) {reading : Reading} (inside : reading.mode = .quoted) :
    (doubled field).foldlM (step skipsBlank delimiter) reading =
      some { reading with field := reading.field ++ field } := by
  induction field generalizing reading with
  | nil => simp [doubled]
  | cons b field ih =>
    rw [doubled, List.flatMap_cons, ← doubled, List.foldlM_append]
    by_cases same : b = quote <;> simp [same, step, inside, take, ih]

/-- Outside quotes a byte that calls for none is read as it is. -/
theorem step_needless {b : UInt8} (needless : needsQuotes delimiter [b] = false)
    {reading : Reading} (outside : reading.mode = .fresh ∨ reading.mode = .bare) :
    reading.step skipsBlank delimiter b = some (reading.take .bare b) := by
  simp only [needsQuotes, List.any_cons, List.any_nil, Bool.or_false, Bool.or_eq_false_iff,
    beq_eq_false_iff_ne] at needless
  rcases outside with fresh | bare
  · simp [step, plain, fresh, needless]
  · simp [step, plain, bare, needless]

theorem foldlM_needless {field : Bytes} (needless : needsQuotes delimiter field = false)
    (some : field ≠ []) {reading : Reading}
    (outside : reading.mode = .fresh ∨ reading.mode = .bare) :
    field.foldlM (step skipsBlank delimiter) reading =
      .some { reading with field := reading.field ++ field, mode := .bare } := by
  induction field generalizing reading with
  | nil => exact absurd rfl some
  | cons b field ih =>
    have apart : needsQuotes delimiter [b] = false ∧ needsQuotes delimiter field = false := by
      simpa [needsQuotes, and_assoc] using needless
    rw [List.foldlM_cons, step_needless apart.1 outside]
    by_cases last : field = []
    · simp [last, take]
    · simp [ih apart.2 last, take]

/-- How a reader stands behind a field: it waits for the end of the field. -/
def behind (delimiter : UInt8) (field : Bytes) : Mode :=
  if needsQuotes delimiter field then .closing else if field = [] then .fresh else .bare

theorem eq_nil_of_fresh {field : Bytes} (fresh : behind delimiter field = .fresh) :
    field = [] := by
  rw [behind] at fresh
  split at fresh
  · cases fresh
  · split at fresh
    · assumption
    · cases fresh

theorem step_delimiter (outside : delimiter ≠ quote ∧ delimiter ≠ lineFeed) {mode : Mode}
    (ends : mode ≠ .quoted) (records : List (List Bytes)) (fields : List Bytes) (field : Bytes) :
    step skipsBlank delimiter ⟨records, fields, field, mode⟩ delimiter =
      some ⟨records, fields ++ [field], [], .fresh⟩ := by
  cases mode <;> simp_all [step, plain, endField]

theorem step_lineFeed (other : delimiter ≠ lineFeed) {mode : Mode} (ends : mode ≠ .quoted)
    {fields : List Bytes} (some : mode = .fresh → fields ≠ []) (records : List (List Bytes))
    (field : Bytes) :
    step skipsBlank delimiter ⟨records, fields, field, mode⟩ lineFeed =
      .some { records := records ++ [fields ++ [field]] } := by
  have apart : lineFeed ≠ quote := by decide
  cases mode <;> simp_all [step, plain, endField, other.symm]

theorem behind_ne_quoted (delimiter : UInt8) (field : Bytes) :
    behind delimiter field ≠ .quoted := by
  rw [behind]
  split
  · decide
  · split <;> decide

section Laws
variable {entry : Bytes → Bytes} {record : List Bytes → Bytes}
  (laws : RecordLaws delimiter entry record)
include laws

theorem entry_of_needless {field : Bytes} (needless : ¬ needsQuotes delimiter field = true) :
    entry field = field := by
  rw [needsQuotes_iff] at needless
  exact laws.bare field fun b found special => needless ⟨b, found, special⟩

theorem foldlM_entry (records : List (List Bytes)) (fields : List Bytes) (field : Bytes) :
    (entry field).foldlM (step skipsBlank delimiter) ⟨records, fields, [], .fresh⟩ =
      some ⟨records, fields, field, behind delimiter field⟩ := by
  rw [behind]
  split
  · rename_i needed
    have entered : step skipsBlank delimiter ⟨records, fields, [], .fresh⟩ quote =
        some ⟨records, fields, [], .quoted⟩ := by simp [step]
    rw [laws.quoted field (needsQuotes_iff.mp needed), List.cons_append, List.foldlM_cons, entered]
    change (doubled field ++ [quote]).foldlM _ _ = _
    rw [List.foldlM_append, foldlM_doubled field rfl]
    rfl
  · rename_i needless
    rw [entry_of_needless laws needless]
    rw [Bool.not_eq_true] at needless
    by_cases none : field = []
    · rw [none]
      rfl
    · rw [if_neg none, foldlM_needless needless none (.inl rfl)]
      rfl

/-- Only a field without a byte leaves no trace. -/
theorem entry_eq_nil_iff {field : Bytes} : entry field = [] ↔ field = [] := by
  by_cases needed : needsQuotes delimiter field = true
  · rw [laws.quoted field (needsQuotes_iff.mp needed)]
    refine iff_of_false (List.cons_ne_nil _ _) ?_
    rintro rfl
    cases needed
  · rw [entry_of_needless laws needed]

/-- From behind a field to the end of its record. -/
theorem foldlM_rest (outside : delimiter ≠ quote ∧ delimiter ≠ lineFeed) {mode : Mode}
    (ends : mode ≠ .quoted) (rest : List Bytes) {fields : List Bytes}
    (some : mode = .fresh → fields ≠ [] ∨ rest ≠ []) (records : List (List Bytes))
    (field : Bytes) :
    (rest.flatMap (fun other => delimiter :: entry other) ++ [lineFeed]).foldlM
        (step skipsBlank delimiter) ⟨records, fields, field, mode⟩ =
      .some { records := records ++ [fields ++ field :: rest] } := by
  induction rest generalizing mode fields field with
  | nil =>
    simp only [ne_eq, not_true_eq_false, or_false] at some
    simp [step_lineFeed outside.2 ends some]
  | cons next rest ih =>
    rw [List.flatMap_cons, List.append_assoc, List.cons_append, List.foldlM_cons,
      step_delimiter outside ends]
    change (entry next ++ _).foldlM _ _ = _
    rw [List.foldlM_append, foldlM_entry laws]
    have others := ih (behind_ne_quoted delimiter next)
      (fun _ => .inl (List.concat_ne_nil field fields)) next
    exact others.trans (by simp)

theorem foldlM_record (outside : delimiter ≠ quote ∧ delimiter ≠ lineFeed)
    {fields : List Bytes} (some : fields ≠ []) (records : List (List Bytes)) :
    (record fields).foldlM (step skipsBlank delimiter) { records } =
      .some { records := records ++ [fields] } := by
  obtain ⟨field, rest, rfl⟩ := List.exists_cons_of_ne_nil some
  have line : [delimiter].intercalate ((field :: rest).map entry) =
      entry field ++ rest.flatMap fun other => delimiter :: entry other := by
    rw [List.map_cons, intercalate_cons, List.flatMap_map]
    rfl
  by_cases blank : [delimiter].intercalate ((field :: rest).map entry) = []
  · rw [laws.blank _ blank]
    rw [line, List.append_eq_nil_iff] at blank
    obtain ⟨empty, alone⟩ := blank
    obtain rfl : rest = [] := by cases rest <;> simp_all
    obtain rfl := (entry_eq_nil_iff laws).mp empty
    have other : lineFeed ≠ quote := by decide
    simp [step, endField, other, outside.2.symm]
  · rw [laws.filled _ blank, line, List.append_assoc, List.foldlM_append, foldlM_entry laws]
    refine foldlM_rest laws outside (behind_ne_quoted delimiter field) rest ?_ records field
    intro fresh
    refine .inr fun none => blank ?_
    rw [line, none, (entry_eq_nil_iff laws).mpr (eq_nil_of_fresh fresh)]
    rfl

theorem foldlM_records (outside : delimiter ≠ quote ∧ delimiter ≠ lineFeed)
    {records : List (List Bytes)} (some : ∀ fields ∈ records, fields ≠ [])
    (before : List (List Bytes)) :
    (records.flatMap record).foldlM (step skipsBlank delimiter) { records := before } =
      .some { records := before ++ records } := by
  induction records generalizing before with
  | nil => simp
  | cons fields records ih =>
    rw [List.forall_mem_cons] at some
    rw [List.flatMap_cons, List.foldlM_append, foldlM_record laws outside some.1]
    exact (ih some.2 (before ++ [fields])).trans (by simp)

end Laws
end Reading

/-- What is written as records, by the laws of their texts, is read as the same records. -/
theorem readRecords_texts (skipsBlank : Bool) {delimiter : UInt8} {entry : Bytes → Bytes}
    {record : List Bytes → Bytes} (laws : RecordLaws delimiter entry record)
    (outside : delimiter ≠ quote ∧ delimiter ≠ lineFeed) {records : List (List Bytes)}
    (some : ∀ fields ∈ records, fields ≠ []) :
    readRecords skipsBlank delimiter (records.flatMap record) = .some records := by
  rw [readRecords, Reading.foldlM_records laws outside some]
  rfl

/-- The line of two quotes is a record of one empty field, which a blank line would not be. -/
example : readRecords true 44 [34, 34, 10, 97, 44, 34, 44, 34, 34, 34, 10] =
    some [[[]], [[97], [44, 34]]] := by
  decide

end SeriesClient.Export.Csv
