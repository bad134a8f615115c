import Mathlib.Data.List.TakeWhile
import SeriesClient.Proofs.Calendar
import SeriesClient.Proofs.Export.Csv.Ledger

/-! Dates and times of RFC 3339 in UTC, read back. A reader takes their text apart and counts the
milliseconds by the rules of the calendar. By the laws of their texts, which the texts here obey, a
timestamp that has a text is what the reader finds. -/
namespace SeriesClient.Export
open Csv Number

/-- A time of a day in UTC. -/
structure Moment where
  date : Date
  hour : Nat
  minute : Nat
  second : Nat
  /-- Of the second, how much is over. -/
  part : ℚ

namespace Moment

/-- The days counted here have no leap seconds. -/
structure Valid (moment : Moment) : Prop where
  date : moment.date.Valid
  hour : moment.hour < 24
  minute : moment.minute < 60
  second : moment.second < 60

instance (moment : Moment) : Decidable moment.Valid :=
  decidable_of_iff
    (moment.date.Valid ∧ moment.hour < 24 ∧ moment.minute < 60 ∧ moment.second < 60)
    ⟨fun ⟨date, hour, minute, second⟩ => ⟨date, hour, minute, second⟩,
      fun valid => ⟨valid.date, valid.hour, valid.minute, valid.second⟩⟩

/-- Milliseconds since 1970. -/
def milliseconds (moment : Moment) : ℚ :=
  1000 * ((86400 * moment.date.count + 3600 * moment.hour + 60 * moment.minute + moment.second : ℤ)
    + moment.part)

/-- The text up to the part of the second. -/
def front (moment : Moment) : List Char :=
  fixed 4 moment.date.year.toNat ++ '-' :: fixed 2 moment.date.month ++ '-' ::
    fixed 2 moment.date.day ++ 'T' :: fixed 2 moment.hour ++ ':' :: fixed 2 moment.minute ++
    ':' :: fixed 2 moment.second

/-- The texts of a moment. Of a part of a second there are all digits but the zeros at the end. -/
inductive Written (moment : Moment) : List Char → Prop
  | whole (none : moment.part = 0) : Written moment (moment.front ++ ['Z'])
  | parted {digits : List Char} (some : digits ≠ [])
      (digit : ∀ c ∈ digits, c.isDigit = true) (trimmed : digits.getLast? ≠ .some '0')
      (part : moment.part = Nat.ofDigitChars 10 digits 0 / 10 ^ digits.length) :
      Written moment (moment.front ++ '.' :: digits ++ ['Z'])

/-- Takes something off the front of a text. -/
abbrev Reading := StateT (List Char) Option

/-- So many decimal digits. -/
def number (width : Nat) : Reading Nat := fun text =>
  let digits := text.take width
  if digits.length = width ∧ digits.all Char.isDigit then
    some (Nat.ofDigitChars 10 digits 0, text.drop width)
  else none

def mark (sign : Char) : Reading Unit
  | [] => none
  | c :: text => if c = sign then some ((), text) else none

/-- A point and one digit or more, or nothing. -/
def partOfSecond : Reading ℚ
  | '.' :: text =>
    let digits := text.takeWhile Char.isDigit
    if digits = [] then none
    else some ((Nat.ofDigitChars 10 digits 0 / 10 ^ digits.length : ℚ), text.dropWhile Char.isDigit)
  | text => some (0, text)

def reading : Reading Moment := do
  let year ← number 4
  mark '-'
  let month ← number 2
  mark '-'
  let day ← number 2
  mark 'T'
  let hour ← number 2
  mark ':'
  let minute ← number 2
  mark ':'
  let second ← number 2
  let part ← partOfSecond
  mark 'Z'
  return ⟨⟨year, month, day⟩, hour, minute, second, part⟩

end Moment

/-- The milliseconds since 1970 that a text stands for, if it is a date and time in UTC. -/
def readDateTime (text : String) : Option ℚ :=
  match Moment.reading text.toList with
  | some (moment, []) => if moment.Valid then some moment.milliseconds else none
  | _ => none

/-- The laws of texts of timestamps. In the years from 0 to 9999 each has that of a moment of the
calendar, so many milliseconds from 1970; others are refused. -/
structure InstantLaws {ε : Type} (text : Int64 → Except ε String) : Prop where
  shown : ∀ timestamp, Representable timestamp → ∃ moment : Moment, ∃ written,
    moment.Valid ∧ 0 ≤ moment.date.year ∧ moment.date.year ≤ 9999 ∧
    moment.milliseconds = timestamp.toInt ∧ moment.Written written ∧
    text timestamp = .ok (String.ofList written)
  refused : ∀ timestamp, ¬ Representable timestamp → ∃ fault, text timestamp = .error fault

section Digits

theorem length_padded {width n : Nat} (fits : n < 10 ^ width) (some : 0 < width) :
    (padded width n).length = width := by
  have short := (Nat.length_toDigits_le_iff (by decide) some).mpr fits
  rw [padded, List.length_append, List.length_replicate]
  omega

theorem isDigit_padded {width n : Nat} {c : Char} (found : c ∈ padded width n) :
    c.isDigit = true := by
  rcases List.mem_append.mp found with zero | digit
  · rw [List.eq_of_mem_replicate zero]
    rfl
  · exact Nat.isDigit_of_mem_toDigits (by decide) (by decide) digit

theorem ofDigitChars_padded (width n : Nat) : Nat.ofDigitChars 10 (padded width n) 0 = n := by
  rw [padded, Nat.ofDigitChars_append, Nat.ofDigitChars_replicate_zero, Nat.mul_zero,
    Nat.ofDigitChars_ten_toDigits]

theorem padded_eq_fixed {width n : Nat} (fits : n < 10 ^ width) (some : 0 < width) :
    padded width n = fixed width n := (fixed_of_lt some fits).symm

theorem number_fixed {width n : Nat} (fits : n < 10 ^ width) (some : 0 < width)
    (rest : List Char) : Moment.number width (fixed width n ++ rest) = .some (n, rest) := by
  have digits : (padded width n).all Char.isDigit = true :=
    List.all_eq_true.mpr fun _ => isDigit_padded
  have length := length_padded fits some
  rw [← padded_eq_fixed fits some, Moment.number, List.take_left' length, List.drop_left' length,
    ofDigitChars_padded]
  exact if_pos ⟨length, digits⟩

/-- Zeros at the end of digits can be taken away and put back. -/
theorem exists_trimmed (digits : List Char) : ∃ zeros,
    digits = (digits.reverse.dropWhile (· == '0')).reverse ++ List.replicate zeros '0' := by
  have zeros : digits.reverse.takeWhile (· == '0') =
      List.replicate (digits.reverse.takeWhile (· == '0')).length '0' :=
    List.eq_replicate_iff.mpr ⟨rfl, fun c found => by simpa using List.mem_takeWhile_imp found⟩
  refine ⟨(digits.reverse.takeWhile (· == '0')).length, ?_⟩
  calc digits
    _ = (digits.reverse.takeWhile (· == '0') ++ digits.reverse.dropWhile (· == '0')).reverse := by
      rw [List.takeWhile_append_dropWhile, List.reverse_reverse]
    _ = (digits.reverse.dropWhile (· == '0')).reverse ++
        (digits.reverse.takeWhile (· == '0')).reverse := List.reverse_append
    _ = _ := by rw [zeros, List.reverse_replicate, List.length_replicate]

/-- Digits up to a letter, behind a point, are a part of a second. -/
theorem partOfSecond_digits {digits : List Char} (some : digits ≠ [])
    (digit : ∀ c ∈ digits, c.isDigit = true) :
    Moment.partOfSecond ('.' :: digits ++ ['Z']) =
      .some ((Nat.ofDigitChars 10 digits 0 / 10 ^ digits.length : ℚ), ['Z']) := by
  have taken : (digits ++ ['Z']).takeWhile Char.isDigit = digits := by
    rw [List.takeWhile_append_of_pos digit]
    exact List.append_nil _
  have left : (digits ++ ['Z']).dropWhile Char.isDigit = ['Z'] := by
    rw [List.dropWhile_append_of_pos digit]
    rfl
  rw [List.cons_append, Moment.partOfSecond, taken, left]
  exact if_neg some

theorem bind_of_read {α β : Type} {read : Moment.Reading α} {next : α → Moment.Reading β}
    {text rest : List Char} {value : α} (first : read text = some (value, rest)) :
    (read >>= next) text = next value rest := by
  simp [bind, StateT.bind, first]

theorem bind_mark {β : Type} {next : Unit → Moment.Reading β} (sign : Char) (rest : List Char) :
    (Moment.mark sign >>= next) (sign :: rest) = next () rest :=
  bind_of_read (if_pos rfl)

end Digits

namespace Moment
variable {moment : Moment} (valid : moment.Valid)
  (year : 0 ≤ moment.date.year ∧ moment.date.year ≤ 9999)
include valid year

/-- What follows the front is read as a part of the second. -/
theorem reading_front {rest : List Char} {part : ℚ}
    (read : partOfSecond rest = some (part, ['Z'])) :
    reading (moment.front ++ rest) = some ({ moment with part }, []) := by
  have month := valid.date.month.2
  have day := valid.date.day.2.trans (Date.monthLength_le _ _)
  have hour := valid.hour
  have minute := valid.minute
  have second := valid.second
  have digits (width n : Nat) (fits : n < 10 ^ width) (some : 0 < width) (rest : List Char)
      {β : Type} (next : Nat → Reading β) :
      (number width >>= next) (fixed width n ++ rest) = next n rest :=
    bind_of_read (number_fixed fits some rest)
  simp only [front, List.append_assoc, List.cons_append, reading]
  rw [digits 4 _ (by omega) (by decide), bind_mark, digits 2 _ (by omega) (by decide), bind_mark,
    digits 2 _ (by omega) (by decide), bind_mark, digits 2 _ (by omega) (by decide), bind_mark,
    digits 2 _ (by omega) (by decide), bind_mark, digits 2 _ (by omega) (by decide),
    bind_of_read read, bind_mark, Int.toNat_of_nonneg year.1]
  rfl

theorem reading_written {text : List Char} (written : moment.Written text) :
    reading text = some (moment, []) := by
  cases written with
  | whole none =>
    have read : partOfSecond ['Z'] = some (0, ['Z']) := rfl
    rw [reading_front valid year read, ← none]
  | parted some digit trimmed part =>
    rw [List.append_assoc, reading_front valid year (partOfSecond_digits some digit), ← part]

/-- A text of a moment is read as its milliseconds. -/
theorem readDateTime_written {text : List Char} (written : moment.Written text) :
    readDateTime (String.ofList text) = some moment.milliseconds := by
  rw [readDateTime, String.toList_ofList, reading_written valid year written]
  exact if_pos valid

end Moment

/-- A text that obeys the laws is read as the timestamp that it was made of. -/
theorem InstantLaws.reads {ε : Type} {text : Int64 → Except ε String} (laws : InstantLaws text)
    {timestamp : Int64} {string : String} (shown : text timestamp = .ok string) :
    readDateTime string = some (timestamp.toInt : ℚ) := by
  by_cases within : Representable timestamp
  · obtain ⟨moment, written, valid, first, last, count, spelled, same⟩ :=
      laws.shown timestamp within
    obtain rfl := Except.ok.inj (shown.symm.trans same)
    rw [Moment.readDateTime_written valid ⟨first, last⟩ spelled, count]
  · obtain ⟨fault, refused⟩ := laws.refused timestamp within
    rw [shown] at refused
    cases refused

theorem InstantLaws.ok_iff {ε : Type} {text : Int64 → Except ε String} (laws : InstantLaws text)
    (timestamp : Int64) : (∃ string, text timestamp = .ok string) ↔ Representable timestamp := by
  constructor
  · rintro ⟨string, shown⟩
    by_contra beyond
    obtain ⟨fault, refused⟩ := laws.refused timestamp beyond
    rw [shown] at refused
    cases refused
  · intro within
    obtain ⟨_, written, -, -, -, -, -, shown⟩ := laws.shown timestamp within
    exact ⟨_, shown⟩

/-- The moment so many nanoseconds from the beginning of 1970. -/
def Moment.ofNanoseconds (nanoseconds : Int) : Moment where
  date := Date.ofDays (nanoseconds / 1000000000 / 86400)
  hour := (nanoseconds / 1000000000 % 86400).toNat / 3600
  minute := (nanoseconds / 1000000000 % 86400).toNat / 60 % 60
  second := (nanoseconds / 1000000000 % 86400).toNat % 60
  part := (nanoseconds % 1000000000).toNat / 1000000000

section Nanoseconds

theorem valid_ofNanoseconds (nanoseconds : Int) : (Moment.ofNanoseconds nanoseconds).Valid := by
  have hour : (nanoseconds / 1000000000 % 86400).toNat / 3600 < 24 := by omega
  exact ⟨Date.valid_ofDays _, hour, Nat.mod_lt _ (by decide), Nat.mod_lt _ (by decide)⟩

/-- Of a part of a second all digits are kept but the zeros at the end. -/
theorem exists_fraction {nanoseconds : Nat} (some : nanoseconds ≠ 0)
    (within : nanoseconds < 1000000000) : ∃ digits, fraction nanoseconds = '.' :: digits ∧
      digits ≠ [] ∧ (∀ c ∈ digits, c.isDigit = true) ∧ digits.getLast? ≠ .some '0' ∧
      (nanoseconds / 1000000000 : ℚ) = Nat.ofDigitChars 10 digits 0 / 10 ^ digits.length := by
  obtain ⟨zeros, split⟩ := exists_trimmed (padded 9 nanoseconds)
  refine ⟨_, if_neg some, ?_⟩
  have trimmed : ((padded 9 nanoseconds).reverse.dropWhile (· == '0')).reverse.getLast? ≠
      .some '0' := by
    rw [List.getLast?_reverse]
    intro zero
    have := List.head?_dropWhile_not (· == '0') (padded 9 nanoseconds).reverse
    simp [zero] at this
  generalize ((padded 9 nanoseconds).reverse.dropWhile (· == '0')).reverse = kept at *
  have nine : (padded 9 nanoseconds).length = 9 := length_padded (by omega) (by decide)
  have length := congrArg List.length split
  have value := congrArg (Nat.ofDigitChars 10 · 0) split
  simp only [nine, List.length_append, List.length_replicate] at length
  simp only [ofDigitChars_padded, Nat.ofDigitChars_append, Nat.ofDigitChars_replicate_zero] at value
  refine ⟨?_, fun c found => isDigit_padded (split ▸ List.mem_append_left _ found), trimmed, ?_⟩
  · rintro rfl
    exact some value
  · have scale : (10 : ℚ) ^ kept.length * 10 ^ zeros = 1000000000 := by
      rw [← pow_add, ← length]
      norm_num
    rw [value, ← scale]
    push_cast
    field_simp

/-- In the years from 0 to 9999. -/
theorem written_dateTime {nanoseconds : Int}
    (within : -719528 ≤ nanoseconds / 1000000000 / 86400 ∧
      nanoseconds / 1000000000 / 86400 ≤ 2932896) :
    (Moment.ofNanoseconds nanoseconds).Written (dateTime nanoseconds) := by
  have year := Date.year_ofDays within
  have valid := Date.valid_ofDays (nanoseconds / 1000000000 / 86400)
  have day := valid.day.2.trans (Date.monthLength_le _ _)
  have month := valid.month.2
  have front : dateTime nanoseconds = (Moment.ofNanoseconds nanoseconds).front ++
      fraction (nanoseconds % 1000000000).toNat ++ ['Z'] := by
    simp only [dateTime, Moment.front, Moment.ofNanoseconds, List.append_assoc, List.cons_append]
    rw [padded_eq_fixed (by omega) (by decide), padded_eq_fixed (by omega) (by decide),
      padded_eq_fixed (by omega) (by decide), padded_eq_fixed (by omega) (by decide),
      padded_eq_fixed (by omega) (by decide), padded_eq_fixed (by omega) (by decide)]
  rw [front]
  by_cases whole : (nanoseconds % 1000000000).toNat = 0
  · rw [whole, fraction, if_pos rfl, List.append_nil]
    exact .whole (by simp [Moment.ofNanoseconds, whole])
  · obtain ⟨digits, written, some, digit, trimmed, part⟩ := exists_fraction whole (by omega)
    rw [written]
    exact .parted some digit trimmed part

theorem milliseconds_ofNanoseconds {nanoseconds : Int}
    (within : -719528 ≤ nanoseconds / 1000000000 / 86400 ∧
      nanoseconds / 1000000000 / 86400 ≤ 2932896) :
    (Moment.ofNanoseconds nanoseconds).milliseconds = (nanoseconds / 1000000 : ℚ) := by
  have count := Date.count_ofDays (Date.year_ofDays within).1
  rw [Moment.milliseconds, Moment.ofNanoseconds, count]
  have second : 86400 * (nanoseconds / 1000000000 / 86400) +
      3600 * ((nanoseconds / 1000000000 % 86400).toNat / 3600 : Nat) +
      60 * ((nanoseconds / 1000000000 % 86400).toNat / 60 % 60 : Nat) +
      ((nanoseconds / 1000000000 % 86400).toNat % 60 : Nat) = nanoseconds / 1000000000 := by omega
  have whole : (nanoseconds : ℚ) = 1000000000 * (nanoseconds / 1000000000 : Int) +
      (nanoseconds % 1000000000).toNat := by
    have split : nanoseconds = 1000000000 * (nanoseconds / 1000000000) +
        (nanoseconds % 1000000000).toNat := by omega
    exact_mod_cast split
  dsimp only
  rw [second, whole]
  ring

end Nanoseconds

/-- Milliseconds from 1970 to the beginning of a year. -/
def yearStart (year : Nat) : Int := 86400000 * ((daysBeforeYear year : Int) - daysBeforeYear 1970)

theorem representable_iff (timestamp : Int64) : Representable timestamp ↔
    yearStart 0 ≤ timestamp.toInt ∧ timestamp.toInt < yearStart 10000 := by
  have last := daysBeforeYear_eq 10000
  rw [Representable, yearStart, yearStart, daysBeforeYear_epoch, daysBeforeYear]
  omega

theorem rfc3339_of_representable {timestamp : Int64} (within : Representable timestamp) :
    rfc3339 timestamp =
      .ok (String.ofList (dateTime (timestamp.toInt * 1000000))) := by
  obtain ⟨text, shown⟩ := (rfc3339_ok_iff timestamp).mpr within
  simp only [rfc3339, toInt_nanoseconds] at shown ⊢
  split at shown
  · cases shown
  · next near =>
    split at shown
    · cases shown
    · next year => rw [if_neg near, if_neg year]

theorem rfc3339_laws : InstantLaws rfc3339 where
  shown timestamp within := by
    have ⟨low, high⟩ := within
    have days : -719528 ≤ timestamp.toInt * 1000000 / 1000000000 / 86400 ∧
        timestamp.toInt * 1000000 / 1000000000 / 86400 ≤ 2932896 := by omega
    have year := Date.year_ofDays days
    refine ⟨.ofNanoseconds (timestamp.toInt * 1000000), _, valid_ofNanoseconds _, year.1, year.2,
      ?_, written_dateTime days, rfc3339_of_representable within⟩
    rw [milliseconds_ofNanoseconds days]
    push_cast
    ring
  refused timestamp beyond := by
    rw [← rfc3339_ok_iff] at beyond
    cases refused : rfc3339 timestamp with
    | ok text => exact absurd ⟨text, refused⟩ beyond
    | error fault => exact ⟨fault, rfl⟩

/-- What becomes of a row with this timestamp in a session with times in this style. -/
structure WritesTime {δ : Type} [Destination δ] (sink : CsvSink δ) (timestamp : Int64)
    (cells : Row) : Prop where
  shown : Representable timestamp → ∃ text, rfc3339 timestamp = .ok text ∧
    sink.writeRow (some timestamp) cells =
      sink.writeRecord (Wire.Utf8.encode text :: cells.map CsvSink.cellField)
  refused : ¬ Representable timestamp → ∃ fault,
    sink.writeRow (some timestamp) cells = (.error (.sink fault), sink)

theorem timeFields_of_timed {δ : Type} {sink : CsvSink δ} (timed : sink.timed = true)
    (style : sink.format.timestamps = .rfc3339) (timestamp : Int64) :
    sink.timeFields (some timestamp) =
      (rfc3339 timestamp).map fun text => [Wire.Utf8.encode text] := by
  simp [CsvSink.timeFields, timed, style, TimestampStyle.text]

theorem writesTime {δ : Type} [Destination δ] {sink : CsvSink δ} (timed : sink.timed = true)
    (style : sink.format.timestamps = .rfc3339) (timestamp : Int64) {cells : Row}
    (width : cells.length = sink.columns) : WritesTime sink timestamp cells := by
  have time := timeFields_of_timed timed style timestamp
  refine ⟨fun within => ?_, fun beyond => ?_⟩
  · obtain ⟨text, shown⟩ := (rfc3339_laws.ok_iff timestamp).mpr within
    refine ⟨text, shown, ?_⟩
    rw [CsvSink.writeRow, if_neg (not_not_intro width), time, shown]
    rfl
  · obtain ⟨fault, refused⟩ := rfc3339_laws.refused timestamp beyond
    refine ⟨fault, ?_⟩
    rw [CsvSink.writeRow, if_neg (not_not_intro width), time, refused]
    rfl

/-- Every timestamp of the years from 0 to 9999 has a text, which is read as exactly this timestamp,
so no two have the same; all others are refused by the sink. The nanoseconds do not overflow. -/
theorem rfc3339_exact (timestamp : Int64) :
    (nanoseconds timestamp).toInt = timestamp.toInt * 1000000 ∧
    (Representable timestamp ↔
      yearStart 0 ≤ timestamp.toInt ∧ timestamp.toInt < yearStart 10000) ∧
    ((∃ text, TimestampStyle.rfc3339.text timestamp = .ok text) ↔ Representable timestamp) ∧
    (∀ text, TimestampStyle.rfc3339.text timestamp = .ok text →
      readDateTime text = some (timestamp.toInt : ℚ) ∧
      ∀ other, TimestampStyle.rfc3339.text other = .ok text → other = timestamp) ∧
    ∀ {δ : Type} [Destination δ] (sink : CsvSink δ) (cells : Row), sink.timed = true →
      sink.format.timestamps = .rfc3339 → cells.length = sink.columns →
      WritesTime sink timestamp cells := by
  refine ⟨toInt_nanoseconds timestamp, representable_iff timestamp, rfc3339_laws.ok_iff timestamp,
    ?_, fun sink cells timed style width => writesTime timed style timestamp width⟩
  intro text shown
  have read := rfc3339_laws.reads shown
  refine ⟨read, fun other same => ?_⟩
  have both := Option.some.inj ((rfc3339_laws.reads same).symm.trans read)
  exact Int64.toInt_inj.mp (by exact_mod_cast both)

/-- One millisecond before the epoch. -/
theorem eve_exact : TimestampStyle.rfc3339.text (-1) = .ok "1969-12-31T23:59:59.999Z" ∧
    readDateTime "1969-12-31T23:59:59.999Z" = some (-1) := by
  have shown : TimestampStyle.rfc3339.text (-1) = .ok "1969-12-31T23:59:59.999Z" := by rfl
  obtain ⟨-, -, -, read, -⟩ := rfc3339_exact (-1)
  exact ⟨shown, by simpa using (read _ shown).1⟩

end SeriesClient.Export
