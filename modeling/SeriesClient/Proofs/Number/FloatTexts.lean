import SeriesClient.Proofs.Number.Numerals
import SeriesClient.Value

/-! Texts of floats, by laws: a sign, and the shortest decimal that is read as the float, in some
notation; names for infinities and for what is no number. The laws leave no choice, so that texts
which obey them may stand for one another. Values are displayed, and written in fields, by texts
that obey them. -/
namespace SeriesClient
namespace Number

/-- The laws of a writer of floats. -/
structure WritesFloats {α : Type} (format : Format) (tie : Tie) (notate : Decimal → String)
    (bits : α → Nat) (text : α → String) : Prop where
  finite : ∀ x, format.IsFinite (bits x) → ∃ d, IsShortest tie format (bits x) d ∧
    text x = (if format.isNegative (bits x) then "-" else "") ++ notate d
  infinite : ∀ x, ¬ format.IsFinite (bits x) → format.fraction (bits x) = 0 →
    text x = if format.isNegative (bits x) then "-inf" else "inf"
  nan : ∀ x, ¬ format.IsFinite (bits x) → format.fraction (bits x) ≠ 0 → text x = "NaN"

theorem WritesFloats.unique {α : Type} {format : Format} {tie : Tie} {notate : Decimal → String}
    {bits : α → Nat} {text other : α → String}
    (first : WritesFloats format tie notate bits text)
    (second : WritesFloats format tie notate bits other) : text = other := by
  funext x
  by_cases finite : format.IsFinite (bits x)
  · obtain ⟨d, shortest, written⟩ := first.finite x finite
    obtain ⟨d', shortest', written'⟩ := second.finite x finite
    rw [written, written', shortest.unique shortest']
  · by_cases empty : format.fraction (bits x) = 0
    · rw [first.infinite x finite empty, second.infinite x finite empty]
    · rw [first.nan x finite empty, second.nan x finite empty]

/-- Each text is a numeral, of a number that is read as the float. -/
def ReadBack {α : Type} (format : Format) (bits : α → Nat) (text : α → String) : Prop :=
  ∀ x, format.IsFinite (bits x) → ∃ number, format.ReadsAs (bits x) number ∧
    readSigned (text x) = some (if format.isNegative (bits x) then -number else number)

theorem WritesFloats.readBack {α : Type} {format : Format} {tie : Tie} {notate : Decimal → String}
    {bits : α → Nat} {text : α → String} (writes : WritesFloats format tie notate bits text)
    (notated : ∀ d, readNumeral (notate d).toList = some d.value) :
    ReadBack format bits text := by
  intro x finite
  obtain ⟨d, shortest, written⟩ := writes.finite x finite
  refine ⟨d.value, shortest.reads, ?_⟩
  rw [written]
  exact readSigned_numeral (notated d) _

theorem Style.writesFloats {α : Type} (style : Style) {format : Format}
    {notate : Decimal → String} (bits : α → Nat)
    (width : 0 < format.fractionBits ∧ format.fractionBits ≤ 52)
    (same : ∀ d : Decimal, d.Lowest → String.ofList (style.decimal d) = notate d) :
    WritesFloats format style.tie notate bits fun x => style.text (format.datum (bits x)) := by
  constructor
  case finite =>
    intro x finite
    obtain ⟨significand, exponent, edge, scaled, datum⟩ :=
      Format.datum_of_finite width.1 finite
    have shortest := shortest_isShortest style.tie width.2 scaled
    refine ⟨_, shortest, ?_⟩
    rw [datum, text, ← same _ shortest.lowest]
    cases format.isNegative (bits x) with
    | true =>
      change String.ofList (['-'] ++ _) = String.ofList ['-'] ++ _
      exact String.ofList_append
    | false => exact String.empty_append.symm
  case infinite =>
    intro x infinite empty
    rw [Format.datum_of_infinite infinite empty]
    rfl
  case nan =>
    intro x infinite some
    rw [Format.datum_of_nan infinite some]
    rfl

end Number

open Number

/-- A text for each float of either width. -/
structure FloatTexts where
  single : Binary32 → String
  double : Binary64 → String

namespace FloatTexts

/-- Texts for people: no exponents, and a half goes up. -/
structure Plain (texts : FloatTexts) : Prop where
  single : WritesFloats Number.single .up Decimal.plain (·.bits.toNat) texts.single
  double : WritesFloats Number.double .up Decimal.plain (·.bits.toNat) texts.double

/-- Texts for data files: exponents for the very small and the very great, a half goes to the even
neighbour. -/
structure Delimited (texts : FloatTexts) : Prop where
  single : WritesFloats Number.single .even (Decimal.delimited (-6) 12) (·.bits.toNat) texts.single
  double : WritesFloats Number.double .even (Decimal.delimited (-5) 15) (·.bits.toNat) texts.double

theorem Plain.unique {texts other : FloatTexts} (first : texts.Plain) (second : other.Plain) :
    texts = other := by
  obtain ⟨single, double⟩ := texts
  obtain ⟨single', double'⟩ := other
  exact congrArg₂ FloatTexts.mk (first.single.unique second.single)
    (first.double.unique second.double)

theorem Delimited.unique {texts other : FloatTexts} (first : texts.Delimited)
    (second : other.Delimited) : texts = other := by
  obtain ⟨single, double⟩ := texts
  obtain ⟨single', double'⟩ := other
  exact congrArg₂ FloatTexts.mk (first.single.unique second.single)
    (first.double.unique second.double)

theorem Plain.readBack {texts : FloatTexts} (plain : texts.Plain) :
    ReadBack Number.single (·.bits.toNat) texts.single ∧
      ReadBack Number.double (·.bits.toNat) texts.double :=
  ⟨plain.single.readBack Decimal.readNumeral_plain,
    plain.double.readBack Decimal.readNumeral_plain⟩

theorem Delimited.readBack {texts : FloatTexts} (delimited : texts.Delimited) :
    ReadBack Number.single (·.bits.toNat) texts.single ∧
      ReadBack Number.double (·.bits.toNat) texts.double :=
  ⟨delimited.single.readBack (Decimal.readNumeral_delimited _ _),
    delimited.double.readBack (Decimal.readNumeral_delimited _ _)⟩

/-- The texts of the display style. -/
def display : FloatTexts where
  single x := Value.displayStyle.text x.datum
  double x := Value.displayStyle.text x.datum

/-- The texts of the field styles. -/
def field : FloatTexts where
  single x := (Value.fieldStyle Value.singleSpan).text x.datum
  double x := (Value.fieldStyle Value.doubleSpan).text x.datum

theorem display_plain : display.Plain where
  single := Value.displayStyle.writesFloats _ (by decide) fun _ => Style.decimal_plain rfl rfl
  double := Value.displayStyle.writesFloats _ (by decide) fun _ => Style.decimal_plain rfl rfl

theorem fieldStyle_writesFloats {α : Type} {format : Format} (span : Span) (bits : α → Nat)
    (width : 0 < format.fractionBits ∧ format.fractionBits ≤ 52) :
    WritesFloats format .even (Decimal.delimited span.least span.greatest) bits
      fun x => (Value.fieldStyle span).text (format.datum (bits x)) :=
  (Value.fieldStyle span).writesFloats bits width fun _ => Style.decimal_delimited rfl rfl rfl

theorem field_delimited : field.Delimited where
  single := fieldStyle_writesFloats Value.singleSpan _ (by decide)
  double := fieldStyle_writesFloats Value.doubleSpan _ (by decide)

end FloatTexts

namespace Value

/-- The text of a value: what it says, its decimal digits, or the text of a float. -/
def textBy (texts : FloatTexts) : Value → String
  | boolean true => "true"
  | boolean false => "false"
  | integer n => toString n.toInt
  | long n => toString n.toInt
  | float x => texts.single x
  | double x => texts.double x
  | binary text => text

theorem display_eq_textBy {texts : FloatTexts} (plain : texts.Plain) (value : Value) :
    value.display = value.textBy texts := by
  obtain rfl := FloatTexts.display_plain.unique plain
  rcases value with (_ | _) | _ | _ | _ | _ | _ <;> rfl

theorem field_eq_textBy {texts : FloatTexts} (delimited : texts.Delimited) (value : Value) :
    value.field = value.textBy texts := by
  obtain rfl := FloatTexts.field_delimited.unique delimited
  rcases value with (_ | _) | _ | _ | _ | _ | _ <;> rfl

end Value
end SeriesClient
