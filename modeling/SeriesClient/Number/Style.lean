import SeriesClient.Number.Shortest

/-! How a decimal is written. A style fixes where positional notation ends, whether a whole number
keeps a point, and how the exponent is signed; the digits are those of the shortest decimal. -/
namespace SeriesClient.Number

/-- Decimal exponents, of the leading digit, that are written without an exponent. -/
structure Span where
  least : Int
  greatest : Int
deriving DecidableEq, Repr

def Span.contains (span : Span) (exponent : Int) : Bool :=
  span.least ≤ exponent && exponent ≤ span.greatest

structure Style where
  tie : Tie
  /-- Without a span every number is written positionally. -/
  positional : Option Span
  keepsPoint : Bool
  signsExponent : Bool
deriving DecidableEq, Repr

namespace Style

def zeros (count : Nat) : List Char := List.replicate count '0'

/-- The digits with a point after the first `whole` of them; zeros fill what is missing. -/
def pointed (style : Style) (digits : List Char) (whole : Int) : List Char :=
  if whole ≤ 0 then '0' :: '.' :: zeros (-whole).toNat ++ digits
  else if digits.length ≤ whole.toNat then
    digits ++ zeros (whole.toNat - digits.length) ++ (if style.keepsPoint then ['.', '0'] else [])
  else digits.take whole.toNat ++ '.' :: digits.drop whole.toNat

/-- One digit before the point, the others after it, then the exponent. -/
def scientific (style : Style) (digits : List Char) (exponent : Int) : List Char :=
  let mantissa := match digits with
    | first :: second :: others => first :: '.' :: second :: others
    | digits => digits
  let sign := if exponent < 0 then ['-'] else if style.signsExponent then ['+'] else []
  mantissa ++ 'e' :: sign ++ Nat.toDigits 10 exponent.natAbs

def decimal (style : Style) (d : Decimal) : List Char :=
  let digits := Nat.toDigits 10 d.coefficient
  let exponent := d.exponent + digits.length - 1
  if style.positional.all (·.contains exponent) then style.pointed digits (exponent + 1)
  else style.scientific digits exponent

/-- Text of any float; a value that is no number loses its sign. -/
def text (style : Style) : Datum → String
  | .nan => "NaN"
  | .infinite negative => if negative then "-inf" else "inf"
  | .finite negative significand exponent edge =>
    let body := style.decimal (shortest style.tie significand exponent edge)
    String.ofList (if negative then '-' :: body else body)

end Style
end SeriesClient.Number
