import SeriesClient.Calendar
import SeriesClient.Error

/-! Timestamps as text: milliseconds since 1970 as an RFC 3339 date and time in UTC. -/
namespace SeriesClient.Export

/-- Decimal digits with zeros in front up to a width. -/
def padded (width n : Nat) : List Char :=
  let digits := Nat.toDigits 10 n
  List.replicate (width - digits.length) '0' ++ digits

/-- The part of a second, without trailing zeros; a whole second has none. -/
def fraction (nanoseconds : Nat) : List Char :=
  if nanoseconds = 0 then []
  else '.' :: ((padded 9 nanoseconds).reverse.dropWhile (· == '0')).reverse

/-- Text of a moment in a year from 0 to 9999, given in nanoseconds since 1970. -/
def dateTime (nanoseconds : Int) : List Char :=
  let seconds := nanoseconds / 1000000000
  let date := Date.ofDays (seconds / 86400)
  let secondOfDay := (seconds % 86400).toNat
  padded 4 date.year.toNat ++ '-' :: padded 2 date.month ++ '-' :: padded 2 date.day ++
    'T' :: padded 2 (secondOfDay / 3600) ++ ':' :: padded 2 (secondOfDay / 60 % 60) ++
    ':' :: padded 2 (secondOfDay % 60) ++ fraction (nanoseconds % 1000000000).toNat ++ ['Z']

/-- First second of the year -9999 and last second of the year 9999. -/
def firstSecond : Int := -377705116800

def lastSecond : Int := 253402300799

/-- First second of the year 0, the first that has a text. -/
def firstTextSecond : Int := -62167219200

/-- Nanoseconds since 1970. The product is one of words of 128 bits. -/
def nanoseconds (timestamp : Int64) : BitVec 128 := BitVec.ofInt 128 timestamp.toInt * 1000000

theorem toInt_nanoseconds (timestamp : Int64) :
    (nanoseconds timestamp).toInt = timestamp.toInt * 1000000 := by
  have low := timestamp.le_toInt
  have high := timestamp.toInt_lt
  have factor : (1000000 : BitVec 128).toInt = 1000000 := by decide
  rw [nanoseconds, BitVec.toInt_mul, BitVec.toInt_ofInt, factor, Int.bmod_mul_bmod]
  exact Int.bmod_eq_of_le (by omega) (by omega)

def rfc3339 (timestamp : Int64) : Except SinkFault String :=
  let moment := (nanoseconds timestamp).toInt
  let seconds := moment / 1000000000
  if seconds < firstSecond || lastSecond < seconds then .error (.timestampOutOfRange timestamp)
  else if seconds < firstTextSecond then .error (.yearNotFormattable timestamp)
  else .ok (String.ofList (dateTime moment))

end SeriesClient.Export
