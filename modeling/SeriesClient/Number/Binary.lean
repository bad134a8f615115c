/-! IEEE binary floats by their bits. No bit pattern is altered: payloads of values that are not
numbers, and the sign of zero, are kept. -/
namespace SeriesClient

structure Binary32 where
  bits : UInt32
deriving DecidableEq, Repr

structure Binary64 where
  bits : UInt64
deriving DecidableEq, Repr

namespace Number

/-- Widths of the fraction and of the exponent; the sign is the bit above both. -/
structure Format where
  fractionBits : Nat
  exponentBits : Nat
deriving DecidableEq, Repr

def single : Format := ⟨23, 8⟩

def double : Format := ⟨52, 11⟩

/-- What a bit pattern stands for. A finite one is `significand * 2 ^ exponent`; it is `edge` when
the next smaller pattern is only half as far away as the next larger one. -/
inductive Datum where
  | nan
  | infinite (negative : Bool)
  | finite (negative : Bool) (significand : Nat) (exponent : Int) (edge : Bool)
deriving DecidableEq, Repr

namespace Format

/-- Exponent of the smallest step between two values of the format. -/
def leastExponent (format : Format) : Int :=
  2 - (1 <<< (format.exponentBits - 1) : Nat) - format.fractionBits

def datum (format : Format) (bits : Nat) : Datum :=
  let hidden := 1 <<< format.fractionBits
  let binades := 1 <<< format.exponentBits
  let fraction := bits % hidden
  let biased := bits / hidden % binades
  let negative := bits / hidden / binades % 2 = 1
  if biased = binades - 1 then
    if fraction = 0 then .infinite negative else .nan
  else if biased = 0 then .finite negative fraction format.leastExponent false
  else .finite negative (hidden + fraction) (format.leastExponent + (biased - 1))
    (fraction = 0 && 1 < biased)

end Format

namespace Datum

def isNaN : Datum → Bool
  | nan => true
  | _ => false

def isZero : Datum → Bool
  | finite _ significand _ _ => significand = 0
  | _ => false

end Datum
end Number

namespace Binary32

def datum (x : Binary32) : Number.Datum := Number.single.datum x.bits.toNat

/-- Equality of numbers: the two zeros are equal, and what is not a number equals nothing. -/
def numEq (x y : Binary32) : Bool :=
  !x.datum.isNaN && !y.datum.isNaN && (x == y || x.datum.isZero && y.datum.isZero)

end Binary32

namespace Binary64

def datum (x : Binary64) : Number.Datum := Number.double.datum x.bits.toNat

/-- Equality of numbers: the two zeros are equal, and what is not a number equals nothing. -/
def numEq (x y : Binary64) : Bool :=
  !x.datum.isNaN && !y.datum.isNaN && (x == y || x.datum.isZero && y.datum.isZero)

end Binary64
end SeriesClient
