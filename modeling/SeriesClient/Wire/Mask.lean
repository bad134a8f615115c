import SeriesClient.Error
import SeriesClient.Wire.Word

/-! Presence masks: bit `i` is bit `i % 8` of byte `i / 8`, least significant first. A mask over
a received buffer stays a view until its first mark within the capacity; the buffer itself is
never written. -/
namespace SeriesClient.Wire

/-- Bytes that hold `capacity` bits. -/
def storageLength (capacity : Nat) : Nat := (capacity + 7) / 8

theorem div_lt_storageLength (capacity index : Nat) (h : index < capacity) :
    index / 8 < storageLength capacity := by
  simp only [storageLength]
  omega

inductive Storage where
  | owned (bytes : Bytes)
  | viewed (buffer : Bytes)
deriving DecidableEq, Repr

def Storage.bytes : Storage → Bytes
  | .owned bytes => bytes
  | .viewed buffer => buffer

structure Mask where
  capacity : Nat
  storage : Storage
deriving DecidableEq, Repr

namespace Mask

/-- No bit is marked. -/
def empty (capacity : Nat) : Mask :=
  ⟨capacity, .owned (List.replicate (storageLength capacity) 0)⟩

/-- The buffer may be of any length; a missing byte shows only when one of its bits is asked for. -/
def view (capacity : Nat) (buffer : Bytes) : Mask := ⟨capacity, .viewed buffer⟩

def bytes (mask : Mask) : Bytes := mask.storage.bytes

def isView (mask : Mask) : Bool := match mask.storage with
  | .owned _ => false
  | .viewed _ => true

/-- Masks are compared by capacity and stored bytes, padding included, whoever owns the bytes. -/
instance : BEq Mask where
  beq a b := a.capacity == b.capacity && a.bytes == b.bytes

def bitOf (b : UInt8) (index : Nat) : Bool := b.toNat.testBit (index % 8)

def withBit (b : UInt8) (index : Nat) : UInt8 := b ||| UInt8.ofNat (1 <<< (index % 8))

/-- Setting a bit shows at its own place and nowhere else in the byte. -/
theorem bitOf_withBit (b : UInt8) (index other : Nat) :
    bitOf (withBit b index) other = (index % 8 == other % 8 || bitOf b other) := by
  have small : index % 8 < 8 := Nat.mod_lt _ (by decide)
  have bit : (UInt8.ofNat (1 <<< (index % 8))).toNat = 1 <<< (index % 8) := by
    rw [UInt8.toNat_ofNat', Nat.one_shiftLeft]
    exact Nat.mod_eq_of_lt (Nat.pow_lt_pow_right (by decide) small)
  rw [bitOf, withBit, UInt8.toNat_or, Nat.testBit_or, bit, Nat.one_shiftLeft,
    Nat.testBit_two_pow, bitOf, Bool.or_comm]
  rfl

def test (mask : Mask) (index : Nat) : Except Error Bool :=
  if mask.capacity ≤ index then .error (.range index mask.capacity)
  else match mask.bytes[index / 8]? with
    | none => .error (.corrupted .bitmap (.missingBit index))
    | some b => .ok (bitOf b index)

/-- Sets a bit. The mask owns its bytes as soon as the index is in range, even if the byte is
missing and the mark fails. -/
def mark (mask : Mask) (index : Nat) : Except Error Unit × Mask :=
  if mask.capacity ≤ index then (.error (.range index mask.capacity), mask)
  else
    let bytes := mask.bytes
    match bytes[index / 8]? with
    | none => (.error (.corrupted .bitmap (.missingBit index)), ⟨mask.capacity, .owned bytes⟩)
    | some b =>
      (.ok (), ⟨mask.capacity, .owned (bytes.set (index / 8) (withBit b index))⟩)

/-- Counts the set bits among the next `more` from `index` on, on top of `marked`. -/
def countFrom (mask : Mask) (index marked : Nat) : (more : Nat) → Except Error Nat
  | 0 => .ok marked
  | more + 1 => match mask.test index with
    | .error e => .error e
    | .ok bit => countFrom mask (index + 1) (if bit then marked + 1 else marked) more

def countMarked (mask : Mask) : Except Error Nat := countFrom mask 0 0 mask.capacity

end Mask
end SeriesClient.Wire
