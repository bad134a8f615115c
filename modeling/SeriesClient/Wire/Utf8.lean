import SeriesClient.Wire.Word

/-! UTF-8 text. Reading never fails: each longest run of bytes that could still have begun a
character, but does not, is read as one replacement character. -/
namespace SeriesClient.Wire.Utf8

def encode (text : String) : Bytes := text.toList.flatMap String.utf8EncodeChar

def replacement : Char := '\uFFFD'

def isContinuation (b : UInt8) : Bool := 0x80 ≤ b && b ≤ 0xBF

/-- Bytes that may follow the lead byte of a longer character. The narrower ranges exclude
overlong forms, surrogates and numbers beyond the last character. -/
def followsLead (lead b : UInt8) : Bool :=
  if lead = 0xE0 then 0xA0 ≤ b && b ≤ 0xBF
  else if lead = 0xED then 0x80 ≤ b && b ≤ 0x9F
  else if lead = 0xF0 then 0x90 ≤ b && b ≤ 0xBF
  else if lead = 0xF4 then 0x80 ≤ b && b ≤ 0x8F
  else isContinuation b

/-- Bytes of the character that a lead byte opens; none for a byte that opens no character. -/
def widthOf (lead : UInt8) : Option Nat :=
  if lead ≤ 0x7F then some 1
  else if 0xC2 ≤ lead && lead ≤ 0xDF then some 2
  else if 0xE0 ≤ lead && lead ≤ 0xEF then some 3
  else if 0xF0 ≤ lead && lead ≤ 0xF4 then some 4
  else none

/-- Bytes after the lead that belong to it, at most `more` of them. -/
def tailLength (lead : UInt8) (more : Nat) (rest : Bytes) : Nat :=
  match more, rest with
  | more + 1, b :: rest =>
    if followsLead lead b then 1 + ((rest.take more).takeWhile isContinuation).length else 0
  | _, _ => 0

/-- Number of a character from its lead byte and the bytes after it, six bits in each. -/
def scalarOf (lead : UInt8) (tail : Bytes) : Nat :=
  let high := match tail.length with
    | 0 => lead.toNat
    | 1 => lead.toNat % 0x20
    | 2 => lead.toNat % 0x10
    | _ => lead.toNat % 0x08
  tail.foldl (fun n b => 64 * n + b.toNat % 64) high

/-- First character of a text that starts with `lead`, and how many bytes after it are used up. -/
def firstChar (lead : UInt8) (rest : Bytes) : Char × Nat :=
  match widthOf lead with
  | none => (replacement, 0)
  | some width =>
    let used := tailLength lead (width - 1) rest
    if used + 1 = width then (Char.ofNat (scalarOf lead (rest.take used)), used)
    else (replacement, used)

def decodeChars : Bytes → List Char
  | [] => []
  | lead :: rest =>
    let (c, used) := firstChar lead rest
    c :: decodeChars (rest.drop used)
termination_by bytes => bytes.length
decreasing_by simp only [List.length_drop, List.length_cons]; omega

def decode (bytes : Bytes) : String := String.ofList (decodeChars bytes)

end SeriesClient.Wire.Utf8
