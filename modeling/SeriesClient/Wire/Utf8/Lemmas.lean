import SeriesClient.Wire.Utf8

/-! What is written as UTF-8 is read back as it was, and what is not well-formed is not. -/
namespace SeriesClient.Wire.Utf8

theorem toNat_ofNat_small (n : Nat) (h : n < 256) : (UInt8.ofNat n).toNat = n := by
  rw [UInt8.toNat_ofNat']
  exact Nat.mod_eq_of_lt h

theorem isContinuation_iff (b : UInt8) :
    isContinuation b = true ↔ 0x80 ≤ b.toNat ∧ b.toNat ≤ 0xBF := by
  simp [isContinuation, UInt8.le_iff_toNat_le]

theorem followsLead_iff (lead b : UInt8) : followsLead lead b = true ↔
    (if lead.toNat = 0xE0 then 0xA0 ≤ b.toNat ∧ b.toNat ≤ 0xBF
    else if lead.toNat = 0xED then 0x80 ≤ b.toNat ∧ b.toNat ≤ 0x9F
    else if lead.toNat = 0xF0 then 0x90 ≤ b.toNat ∧ b.toNat ≤ 0xBF
    else if lead.toNat = 0xF4 then 0x80 ≤ b.toNat ∧ b.toNat ≤ 0x8F
    else 0x80 ≤ b.toNat ∧ b.toNat ≤ 0xBF) := by
  have eq (n : UInt8) : lead = n ↔ lead.toNat = n.toNat := UInt8.toNat_inj.symm
  simp only [followsLead, eq]
  simp only [UInt8.reduceToNat]
  repeat' split
  all_goals simp [UInt8.le_iff_toNat_le, isContinuation_iff]

theorem widthOf_eq (lead : UInt8) : widthOf lead =
    (if lead.toNat ≤ 0x7F then some 1
    else if 0xC2 ≤ lead.toNat ∧ lead.toNat ≤ 0xDF then some 2
    else if 0xE0 ≤ lead.toNat ∧ lead.toNat ≤ 0xEF then some 3
    else if 0xF0 ≤ lead.toNat ∧ lead.toNat ≤ 0xF4 then some 4
    else none) := by
  simp [widthOf, UInt8.le_iff_toNat_le]

section Forms
variable {lead x y z : UInt8} (rest : Bytes)

theorem decodeChars_one (width : widthOf lead = some 1) :
    decodeChars (lead :: rest) = Char.ofNat lead.toNat :: decodeChars rest := by
  rw [decodeChars]
  simp [firstChar, width, tailLength, scalarOf]

theorem decodeChars_two (width : widthOf lead = some 2) (first : followsLead lead x = true) :
    decodeChars (lead :: x :: rest) =
      Char.ofNat (64 * (lead.toNat % 0x20) + x.toNat % 64) :: decodeChars rest := by
  rw [decodeChars]
  simp [firstChar, width, tailLength, first, scalarOf]

theorem decodeChars_three (width : widthOf lead = some 3) (first : followsLead lead x = true)
    (second : isContinuation y = true) :
    decodeChars (lead :: x :: y :: rest) =
      Char.ofNat (64 * (64 * (lead.toNat % 0x10) + x.toNat % 64) + y.toNat % 64) ::
        decodeChars rest := by
  rw [decodeChars]
  simp [firstChar, width, tailLength, first, second, scalarOf]

theorem decodeChars_four (width : widthOf lead = some 4) (first : followsLead lead x = true)
    (second : isContinuation y = true) (third : isContinuation z = true) :
    decodeChars (lead :: x :: y :: z :: rest) =
      Char.ofNat (64 * (64 * (64 * (lead.toNat % 0x08) + x.toNat % 64) + y.toNat % 64) +
        z.toNat % 64) :: decodeChars rest := by
  rw [decodeChars]
  simp [firstChar, width, tailLength, first, second, third, scalarOf]

end Forms

/-- Any last six bits make a continuation, from which they are read. -/
theorem isContinuation_sixBits (n : Nat) : isContinuation (UInt8.ofNat (n % 64 + 0x80)) = true ∧
    (UInt8.ofNat (n % 64 + 0x80)).toNat % 64 = n % 64 := by
  have byte := toNat_ofNat_small (n % 64 + 0x80) (by omega)
  rw [isContinuation_iff, byte]
  omega

theorem decodeChars_encodeChar (c : Char) (rest : Bytes) :
    decodeChars (String.utf8EncodeChar c ++ rest) = c :: decodeChars rest := by
  have valid : c.val.toNat < 0xD800 ∨ (0xDFFF < c.val.toNat ∧ c.val.toNat < 0x110000) :=
    c.valid
  have back : Char.ofNat c.val.toNat = c := Char.ofNat_toNat c
  simp only [String.utf8EncodeChar]
  generalize c.val.toNat = v at *
  obtain ⟨second, sixes⟩ := isContinuation_sixBits v
  obtain ⟨third, sixes'⟩ := isContinuation_sixBits (v / 64)
  by_cases one : v ≤ 0x7F
  · rw [if_pos one]
    have lead := toNat_ofNat_small v (by omega)
    have width : widthOf (UInt8.ofNat v) = some 1 := by
      rw [widthOf_eq, if_pos (by omega)]
    rw [List.singleton_append, decodeChars_one rest width, lead, back]
  rw [if_neg one]
  by_cases two : v ≤ 0x7FF
  · rw [if_pos two]
    have lead := toNat_ofNat_small (v / 64 % 32 + 0xc0) (by omega)
    have byte := toNat_ofNat_small (v % 64 + 0x80) (by omega)
    have width : widthOf (UInt8.ofNat (v / 64 % 32 + 0xc0)) = some 2 := by
      rw [widthOf_eq, if_neg (by omega), if_pos (by omega)]
    have follows : followsLead (UInt8.ofNat (v / 64 % 32 + 0xc0))
        (UInt8.ofNat (v % 64 + 0x80)) = true := by
      rw [followsLead_iff]
      (repeat' split) <;> omega
    have number : 64 * ((v / 64 % 32 + 0xc0) % 0x20) + v % 64 = v := by omega
    rw [List.cons_append, List.singleton_append, decodeChars_two rest width follows, lead, sixes,
      number, back]
  rw [if_neg two]
  by_cases three : v ≤ 0xFFFF
  · rw [if_pos three]
    have lead := toNat_ofNat_small (v / 4096 % 16 + 0xe0) (by omega)
    have byte := toNat_ofNat_small (v / 64 % 64 + 0x80) (by omega)
    have width : widthOf (UInt8.ofNat (v / 4096 % 16 + 0xe0)) = some 3 := by
      rw [widthOf_eq, if_neg (by omega), if_neg (by omega), if_pos (by omega)]
    have follows : followsLead (UInt8.ofNat (v / 4096 % 16 + 0xe0))
        (UInt8.ofNat (v / 64 % 64 + 0x80)) = true := by
      rw [followsLead_iff]
      (repeat' split) <;> omega
    have number : 64 * (64 * ((v / 4096 % 16 + 0xe0) % 0x10) + v / 64 % 64) + v % 64 = v := by
      omega
    rw [List.cons_append, List.cons_append, List.singleton_append,
      decodeChars_three rest width follows second, lead, sixes, sixes', number, back]
  rw [if_neg three]
  have lead := toNat_ofNat_small (v / 262144 % 8 + 0xf0) (by omega)
  have byte := toNat_ofNat_small (v / 4096 % 64 + 0x80) (by omega)
  obtain ⟨-, sixes''⟩ := isContinuation_sixBits (v / 4096)
  have width : widthOf (UInt8.ofNat (v / 262144 % 8 + 0xf0)) = some 4 := by
    rw [widthOf_eq, if_neg (by omega), if_neg (by omega), if_neg (by omega), if_pos (by omega)]
  have follows : followsLead (UInt8.ofNat (v / 262144 % 8 + 0xf0))
      (UInt8.ofNat (v / 4096 % 64 + 0x80)) = true := by
    rw [followsLead_iff]
    (repeat' split) <;> omega
  have number : 64 * (64 * (64 * ((v / 262144 % 8 + 0xf0) % 0x08) + v / 4096 % 64) +
      v / 64 % 64) + v % 64 = v := by omega
  rw [List.cons_append, List.cons_append, List.cons_append, List.singleton_append,
    decodeChars_four rest width follows third second, lead, sixes, sixes', sixes'', number, back]

theorem decode_encode (text : String) : decode (encode text) = text := by
  have all (cs : List Char) : decodeChars (cs.flatMap String.utf8EncodeChar) = cs := by
    induction cs with
    | nil => simp [decodeChars]
    | cons c cs ih => rw [List.flatMap_cons, decodeChars_encodeChar, ih]
  simp [decode, encode, all]

theorem encode_append (text more : String) :
    encode (text ++ more) = encode text ++ encode more := by
  rw [encode, String.toList_append, List.flatMap_append]
  rfl

/-- Bytes that are the UTF-8 form of some text. -/
def Valid (bytes : Bytes) : Prop := bytes.toByteArray.IsValidUTF8

theorem valid_encode (text : String) : Valid (encode text) := ⟨text.toList, rfl⟩

/-- Well-formed text is the text whose bytes do not change when they are read and written again. -/
theorem encode_decode_iff (bytes : Bytes) : encode (decode bytes) = bytes ↔ Valid bytes := by
  constructor
  · intro same
    rw [← same]
    exact valid_encode _
  · rintro ⟨chars, same⟩
    have written : bytes = encode (String.ofList chars) := by
      rw [encode, String.toList_ofList]
      simpa [List.utf8Encode] using congrArg (·.data.toList) same
    rw [written, decode_encode]

end SeriesClient.Wire.Utf8
