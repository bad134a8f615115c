import SeriesClient.Proofs.Wire.MaskHistory

/-! A mask over a received buffer, whose length need not fit the capacity. Marks never reach the
buffer: with the first one in range the mask goes over to bytes of its own, which differ from the
buffer in the accepted marks and in nothing else. -/
namespace SeriesClient.Wire.Mask

/-- A mask that was made over a buffer, after these calls and with these marks accepted. -/
structure StandsOver (mask : Mask) (capacity : Nat) (buffer : Bytes) (history : List Call)
    (marks : Finset Nat) : Prop where
  accepted : ∀ i, i ∈ marks ↔ i < capacity ∧ i / 8 < buffer.length ∧ .mark i ∈ history
  room : mask.capacity = capacity
  isView : mask.isView = true ↔ ∀ i, .mark i ∈ history → capacity ≤ i
  source : ∀ seen, mask.storage = .viewed seen → seen = buffer
  size : mask.bytes.length = buffer.length
  bits : ∀ k j (stored : k < mask.bytes.length) (there : k < buffer.length), j < 8 →
    mask.bytes[k].toNat.testBit j =
      (decide (8 * k + j ∈ marks) || buffer[k].toNat.testBit j)

theorem Owned.not_isView {mask : Mask} (owned : mask.Owned) : mask.isView = false := by
  rw [isView, show mask.storage = .owned mask.bytes from owned]

theorem view_after (capacity : Nat) (buffer : Bytes) (history : List Call) :
    (view capacity buffer).after history = view capacity buffer ∧
        (∀ i, .mark i ∈ history → capacity ≤ i) ∨
      ((view capacity buffer).after history).Owned ∧ ∃ i < capacity, .mark i ∈ history := by
  by_cases outside : ∀ i, .mark i ∈ history → capacity ≤ i
  · exact .inl ⟨after_unmarked outside, outside⟩
  · push Not at outside
    obtain ⟨i, made, inside⟩ := outside
    exact .inr ⟨owned_after_mark inside made, i, inside, made⟩

theorem standsOver_after (capacity : Nat) (buffer : Bytes) (history : List Call) :
    ((view capacity buffer).after history).StandsOver capacity buffer history
      ((view capacity buffer).landed history) := by
  have keeps := (view capacity buffer).after_keeps history
  have ends := view_after capacity buffer history
  constructor
  case accepted => exact fun i => mem_landed_iff
  case room => exact keeps.capacity
  case isView =>
    rcases ends with ⟨same, outside⟩ | ⟨owned, i, inside, made⟩
    · rw [same]
      exact iff_of_true rfl outside
    · rw [owned.not_isView]
      exact iff_of_false Bool.false_ne_true fun outside =>
        absurd (outside i made) (Nat.not_le.mpr inside)
  case source =>
    intro seen viewed
    rcases ends with ⟨same, -⟩ | ⟨owned, -⟩
    · rw [same] at viewed
      exact (Storage.viewed.inj viewed).symm
    · cases owned.symm.trans viewed
  case size => exact keeps.size
  case bits =>
    intro k j stored there small
    have original : (view capacity buffer).bit (8 * k + j) = buffer[k].toNat.testBit j :=
      (@testBit_bytes (view capacity buffer) k j there small).symm
    rw [testBit_bytes stored small, keeps.bits, original]

/-- The buffer under a view is never changed. The mask answers about a place as the buffer does, or
as the marks that were accepted; it refuses places from the capacity on, then those whose byte the
buffer lacks, and a count where a byte is lacking, and stores what it did when it refuses. -/
theorem buffer_never_written (capacity : Nat) (buffer : Bytes) (history : List Call) :
    let mask := (view capacity buffer).after history
    let marks := (view capacity buffer).landed history
    mask.StandsOver capacity buffer history marks ∧
    ∀ call,
      (mask.call call).1 = told capacity buffer.length
        (fun i => decide (i ∈ marks) || (view capacity buffer).bit i) call ∧
      ∀ e, (mask.call call).1 = .error e → (mask.call call).2.bytes = mask.bytes := by
  refine ⟨standsOver_after capacity buffer history, ?_⟩
  intro call
  exact ⟨after_answers (view capacity buffer) history call, fun e => bytes_of_failed⟩

/-- A buffer one byte short: a mark out of range leaves the view, one beyond the buffer ends it, and
both fail. -/
theorem short_buffer_never_written :
    let mask := (view 12 [0x05]).after [.mark 12, .test 2, .mark 9, .mark 1]
    ((view 12 [0x05]).after [.mark 12, .test 2]).storage = .viewed [0x05] ∧
    mask.storage = .owned [0x07] ∧
    (mask.call (.mark 9)).1 = .error (.corrupted .bitmap (.missingBit 9)) ∧
    (mask.call (.mark 9)).2.bytes = mask.bytes ∧
    (mask.call (.test 2)).1 = .ok (.bit true) ∧
    (mask.call .count).1 = .error (.corrupted .bitmap (.missingBit 8)) := by
  intro mask
  obtain ⟨-, answers⟩ := buffer_never_written 12 [0x05] [.mark 12, .test 2, .mark 9, .mark 1]
  have refused : (mask.call (.mark 9)).1 = .error (.corrupted .bitmap (.missingBit 9)) :=
    (answers (.mark 9)).1
  have tested : (mask.call (.test 2)).1 = .ok (.bit true) := (answers (.test 2)).1
  have counted : (mask.call .count).1 = .error (.corrupted .bitmap (.missingBit 8)) :=
    (answers .count).1
  exact ⟨by decide, by decide, refused, (answers (.mark 9)).2 _ refused, tested, counted⟩

end SeriesClient.Wire.Mask
