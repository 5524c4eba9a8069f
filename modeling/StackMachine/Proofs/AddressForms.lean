import StackMachine.Proofs.AddressText

/-!
The three forms of an address: the pair of segment and offset, the number of the cell, and the
operand. Pairs and numbers stand for each other as far as offsets stay within a segment and numbers
within 256 segments, in the same order; every number beyond them becomes a pair that no memory has.
Operands stand for pairs with one hexadecimal digit of segment and three of offset, which is more
offsets than a segment has.
-/

set_option autoImplicit false

namespace StackMachine

namespace Address

variable {a b : Address} {n : Nat}

theorem segment_ofIndex (n : Nat) : (ofIndex n).segment.toNat = min (n / segmentSize) 255 := by
  simp only [ofIndex, UInt8.toNat_ofNat']
  exact Nat.mod_eq_of_lt (Nat.lt_succ_of_le (Nat.min_le_right _ _))

theorem offset_ofIndex (n : Nat) : (ofIndex n).offset.toNat = n % segmentSize := by
  simp only [ofIndex, segmentSize, UInt16.toNat_ofNat']
  omega

theorem offset_ofIndex_lt (n : Nat) : (ofIndex n).offset.toNat < segmentSize := by
  rw [offset_ofIndex]
  exact Nat.mod_lt n (by decide)

/-- A number is that of a cell exactly if there are so many cells. -/
theorem isCellOf_ofIndex_iff {segments : UInt8} :
    (ofIndex n).isCellOf segments = true ↔ n < segmentSize * segments.toNat := by
  constructor
  · intro inside
    have segment := (isCellOf_iff.mp inside).1
    have upper := segments.toNat_lt
    rw [segment_ofIndex] at segment
    simp only [segmentSize] at segment ⊢
    omega
  · intro small
    exact isCellOf_ofIndex (Nat.mul_comm _ _ ▸ small)

/-- Numbers beyond 256 segments get a segment that no memory has. -/
theorem segment_ofIndex_of_le (large : 256 * segmentSize ≤ n) : (ofIndex n).segment = 255 := by
  apply UInt8.toNat_inj.mp
  rw [segment_ofIndex]
  simp only [segmentSize] at large ⊢
  exact Nat.min_eq_right (by omega)

theorem index_ofIndex_iff : (ofIndex n).index = n ↔ n < 256 * segmentSize := by
  constructor
  · intro same
    rw [index, segment_ofIndex, offset_ofIndex] at same
    simp only [segmentSize] at same ⊢
    omega
  · exact index_ofIndex

theorem ofIndex_index_iff : ofIndex a.index = a ↔ a.offset.toNat < segmentSize := by
  constructor
  · intro same
    have inside := offset_ofIndex_lt a.index
    rwa [same] at inside
  · exact ofIndex_index

theorem index_lt_two_pow (a : Address) : a.index < 2 ^ 32 := by
  have segment := a.segment.toNat_lt
  have offset := a.offset.toNat_lt
  simp only [index, segmentSize]
  omega

/-- Within their segments addresses are in the order of their numbers. -/
theorem le_iff_index_le (insideA : a.offset.toNat < segmentSize)
    (insideB : b.offset.toNat < segmentSize) : a ≤ b ↔ a.index ≤ b.index := by
  show a.segment < b.segment ∨ a.segment = b.segment ∧ a.offset ≤ b.offset ↔ _
  rw [UInt8.lt_iff_toNat_lt, ← UInt8.toNat_inj, UInt16.le_iff_toNat_le]
  simp only [index, segmentSize] at insideA insideB ⊢
  omega

theorem lt_iff_index_lt (insideA : a.offset.toNat < segmentSize)
    (insideB : b.offset.toNat < segmentSize) : a < b ↔ a.index < b.index := by
  show a.segment < b.segment ∨ a.segment = b.segment ∧ a.offset < b.offset ↔ _
  rw [UInt8.lt_iff_toNat_lt, ← UInt8.toNat_inj, UInt16.lt_iff_toNat_lt]
  simp only [index, segmentSize] at insideA insideB ⊢
  omega

theorem exists_unpack (segment : a.segment.toNat < maxSegments) (offset : a.offset.toNat ≤ 0xFFF) :
    ∃ operand, unpack operand = a := by
  simp only [maxSegments] at segment
  have number : (UInt16.ofNat (a.segment.toNat * 4096 + a.offset.toNat)).toNat =
      a.segment.toNat * 4096 + a.offset.toNat := by
    rw [UInt16.toNat_ofNat']
    omega
  refine ⟨UInt16.ofNat (a.segment.toNat * 4096 + a.offset.toNat), Eq.symm ?_⟩
  apply eq_unpack
  · rw [number]
    omega
  · rw [number]
    omega

theorem pack_eq_ok_iff {operand : UInt16} : a.pack = .ok operand ↔ unpack operand = a := by
  constructor
  · intro packed
    have fits : a.segment.toNat < maxSegments ∧ a.offset ≤ 0xFFF := by
      by_contra wide
      rw [pack, if_neg wide] at packed
      contradiction
    obtain ⟨other, rfl⟩ := exists_unpack fits.1 (UInt16.le_iff_toNat_le.mp fits.2)
    rw [pack_unpack] at packed
    rw [Except.ok.inj packed]
  · rintro rfl
    exact pack_unpack operand

theorem exists_pack_iff :
    (∃ operand, a.pack = .ok operand) ↔
      a.segment.toNat < maxSegments ∧ a.offset.toNat ≤ 0xFFF := by
  simp only [pack_eq_ok_iff]
  constructor
  · rintro ⟨operand, rfl⟩
    have upper := operand.toNat_lt
    rw [segment_unpack, offset_unpack, maxSegments]
    omega
  · intro fits
    exact exists_unpack fits.1 fits.2

end Address

/-- The forms of an address agree. Numbers and pairs stand for each other within 256 segments and
within the offsets of a segment, and in the same order; operands and pairs do where segment and
offset have no more than one and three hexadecimal digits. -/
theorem address_forms_agree :
    (∀ (n : Nat) (segments : UInt8),
      (Address.ofIndex n).isCellOf segments = true ↔ n < segmentSize * segments.toNat) ∧
    (∀ n, 256 * segmentSize ≤ n → (Address.ofIndex n).segment = 255 ∧
      ∀ segments, (Address.ofIndex n).isCellOf segments = false) ∧
    (∀ n, (Address.ofIndex n).index = n ↔ n < 256 * segmentSize) ∧
    (∀ a : Address, a.index < 2 ^ 32 ∧
      (Address.ofIndex a.index = a ↔ a.offset.toNat < segmentSize)) ∧
    (∀ a b : Address, a.offset.toNat < segmentSize → b.offset.toNat < segmentSize →
      (a ≤ b ↔ a.index ≤ b.index) ∧ (a < b ↔ a.index < b.index)) ∧
    (∀ operand : UInt16, (Address.unpack operand).pack = .ok operand) ∧
    (∀ (a : Address) (operand : UInt16), a.pack = .ok operand → Address.unpack operand = a) ∧
    ∀ a : Address, (∃ operand, a.pack = .ok operand) ↔
      a.segment.toNat < maxSegments ∧ a.offset.toNat ≤ 0xFFF := by
  refine ⟨fun _ _ => Address.isCellOf_ofIndex_iff, ?_, fun _ => Address.index_ofIndex_iff, ?_, ?_,
    Address.pack_unpack, fun _ _ => Address.pack_eq_ok_iff.mp, fun _ => Address.exists_pack_iff⟩
  · intro n large
    refine ⟨Address.segment_ofIndex_of_le large, ?_⟩
    intro segments
    have upper := segments.toNat_lt
    rw [← Bool.not_eq_true, Address.isCellOf_ofIndex_iff]
    simp only [segmentSize] at large ⊢
    omega
  · intro a
    exact ⟨a.index_lt_two_pow, Address.ofIndex_index_iff⟩
  · intro a b insideA insideB
    exact ⟨Address.le_iff_index_le insideA insideB, Address.lt_iff_index_lt insideA insideB⟩

/-- The greatest number of 32 bits, the last cell of a segment beside the first of the next, and the
greatest operand, whose offset no segment has. -/
theorem address_forms_agree_edges :
    (Address.ofIndex (2 ^ 32 - 1)).segment = 255 ∧
    (Address.ofIndex (2 ^ 32 - 1)).isCellOf 255 = false ∧
    (⟨0, 1023⟩ : Address) < ⟨1, 0⟩ ∧ Address.unpack 0xFFFF = ⟨15, 0xFFF⟩ ∧
    Address.ofIndex (⟨15, 0xFFF⟩ : Address).index ≠ ⟨15, 0xFFF⟩ := by
  obtain ⟨_, saturated, _, numbers, order, _, unpacked, _⟩ := address_forms_agree
  have far := saturated (2 ^ 32 - 1) (by decide)
  refine ⟨far.1, far.2 255, ?_, ?_, ?_⟩
  · exact (order ⟨0, 1023⟩ ⟨1, 0⟩ (by decide) (by decide)).2.mpr (by decide)
  · exact unpacked ⟨15, 0xFFF⟩ 0xFFFF (by decide)
  · exact mt (numbers ⟨15, 0xFFF⟩).2.mp (by decide)

/-- Beyond the end of a segment the two orders part. -/
example : (⟨0, 1024⟩ : Address) < ⟨1, 0⟩ ∧
    (⟨0, 1024⟩ : Address).index = (⟨1, 0⟩ : Address).index := by
  decide

end StackMachine
