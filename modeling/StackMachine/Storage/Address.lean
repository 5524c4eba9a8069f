import StackMachine.Numeral

/-!
Addresses of memory cells. A cell is named by its segment and its offset there, and the cells of
all segments together are numbered from zero, segment after segment.
-/

set_option autoImplicit false

namespace StackMachine

def segmentSize : Nat := 1024

/-- An operand has one hexadecimal digit for the segment. -/
def maxSegments : Nat := 16

/-- A plain pair: whether it names a cell depends on the memory it is used with. -/
structure Address where
  segment : UInt8
  offset : UInt16
deriving DecidableEq, Inhabited

namespace Address

def zero : Address := ⟨0, 0⟩

/-- The number of a cell, counted through all segments. -/
def index (address : Address) : Nat :=
  address.segment.toNat * segmentSize + address.offset.toNat

/-- Numbers beyond the last segment that can be written get segment 255, which no memory has. -/
def ofIndex (n : Nat) : Address :=
  ⟨UInt8.ofNat (min (n / segmentSize) 255), UInt16.ofNat (n % segmentSize)⟩

/-- True if the address names a cell in a memory of that many segments. -/
def isCellOf (address : Address) (segments : UInt8) : Bool :=
  address.segment < segments && address.offset.toNat < segmentSize

/-- The segment in hexadecimal, then the offset in at least three hexadecimal digits. -/
def display (address : Address) : String :=
  "[" ++ Numeral.hex 1 address.segment.toNat ++ ":" ++ Numeral.hex 3 address.offset.toNat ++ "]"

/-- Addresses are ordered by segment, and within a segment by offset. -/
instance : LE Address where
  le a b := a.segment < b.segment ∨ a.segment = b.segment ∧ a.offset ≤ b.offset

instance : LT Address where
  lt a b := a.segment < b.segment ∨ a.segment = b.segment ∧ a.offset < b.offset

instance (a b : Address) : Decidable (a ≤ b) :=
  inferInstanceAs (Decidable (a.segment < b.segment ∨ a.segment = b.segment ∧ a.offset ≤ b.offset))

instance (a b : Address) : Decidable (a < b) :=
  inferInstanceAs (Decidable (a.segment < b.segment ∨ a.segment = b.segment ∧ a.offset < b.offset))

def sort (addresses : List Address) : List Address :=
  addresses.mergeSort fun a b => decide (a ≤ b)

theorem index_ofIndex {n : Nat} (small : n < 256 * segmentSize) :
    (ofIndex n).index = n := by
  have segment : n / segmentSize < 256 := by
    rw [Nat.div_lt_iff_lt_mul (by decide)]
    exact small
  have offset : n % segmentSize < 1024 := Nat.mod_lt n (by decide)
  simp only [index, ofIndex, UInt8.toNat_ofNat', UInt16.toNat_ofNat']
  rw [Nat.mod_eq_of_lt (by omega), Nat.mod_eq_of_lt (by omega), Nat.min_eq_left (by omega)]
  exact Nat.div_add_mod' n segmentSize

theorem ofIndex_index {address : Address} (inside : address.offset.toNat < segmentSize) :
    ofIndex address.index = address := by
  obtain ⟨segment, offset⟩ := address
  have upper : segment.toNat < 256 := segment.toNat_lt
  simp only [segmentSize] at inside
  have quotient : (segment.toNat * 1024 + offset.toNat) / 1024 = segment.toNat := by omega
  have remainder : (segment.toNat * 1024 + offset.toNat) % 1024 = offset.toNat := by omega
  simp only [ofIndex, index, segmentSize, quotient, remainder]
  rw [Nat.min_eq_left (by omega)]
  simp

end Address

end StackMachine
