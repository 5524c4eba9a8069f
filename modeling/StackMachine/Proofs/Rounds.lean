import Mathlib.Logic.ExistsUnique
import Mathlib.Logic.Function.Iterate
import StackMachine.Proofs.Filling

/-!
The counter on its own. Whatever is asked of it, it stands on a cell of its segments, or of the
first segment if it has none, and its two parts never overflow. Moving on goes round all these
cells, one after the other, and after a whole round it is where it was.
-/

set_option autoImplicit false

namespace StackMachine

namespace Counter

inductive Request
  | advance
  | jump (target : Address)
  | lookAhead
  | rewind
deriving DecidableEq

/-- The answer to a request, and the counter after it. A jump that is refused moves nothing. -/
def respond (counter : Counter) : Request → Except Failure (Option Address) × Counter
  | .advance => (.ok none, counter.advance)
  | .jump target =>
    match counter.jump target with
    | .ok moved => (.ok none, moved)
    | .error cause => (.error cause, counter)
  | .lookAhead => (.ok (some counter.next), counter)
  | .rewind => (.ok none, counter.rewind)

def after (counter : Counter) (requests : List Request) : Counter :=
  requests.foldl (fun counter request => (counter.respond request).2) counter

/-- The next cell, with offset and segment added to and compared in their own widths. -/
def narrowNext (counter : Counter) : Address :=
  let ⟨segment, offset⟩ := counter.position
  if offset + 1 < 1024 then ⟨segment, offset + 1⟩
  else if segment + 1 < counter.segments then ⟨segment + 1, 0⟩
  else .zero

/-- The segments that a counter goes through. One that can jump nowhere goes through the first. -/
def lap (segments : UInt8) : UInt8 :=
  if segments = 0 then 1 else segments

variable {segments : UInt8} {counter : Counter}

theorem toNat_lap (segments : UInt8) : (lap segments).toNat = max segments.toNat 1 := by
  unfold lap
  by_cases none : segments = 0
  · subst none
    decide
  · have positive : segments.toNat ≠ 0 := fun zero => none (UInt8.toNat_inj.mp zero)
    rw [if_neg none]
    omega

theorem next_lap (position : Address) (segments : UInt8) :
    next ⟨position, lap segments⟩ = next ⟨position, segments⟩ := by
  have more : position.segment.toNat + 1 < (lap segments).toNat ↔
      position.segment.toNat + 1 < segments.toNat := by
    rw [toNat_lap]
    omega
  simp only [next, more]

/-- The counter has kept its segments and stands on a cell of its lap. -/
structure Within (segments : UInt8) (counter : Counter) : Prop where
  kept : counter.segments = segments
  inside : counter.position.isCellOf (lap segments) = true

namespace Within

theorem new (segments : UInt8) : Within segments (Counter.new segments) := by
  refine ⟨rfl, Address.isCellOf_zero ?_⟩
  rw [toNat_lap]
  omega

theorem advance (within : Within segments counter) : Within segments counter.advance := by
  obtain ⟨position, _⟩ := counter
  obtain ⟨rfl, inside⟩ := within
  refine ⟨rfl, ?_⟩
  show (next ⟨position, _⟩).isCellOf _ = true
  rw [← next_lap]
  exact isCellOf_next rfl inside

theorem respond_jump (within : Within segments counter) (target : Address) :
    counter.respond (.jump target) =
      if target.isCellOf segments then (.ok none, ⟨target, segments⟩)
      else (.error (.outOfBounds target), counter) := by
  rw [respond, Counter.jump, within.kept, Address.cellOf]
  by_cases cell : target.isCellOf segments = true
  · rw [if_pos cell, if_pos cell]
  · rw [if_neg cell, if_neg cell]

theorem respond (within : Within segments counter) (request : Request) :
    Within segments (counter.respond request).2 := by
  cases request with
  | advance => exact within.advance
  | lookAhead => exact within
  | rewind => exact ⟨within.kept, (new segments).inside⟩
  | jump target =>
    rw [within.respond_jump]
    by_cases cell : target.isCellOf segments = true
    · rw [if_pos cell]
      obtain ⟨segment, offset⟩ := Address.isCellOf_iff.mp cell
      refine ⟨rfl, Address.isCellOf_iff.mpr ⟨?_, offset⟩⟩
      show target.segment.toNat < (lap segments).toNat
      rw [toNat_lap]
      omega
    · rw [if_neg cell]
      exact within

theorem after (within : Within segments counter) (requests : List Request) :
    Within segments (counter.after requests) := by
  induction requests generalizing counter with
  | nil => exact within
  | cons request rest ih => exact ih (within.respond request)

/-- Neither part of the position can overflow, so the widths of the parts do not matter. -/
theorem narrowNext_eq (within : Within segments counter) : counter.narrowNext = counter.next := by
  obtain ⟨offset, segment⟩ := Address.no_overflow within.inside
  have rolls : counter.position.offset + 1 < 1024 ↔
      counter.position.offset.toNat + 1 < segmentSize := by
    rw [UInt16.lt_iff_toNat_lt, offset]
    rfl
  have more : counter.position.segment + 1 < counter.segments ↔
      counter.position.segment.toNat + 1 < counter.segments.toNat := by
    rw [UInt8.lt_iff_toNat_lt, segment]
  simp only [narrowNext, next, rolls, more]

theorem iterate (within : Within segments counter) (k : Nat) :
    Within segments (Counter.advance^[k] counter) := by
  induction k with
  | zero => exact within
  | succ k ih =>
    rw [Function.iterate_succ_apply']
    exact ih.advance

theorem index_lt (within : Within segments counter) :
    counter.position.index < segmentSize * max segments.toNat 1 := by
  rw [← toNat_lap, Nat.mul_comm]
  exact Address.index_lt within.inside

theorem index_advance (within : Within segments counter) :
    counter.advance.position.index =
      (counter.position.index + 1) % (segmentSize * max segments.toNat 1) := by
  obtain ⟨position, _⟩ := counter
  obtain ⟨rfl, inside⟩ := within
  show (next ⟨position, _⟩).index = _
  rw [← next_lap, ← toNat_lap, Nat.mul_comm]
  exact index_next rfl inside

/-- Moving on `k` times leads to the cell `k` places further on, round and round. -/
theorem index_iterate (within : Within segments counter) (k : Nat) :
    (Counter.advance^[k] counter).position.index =
      (counter.position.index + k) % (segmentSize * max segments.toNat 1) := by
  induction k with
  | zero =>
    rw [Nat.add_zero, Nat.mod_eq_of_lt within.index_lt]
    rfl
  | succ k ih =>
    rw [Function.iterate_succ_apply', (within.iterate k).index_advance, ih, Nat.mod_add_mod,
      Nat.add_assoc]

theorem eq_of_index (within : Within segments counter) {address : Address}
    (offset : address.offset.toNat < segmentSize) (same : counter.position.index = address.index) :
    counter.position = address :=
  Address.index_inj (Address.isCellOf_iff.mp within.inside).2 offset same

/-- A whole round leads back. -/
theorem iterate_round (within : Within segments counter) :
    Counter.advance^[segmentSize * max segments.toNat 1] counter = counter := by
  have round := within.iterate (segmentSize * max segments.toNat 1)
  have index := within.index_iterate (segmentSize * max segments.toNat 1)
  rw [Nat.add_mod_right, Nat.mod_eq_of_lt within.index_lt] at index
  have position := round.eq_of_index (Address.isCellOf_iff.mp within.inside).2 index
  have kept := round.kept.trans within.kept.symm
  generalize Counter.advance^[segmentSize * max segments.toNat 1] counter = moved at position kept
  cases moved
  exact congrArg₂ Counter.mk position kept

/-- Less than a round apart, the counter is at different cells. -/
theorem iterate_apart (within : Within segments counter) {i j : Nat}
    (insideI : i < segmentSize * max segments.toNat 1)
    (insideJ : j < segmentSize * max segments.toNat 1) (apart : i ≠ j) :
    (Counter.advance^[i] counter).position ≠ (Counter.advance^[j] counter).position := by
  intro same
  have numbers := congrArg Address.index same
  rw [within.index_iterate, within.index_iterate] at numbers
  exact mod_apart insideI insideJ apart numbers

/-- A round comes to every cell of the lap. -/
theorem exists_iterate (within : Within segments counter) {address : Address}
    (cell : address.isCellOf (lap segments) = true) :
    ∃ k, k < segmentSize * max segments.toNat 1 ∧
      (Counter.advance^[k] counter).position = address := by
  have here := within.index_lt
  have moves := within.index_iterate
  have there : address.index < segmentSize * max segments.toNat 1 := by
    rw [← toNat_lap, Nat.mul_comm]
    exact Address.index_lt cell
  generalize segmentSize * max segments.toNat 1 = cells at here there moves
  -- The way from the number of this cell up to the other one, over the end if that lies behind.
  refine ⟨(address.index + (cells - counter.position.index)) % cells, Nat.mod_lt _ (by omega), ?_⟩
  apply (within.iterate _).eq_of_index (Address.isCellOf_iff.mp cell).2
  have way : counter.position.index + (address.index + (cells - counter.position.index)) =
      address.index + cells := by omega
  rw [moves, Nat.add_mod_mod, way, Nat.add_mod_right, Nat.mod_eq_of_lt there]

end Within

end Counter

/-- A counter of any number of segments, none included, after any requests: it stands on a cell, and
adding one to either part of its position does not overflow. Moving on goes round and round, so one
round comes to every cell once and leads back. -/
theorem counter_goes_round (segments : UInt8) (requests : List Counter.Request) :
    let counter := (Counter.new segments).after requests
    let cells := segmentSize * max segments.toNat 1
    (counter.segments = segments ∧ counter.position.offset.toNat < segmentSize ∧
      counter.position.segment.toNat < max segments.toNat 1) ∧
    ((counter.position.offset + 1).toNat = counter.position.offset.toNat + 1 ∧
      (counter.position.segment + 1).toNat = counter.position.segment.toNat + 1 ∧
      counter.narrowNext = counter.next) ∧
    counter.respond .lookAhead = (.ok (some (counter.respond .advance).2.position), counter) ∧
    (∀ target, counter.respond (.jump target) =
      if target.isCellOf segments then (.ok none, ⟨target, segments⟩)
      else (.error (.outOfBounds target), counter)) ∧
    (∀ k, (Counter.advance^[k] counter).position.index = (counter.position.index + k) % cells) ∧
    (∀ address : Address, address.offset.toNat < segmentSize →
      address.segment.toNat < max segments.toNat 1 →
        ∃! k, k < cells ∧ (Counter.advance^[k] counter).position = address) ∧
    Counter.advance^[cells] counter = counter := by
  intro counter cells
  have within : Counter.Within segments counter := (Counter.Within.new segments).after requests
  clear_value counter
  obtain ⟨segment, offset⟩ := Address.isCellOf_iff.mp within.inside
  obtain ⟨offsetFits, segmentFits⟩ := Address.no_overflow within.inside
  rw [Counter.toNat_lap] at segment
  refine ⟨⟨within.kept, offset, segment⟩, ⟨offsetFits, segmentFits, within.narrowNext_eq⟩, rfl,
    within.respond_jump, within.index_iterate, ?_, within.iterate_round⟩
  intro address offset segment
  rw [← Counter.toNat_lap] at segment
  obtain ⟨k, small, reached⟩ := within.exists_iterate (Address.isCellOf_iff.mpr ⟨segment, offset⟩)
  refine ⟨k, ⟨small, reached⟩, ?_⟩
  intro other ⟨otherSmall, otherReached⟩
  by_contra apart
  exact within.iterate_apart otherSmall small apart (otherReached.trans reached.symm)

/-- The last cell of 255 segments, from which a jump beyond them is refused: one move leads to the
first cell, and a round comes back to the last one. -/
theorem counter_goes_round_last :
    let counter := (Counter.new 255).after [.jump ⟨254, 1023⟩, .jump ⟨255, 0⟩, .lookAhead]
    counter.position = ⟨254, 1023⟩ ∧ (Counter.advance^[1] counter).position.index = 0 ∧
      ∃! k, k < segmentSize * 255 ∧ (Counter.advance^[k] counter).position = ⟨254, 1022⟩ := by
  intro counter
  obtain ⟨_, _, _, _, moves, visits, _⟩ :=
    counter_goes_round 255 [.jump ⟨254, 1023⟩, .jump ⟨255, 0⟩, .lookAhead]
  have position : counter.position = ⟨254, 1023⟩ := by decide
  refine ⟨position, ?_, visits ⟨254, 1022⟩ (by decide) (by decide)⟩
  refine (moves 1).trans ?_
  show (counter.position.index + 1) % (segmentSize * max (255 : UInt8).toNat 1) = 0
  rw [position]
  decide

/-- Without a segment there is no target to jump to, but the counter still goes round 1024 cells. -/
example :
    let counter := (Counter.new 0).after [.jump .zero, .advance]
    (counter.respond (.jump .zero)).1 = .error (.outOfBounds .zero) ∧
      counter.position = ⟨0, 1⟩ := by
  decide

end StackMachine
