import Mathlib.Data.List.Induction
import Mathlib.Data.Nat.Digits.Defs
import StackMachine.Proofs.Numerals

/-!
The texts that are numbers. A number is written in hexadecimal digits after a mark, or in decimal
digits after at most one sign, and the digits have the value of their places in the base. The whole
text must be so written, and the number must be one of 64 bits; nothing else is asked, so there may
be any zeros before the other digits.
-/

set_option autoImplicit false

namespace StackMachine.Numeral

/-- Digits that write a number in a base: at least one, the most significant first, and each in
either letter case. -/
def Denotes (base : Nat) (digits : List Char) (n : Nat) : Prop :=
  digits ≠ [] ∧ ∃ values : List Nat, digits.map Char.toLower = values.map Nat.digitChar ∧
    (∀ d ∈ values, d < base) ∧ n = Nat.ofDigits base values.reverse

inductive Writes : List Char → Int → Prop
  | hexadecimal {mark : Char} {digits : List Char} {n : Nat} (marked : mark = 'x' ∨ mark = 'X')
      (denoted : Denotes 16 digits n) : Writes ('0' :: mark :: digits) n
  | unsigned {digits : List Char} {n : Nat} (denoted : Denotes 10 digits n) : Writes digits n
  | positive {digits : List Char} {n : Nat} (denoted : Denotes 10 digits n) :
      Writes ('+' :: digits) n
  | negative {digits : List Char} {n : Nat} (denoted : Denotes 10 digits n) :
      Writes ('-' :: digits) (-n)

/-- The digits are the characters of the two rows of sixteen, with their places as values. -/
theorem digitValue?_eq_some_iff {c : Char} {d : Nat} :
    digitValue? c = some d ↔ d < 16 ∧ c.toLower = Nat.digitChar d := by
  by_cases ascii : c.toNat < 128
  · have table : ∀ n < 128, ∀ d < 16,
        digitValue? (Char.ofNat n) = some d ↔ (Char.ofNat n).toLower = Nat.digitChar d := by
      decide +kernel
    have small : digitValue? c = some d → d < 16 := by
      intro known
      simpa [known] using digit_lt c
    have row := table c.toNat ascii d
    rw [Char.ofNat_toNat] at row
    constructor
    · intro known
      exact ⟨small known, (row (small known)).mp known⟩
    · rintro ⟨below, shown⟩
      exact (row below).mpr shown
  · have beyond : ∀ bound : Char, bound.toNat < 128 → ¬ c ≤ bound := by
      intro bound low below
      have order : c.toNat ≤ bound.toNat := below
      omega
    have unknown : digitValue? c = none := by
      simp [digitValue?, beyond _ (show '9'.toNat < 128 by decide),
        beyond _ (show 'f'.toNat < 128 by decide), beyond _ (show 'F'.toNat < 128 by decide)]
    have unchanged : c.toLower = c := dif_neg fun upper => beyond 'Z' (by decide) upper.2
    have digits : ∀ d < 16, (Nat.digitChar d).toNat < 128 := by decide
    simp only [unknown, reduceCtorEq, unchanged, false_iff]
    rintro ⟨below, rfl⟩
    exact ascii (digits d below)

theorem isDigit_iff {base : Nat} {c : Char} :
    isDigit base c = true ↔ ∃ d, digitValue? c = some d ∧ d < base := by
  simp only [isDigit, Option.any_eq_true, decide_eq_true_eq]

theorem map_digitValue?_eq_iff {digits : List Char} {values : List Nat} :
    digits.map digitValue? = values.map some ↔
      digits.map Char.toLower = values.map Nat.digitChar ∧ ∀ d ∈ values, d < 16 := by
  induction digits generalizing values with
  | nil => cases values <;> simp
  | cons c rest ih =>
    cases values with
    | nil => simp
    | cons d others =>
      simp only [List.map_cons, List.cons.injEq, digitValue?_eq_some_iff, ih, List.mem_cons,
        forall_eq_or_imp]
      constructor
      · rintro ⟨⟨below, shown⟩, same, small⟩
        exact ⟨⟨shown, same⟩, below, small⟩
      · rintro ⟨⟨shown, same⟩, below, small⟩
        exact ⟨⟨below, shown⟩, same, small⟩

/-- Reading from left to right gives each digit the value of its place. -/
theorem value_eq_ofDigits {base : Nat} {digits : List Char} {values : List Nat}
    (known : digits.map digitValue? = values.map some) :
    value base digits = Nat.ofDigits base values.reverse := by
  induction digits using List.reverseRecOn generalizing values with
  | nil =>
    cases values with
    | nil => rfl
    | cons d others => simp at known
  | append_singleton front c ih =>
    rcases List.eq_nil_or_concat values with rfl | ⟨others, d, rfl⟩
    · simp at known
    · simp only [List.map_append, List.map_cons, List.map_nil, List.concat_eq_append] at known
      obtain ⟨same, last⟩ := List.append_inj' known rfl
      rw [List.cons.injEq] at last
      rw [value_concat, ih same, last.1, List.concat_eq_append, List.reverse_append,
        List.reverse_singleton, List.singleton_append, Nat.ofDigits_cons, Option.getD_some,
        Nat.add_comm]

theorem read?_eq_some_iff {base n : Nat} {digits : List Char} (narrow : base ≤ 16) :
    read? base digits = some n ↔ Denotes base digits n := by
  unfold read? Denotes
  constructor
  · intro read
    split at read
    · rename_i shape
      cases read
      have known : digits.map digitValue? =
          (digits.map fun c => (digitValue? c).getD 0).map some := by
        rw [List.map_map]
        apply List.map_congr_left
        intro c member
        obtain ⟨d, found, _⟩ := isDigit_iff.mp (List.all_eq_true.mp shape.2 c member)
        simp [found]
      refine ⟨shape.1, _, (map_digitValue?_eq_iff.mp known).1, ?_, value_eq_ofDigits known⟩
      intro d member
      obtain ⟨c, inside, rfl⟩ := List.mem_map.mp member
      obtain ⟨d, found, below⟩ := isDigit_iff.mp (List.all_eq_true.mp shape.2 c inside)
      simpa [found] using below
    · contradiction
  · rintro ⟨nonempty, values, shown, small, rfl⟩
    have known := map_digitValue?_eq_iff.mpr
      ⟨shown, fun d member => Nat.lt_of_lt_of_le (small d member) narrow⟩
    have all : digits.all (isDigit base) = true := by
      rw [List.all_eq_true]
      intro c member
      have listed : digitValue? c ∈ values.map some := known ▸ List.mem_map_of_mem member
      obtain ⟨d, inside, found⟩ := List.mem_map.mp listed
      exact isDigit_iff.mpr ⟨d, found.symm, small d inside⟩
    rw [if_pos ⟨nonempty, all⟩, value_eq_ofDigits known]

theorem ofInt?_eq_some_iff {n : Int} {v : Int64} :
    ofInt? n = some v ↔ (-2 ^ 63 ≤ n ∧ n ≤ 2 ^ 63 - 1) ∧ v.toInt = n := by
  rw [ofInt?, Int64.toInt_minValue, Int64.toInt_maxValue]
  by_cases fits : -2 ^ 63 ≤ n ∧ n ≤ 2 ^ 63 - 1
  · have same : (Int64.ofInt n).toInt = n := Int64.toInt_ofInt_of_le fits.1 (by omega)
    rw [if_pos fits, Option.some.injEq, ← Int64.toInt_inj, same, eq_comm]
    exact (and_iff_right fits).symm
  · rw [if_neg fits]
    exact iff_of_false (by simp) fun both => fits both.1

theorem all_isDigit_of_read? {base n : Nat} {digits : List Char}
    (read : read? base digits = some n) : digits.all (isDigit base) = true := by
  unfold read? at read
  split at read
  · rename_i shape
    exact shape.2
  · contradiction

theorem read?_zeros {base n : Nat} {digits : List Char} (positive : 0 < base)
    (read : read? base digits = some n) (zeros : Nat) :
    read? base (List.replicate zeros '0' ++ digits) = some n := by
  have zero : isDigit base '0' = true := isDigit_iff.mpr ⟨0, by decide, positive⟩
  unfold read? at read
  split at read
  · rename_i shape
    cases read
    have nonempty : List.replicate zeros '0' ++ digits ≠ [] := by simp [shape.1]
    have all : (List.replicate zeros '0' ++ digits).all (isDigit base) = true := by
      rw [List.all_append, shape.2]
      simp [zero]
    rw [read?, if_pos ⟨nonempty, all⟩, value_zeros]
  · contradiction

/-- A text that writes a number of 64 bits is read as that number. Decimal digits have no mark, so
the order in which the two ways of writing are tried does not matter. -/
theorem parse?_of_writes {text : List Char} {n : Int} {v : Int64} (writes : Writes text n)
    (fits : ofInt? n = some v) : parse? (.ofList text) = some v := by
  rw [parse?, String.toList_ofList, Option.orElse_eq_orElse, Option.orElse_eq_or]
  cases writes with
  | @hexadecimal mark digits n marked denoted =>
    have read := (read?_eq_some_iff (by decide)).mpr denoted
    have hex : hexadecimal? ('0' :: mark :: digits) = some v := by
      simp [hexadecimal?, afterHexMark?, marked, read, fits]
    rw [hex, Option.some_or]
  | @unsigned _ n denoted =>
    have read := (read?_eq_some_iff (by decide)).mpr denoted
    have digits := all_isDigit_of_read? read
    have unmarked : hexadecimal? text = none := by
      rw [hexadecimal?, afterHexMark?_of_digits (all_isDigit_sixteen digits)]
      rfl
    rw [unmarked, Option.none_or, decimal?_of_digits digits, read]
    exact fits
  | @positive digits n denoted =>
    have read := (read?_eq_some_iff (by decide)).mpr denoted
    have unmarked : hexadecimal? ('+' :: digits) = none := rfl
    rw [unmarked, Option.none_or, decimal?, read]
    exact fits
  | @negative digits n denoted =>
    have read := (read?_eq_some_iff (by decide)).mpr denoted
    have unmarked : hexadecimal? ('-' :: digits) = none := rfl
    rw [unmarked, Option.none_or, decimal?, read]
    exact fits

theorem writes_of_parse? {text : String} {v : Int64} (parsed : parse? text = some v) :
    ∃ n, Writes text.toList n ∧ ofInt? n = some v := by
  simp only [parse?, Option.orElse_eq_orElse, Option.orElse_eq_or, Option.or_eq_some_iff] at parsed
  rcases parsed with marked | ⟨_, unmarked⟩
  · obtain ⟨digits, found, read⟩ := Option.bind_eq_some_iff.mp marked
    obtain ⟨n, read, fits⟩ := Option.bind_eq_some_iff.mp read
    obtain ⟨mark, whole, known⟩ := afterHexMark?_eq_some found
    rw [whole]
    exact ⟨n, .hexadecimal known ((read?_eq_some_iff (by decide)).mp read), fits⟩
  · unfold decimal? at unmarked
    split at unmarked
    all_goals
      rename_i whole
      obtain ⟨n, read, fits⟩ := Option.bind_eq_some_iff.mp unmarked
      have denoted := (read?_eq_some_iff (by decide)).mp read
    · rw [whole]
      exact ⟨n, .positive denoted, fits⟩
    · rw [whole]
      exact ⟨-n, .negative denoted, fits⟩
    · exact ⟨n, .unsigned denoted, fits⟩

/-- A text is read as a number exactly if it writes that number and the number is one of 64 bits. So
the decimal form of every such number is read as itself, whatever zeros stand before its digits. -/
theorem parse?_eq_some_iff_writes (text : String) (v : Int64) :
    (parse? text = some v ↔
      ∃ n : Int, Writes text.toList n ∧ (-2 ^ 63 ≤ n ∧ n ≤ 2 ^ 63 - 1) ∧ v.toInt = n) ∧
    (∀ zeros : Nat, parse? (.ofList ((if v.toInt < 0 then ['-'] else []) ++
      (List.replicate zeros '0' ++ Nat.toDigits 10 v.toInt.natAbs))) = some v) ∧
    parse? (decimal v.toInt) = some v := by
  refine ⟨?_, ?_, parse?_decimal v⟩
  · simp only [← ofInt?_eq_some_iff]
    constructor
    · exact writes_of_parse?
    · rintro ⟨n, writes, fits⟩
      simpa using parse?_of_writes writes fits
  · intro zeros
    have fits := ofInt?_toInt v
    have denoted : Denotes 10 (List.replicate zeros '0' ++ Nat.toDigits 10 v.toInt.natAbs)
        v.toInt.natAbs := by
      have read := read?_toDigits (by decide) readable_decimal v.toInt.natAbs
      rw [List.map_id] at read
      exact (read?_eq_some_iff (by decide)).mp (read?_zeros (by decide) read zeros)
    split
    · have number : -(v.toInt.natAbs : Int) = v.toInt := by omega
      rw [← number] at fits
      exact parse?_of_writes (.negative denoted) fits
    · have number : (v.toInt.natAbs : Int) = v.toInt := by omega
      rw [← number] at fits
      exact parse?_of_writes (.unsigned denoted) fits

end StackMachine.Numeral
