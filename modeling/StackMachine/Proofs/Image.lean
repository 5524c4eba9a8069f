import StackMachine.Program.Listing
import StackMachine.Proofs.Loading
import StackMachine.Proofs.Numerals

/-!
A program in its listing and in memory. The listing has a row for each word, and the address in a
row is that of the cell into which a fresh machine loads the word, as long as there is a cell for
it. No two addresses look the same, so the rows tell where each word is.
-/

set_option autoImplicit false

namespace StackMachine

/-- Digits of one width are read as the number they were made from, so other numbers have others. -/
theorem Numeral.hexDigits_injective {width m n : Nat}
    (same : hexDigits width m = hexDigits width n) : m = n := by
  rw [← value_hexDigits width m, same, value_hexDigits]

namespace Address

theorem toList_display (address : Address) :
    address.display.toList =
      '[' :: (Numeral.hexDigits 1 address.segment.toNat ++
        ':' :: (Numeral.hexDigits 3 address.offset.toNat ++ [']'])) := by
  simp [display, Numeral.toList_hex]

/-- Addresses that look the same are the same, since no digit looks like the colon between them. -/
theorem display_injective {a b : Address} (same : a.display = b.display) : a = b := by
  have unmarked : ∀ width n, ':' ∉ Numeral.hexDigits width n := by
    intro width n member
    have digit := List.all_eq_true.mp (Numeral.all_isDigit_hexDigits width n) ':' member
    exact absurd digit (by decide)
  have shown := congrArg (List.tail ∘ String.toList) same
  simp only [Function.comp_apply, toList_display, List.tail_cons] at shown
  have fronts := congrArg (Cut.before ':') shown
  have backs := congrArg (Cut.after ':') shown
  rw [(Cut.cut_append (unmarked _ _) _).1, (Cut.cut_append (unmarked _ _) _).1] at fronts
  rw [(Cut.cut_append (unmarked _ _) _).2, (Cut.cut_append (unmarked _ _) _).2] at backs
  have segment := Numeral.hexDigits_injective fronts
  have offset := Numeral.hexDigits_injective (List.append_cancel_right backs)
  cases a
  cases b
  rw [Address.mk.injEq]
  exact ⟨UInt8.toNat_inj.mp segment, UInt16.toNat_inj.mp offset⟩

end Address

namespace Listing

variable {words : List Word} {i : Nat}

theorem length_rows_table (words : List Word) : (table words).rows.length = words.length := by
  have readings : (disassemble words).length = words.length := Word.length_readings false words
  simp [table, rows, readings]

theorem getElem?_rows_table {word : Word} (found : words[i]? = some word) :
    ∃ line, (disassemble words)[i]? = some line ∧
      (table words).rows[i]? = some [(Address.ofIndex i).display, word.hex, line] := by
  have readings : (disassemble words).length = words.length := Word.length_readings false words
  obtain ⟨inside, _⟩ := List.getElem?_eq_some_iff.mp found
  have shown := List.getElem?_eq_getElem (l := disassemble words) (i := i) (by omega)
  have paired : (words.zip (disassemble words))[i]? = some (word, (disassemble words)[i]) :=
    List.getElem?_zip_eq_some.mpr ⟨found, shown⟩
  refine ⟨_, shown, ?_⟩
  simp [table, rows, paired]

end Listing

/-- The listing of a program that fits into a fresh machine shows its image in memory. There is one
row for each word; the row shows an address that no other row shows, of a cell that holds the word
after the program has been loaded, and with it the form of the word and its line of text. -/
theorem listing_shows_image (segments : UInt8)
    (few : 1 ≤ segments.toNat ∧ segments.toNat ≤ maxSegments) (words : List Word)
    (fits : words.length ≤ segments.toNat * segmentSize) :
    (Listing.table words).rows.length = words.length ∧
    ∃ built loaded, Machine.new segments = .ok built ∧ built.load words = (loaded, .ok ()) ∧
      ∀ i word, words[i]? = some word →
        let address := Address.ofIndex i
        (∃ line, (disassemble words)[i]? = some line ∧
          (Listing.table words).rows[i]? = some [address.display, word.hex, line]) ∧
        address.isCellOf segments = true ∧ loaded.memory.get address = .ok word ∧
        (∀ other : Address, other.display = address.display → other = address) ∧
        ∀ j row, (Listing.table words).rows[j]? = some row →
          row.head? = some address.display → j = i := by
  refine ⟨Listing.length_rows_table words, ?_⟩
  have image : ∀ {address : Address}, address.isCellOf segments = true →
      ((Machine.fresh segments).load words).1.memory.get? address =
        some (words[address.index]?.getD .nop) :=
    fun inside => Machine.get?_load_fresh few.1 fits inside
  obtain ⟨loaded, done, _⟩ := Machine.exists_load_fresh few.1 fits
  rw [done] at image
  refine ⟨_, loaded, Machine.new_eq_ok_iff.mpr ⟨few.1, few.2, rfl⟩, done, ?_⟩
  intro i word found address
  have below : ∀ {j : Nat} {other : Word}, words[j]? = some other →
      j < segments.toNat * segmentSize := by
    intro j other present
    exact Nat.lt_of_lt_of_le (List.getElem?_eq_some_iff.mp present).1 fits
  have number := Address.index_ofIndex_of_lt (below found)
  have inside := Address.isCellOf_ofIndex (below found)
  refine ⟨Listing.getElem?_rows_table found, inside, ?_, ?_, ?_⟩
  · rw [Memory.get, image inside, number, found, Option.getD_some]
  · intro other same
    exact Address.display_injective same
  · intro j row present labelled
    have length := Listing.length_rows_table words
    have inRows := (List.getElem?_eq_some_iff.mp present).1
    have other := List.getElem?_eq_getElem (l := words) (i := j) (by omega)
    obtain ⟨line, _, shown⟩ := Listing.getElem?_rows_table other
    rw [present, Option.some.injEq] at shown
    rw [shown, List.head?_cons, Option.some.injEq] at labelled
    rw [← Address.index_ofIndex_of_lt (below other), Address.display_injective labelled, number]

/-- A number after a whole segment of instructions is listed at, and loaded into, the first cell of
the second segment. -/
theorem listing_shows_image_second :
    let words := List.replicate 1024 Word.nop ++ [.literal 7]
    (Listing.table words).rows[1024]? = some ["[1:000]", "0x00000007", "7"] ∧
      ((Machine.fresh 2).load words).1.memory.get ⟨1, 0⟩ = .ok (.literal 7) := by
  intro words
  have length : words.length = 1025 := by decide +kernel
  have found : words[1024]? = some (.literal 7) := by decide +kernel
  have reading : (disassemble words)[1024]? = some "7" := by decide +kernel
  obtain ⟨_, built, loaded, new, done, shows⟩ := listing_shows_image 2 ⟨by decide, by decide⟩ words
    (by rw [length]; decide)
  obtain ⟨⟨line, shown, row⟩, _, held, _⟩ := shows 1024 _ found
  obtain ⟨_, _, rfl⟩ := Machine.new_eq_ok_iff.mp new
  rw [reading, Option.some.injEq] at shown
  have label : (Address.ofIndex 1024).display = "[1:000]" := by decide +kernel
  have form : (Word.literal 7).hex = "0x00000007" := by decide +kernel
  have cell : Address.ofIndex 1024 = ⟨1, 0⟩ := by decide
  rw [row, label, form, ← shown, done]
  rw [cell] at held
  exact ⟨rfl, held⟩

end StackMachine
