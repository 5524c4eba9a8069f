/-!
Characters: classes of them as ranges of code points, the blanks with trimming and splitting by
them, and names in any letter case. Where a class is a property of Unicode, it is that of version
15.1.
-/

set_option autoImplicit false

namespace StackMachine.Text

/-- The characters in some closed ranges of code points, in rising order. -/
structure CharClass where
  ranges : List (Nat × Nat)
deriving DecidableEq

def CharClass.has (members : CharClass) (c : Char) : Bool :=
  members.ranges.any fun (first, last) => first ≤ c.toNat && c.toNat ≤ last

/-- The characters with the property White_Space. -/
def blanks : CharClass :=
  ⟨[(0x9, 0xD), (0x20, 0x20), (0x85, 0x85), (0xA0, 0xA0), (0x1680, 0x1680), (0x2000, 0x200A),
    (0x2028, 0x2029), (0x202F, 0x202F), (0x205F, 0x205F), (0x3000, 0x3000)]⟩

def isBlank (c : Char) : Bool :=
  blanks.has c

def trim (text : List Char) : List Char :=
  ((text.dropWhile isBlank).reverse.dropWhile isBlank).reverse

/-- The longest runs of characters that are not blank, in order. -/
def fields (text : List Char) : List (List Char) :=
  match text with
  | [] => []
  | c :: rest =>
    if isBlank c then fields rest
    else (c :: rest.takeWhile (!isBlank ·)) :: fields (rest.dropWhile (!isBlank ·))
termination_by text.length
decreasing_by
  · simp
  · exact Nat.lt_succ_of_le (List.dropWhile_sublist _).length_le

/-- True if a text is the name, which is in upper case, up to the case of its ASCII letters. -/
def spells (text name : String) : Bool :=
  text.toList.map Char.toUpper == name.toList

end StackMachine.Text
