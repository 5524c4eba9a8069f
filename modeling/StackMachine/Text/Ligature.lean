import StackMachine.Text.CharColumns

/-!
Ligatures: letters that a letter before them takes in, so that the two share columns. A text is
read from its end, and a ligature waits for the letters before it.
-/

set_option autoImplicit false

namespace StackMachine.Text

/-- Asks its two neighbours to be drawn as one. -/
def joiner : Char :=
  '\u200D'

def alefs : CharClass :=
  ⟨[(0x622, 0x623), (0x625, 0x625), (0x627, 0x627), (0x671, 0x673), (0x675, 0x675), (0x773, 0x774),
    (0x870, 0x882)]⟩

def lams : CharClass :=
  ⟨[(0x644, 0x644), (0x6B5, 0x6B8), (0x76A, 0x76A), (0x8A6, 0x8A6), (0x8C7, 0x8C7)]⟩

/-- Characters without width that keep Arabic letters on their two sides from joining. -/
def joiningBarriers : CharClass :=
  ⟨[(0x605, 0x605), (0x890, 0x891), (0x8E2, 0x8E2), (0x9BE, 0x9BE), (0x9D7, 0x9D7), (0xB3E, 0xB3E),
    (0xB57, 0xB57), (0xBBE, 0xBBE), (0xBD7, 0xBD7), (0xCC0, 0xCC0), (0xCC2, 0xCC2), (0xCC7, 0xCC8),
    (0xCCA, 0xCCB), (0xCD5, 0xCD6), (0xD3E, 0xD3E), (0xD4E, 0xD4E), (0xD57, 0xD57), (0xDCF, 0xDCF),
    (0xDDF, 0xDDF), (0x1160, 0x11FF), (0x180E, 0x180E), (0x1B35, 0x1B35), (0x1B3B, 0x1B3B),
    (0x1B3D, 0x1B3D), (0x1B43, 0x1B43), (0x200C, 0x200D), (0x2065, 0x2069), (0x302E, 0x302F),
    (0x3164, 0x3164), (0xA8FA, 0xA8FA), (0xD7B0, 0xD7C6), (0xD7CB, 0xD7FB), (0xFF9E, 0xFFA0),
    (0xFFF0, 0xFFF8), (0x111C2, 0x111C3), (0x1133E, 0x1133E), (0x11357, 0x11357),
    (0x114B0, 0x114B0), (0x114BD, 0x114BD), (0x115AF, 0x115AF), (0x11930, 0x11930),
    (0x1193F, 0x1193F), (0x11941, 0x11941), (0x11A3A, 0x11A3A), (0x11A84, 0x11A89),
    (0x11D46, 0x11D46), (0x11F02, 0x11F02), (0x1D165, 0x1D165), (0x1D16E, 0x1D172),
    (0xE0000, 0xE0000), (0xE0002, 0xE001F), (0xE0080, 0xE00FF), (0xE01F0, 0xE0FFF)]⟩

/-- Marks that may be ignored, the variation selectors among them. -/
def ignorableMarks : CharClass :=
  ⟨[(0x34F, 0x34F), (0x17B4, 0x17B5), (0x180B, 0x180D), (0x180F, 0x180F), (0xFE00, 0xFE0F),
    (0xE0100, 0xE01EF)]⟩

/-- Khmer letters that can be written below another one. -/
def khmerSubscripts : CharClass :=
  ⟨[(0x1780, 0x1782), (0x1784, 0x1787), (0x1789, 0x178C), (0x178E, 0x1793), (0x1795, 0x1798),
    (0x179B, 0x179D), (0x17A0, 0x17A0), (0x17A2, 0x17A2), (0x17A7, 0x17A7), (0x17AB, 0x17AC),
    (0x17AF, 0x17AF)]⟩

def tifinaghConsonants : CharClass :=
  ⟨[(0x2D31, 0x2D65), (0x2D6F, 0x2D6F)]⟩

/-- Lisu tones that another tone can follow. -/
def lisuFirstTones : CharClass :=
  ⟨[(0xA4F8, 0xA4FB)]⟩

def lisuSecondTones : CharClass :=
  ⟨[(0xA4FC, 0xA4FD)]⟩

/-- The end of a ligature, with what was read before it up to now. -/
inductive Ligature
  | alef
  | lamed
  | joinedLamed
  | bugineseYa
  | joinedBugineseYa
  /-- The vowel sign of the letter before, and a joined ya. -/
  | vowelAndBugineseYa
  | tifinagh
  | joinedTifinagh
  /-- A consonant after the sign that binds consonants. -/
  | tifinaghAfterSign
  | lisuTone
  | oldTurkicI
  | joinedOldTurkicI
  | khmerSubscript
deriving DecidableEq

namespace Ligature

def ofChar? (c : Char) : Option Ligature :=
  if alefs.has c then some alef
  else if c = '\u05DC' then some lamed
  else if c = '\u1A10' then some bugineseYa
  else if tifinaghConsonants.has c then some tifinagh
  else if lisuSecondTones.has c then some lisuTone
  else if c.toNat = 0x10C03 then some oldTurkicI
  else if khmerSubscripts.has c then some khmerSubscript
  else none

def join : Ligature → Ligature
  | lamed => joinedLamed
  | bugineseYa => joinedBugineseYa
  | tifinagh => joinedTifinagh
  | oldTurkicI => joinedOldTurkicI
  | other => other

/-- The columns that a letter of the ligature adds, and the ligature that still waits. -/
def letterBefore? (c : Char) : Ligature → Option (Int × Option Ligature)
  | alef => if lams.has c then some (0, none) else none
  | joinedLamed => if c = '\u05D0' then some (0, none) else none
  | joinedBugineseYa => if c = '\u1A17' then some (0, some vowelAndBugineseYa) else none
  | vowelAndBugineseYa => if c = '\u1A15' then some (0, none) else none
  | tifinagh => if c = '\u2D7F' then some (1, some tifinaghAfterSign) else none
  | joinedTifinagh =>
    if c = '\u2D7F' then some (1, some tifinaghAfterSign)
    else if tifinaghConsonants.has c then some (0, none)
    else none
  | tifinaghAfterSign => if tifinaghConsonants.has c then some (-1, none) else none
  | lisuTone => if lisuFirstTones.has c then some (0, none) else none
  | joinedOldTurkicI => if c.toNat = 0x10C32 then some (0, none) else none
  | khmerSubscript => if c = '\u17D2' then some (-1, none) else none
  | lamed | bugineseYa | oldTurkicI => none

/-- The marks that a ligature waits through. An Arabic one waits through all that is transparent
to joining, and any other through joiners and ignorable marks. -/
def markBefore? (c : Char) (ligature : Ligature) : Option Ligature :=
  match ligature with
  | alef => if charColumns c = 0 ∧ !joiningBarriers.has c then some alef else none
  | other =>
    if c = joiner then some other.join
    else if ignorableMarks.has c then some other
    else none

/-- As `letterBefore?`, for letters and marks. -/
def before? (c : Char) (ligature : Ligature) : Option (Int × Option Ligature) :=
  match ligature.markBefore? c with
  | some waiting => some (0, some waiting)
  | none => ligature.letterBefore? c

end Ligature

end StackMachine.Text
