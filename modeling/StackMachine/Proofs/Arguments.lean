import StackMachine.Command.Request
import StackMachine.Proofs.Numerals

/-!
Command lines as they are read. Asking for debugging leaves all else that is asked for as it is, and
every count of segments that fits in a byte can be asked for.
-/

set_option autoImplicit false

namespace StackMachine

namespace Request

namespace Draft

variable {draft next : Draft} {settings : Settings}

/-- The draft of the same command line with debugging asked for. -/
def debugged (draft : Draft) : Draft :=
  { draft with debug := true }

theorem withFile?_debugged {file : String} (named : draft.withFile? file = some next) :
    next.debug = draft.debug ∧ draft.debugged.withFile? file = some next.debugged := by
  unfold withFile? at named ⊢
  by_cases refused : file = "" ∨ draft.file?.isSome = true
  · rw [if_pos refused] at named
    cases named
  · rw [if_neg refused] at named
    cases named
    exact ⟨rfl, if_neg refused⟩

theorem withSegments?_debugged {text : List Char} (counted : draft.withSegments? text = some next) :
    next.debug = draft.debug ∧ draft.debugged.withSegments? text = some next.debugged := by
  unfold withSegments? at counted ⊢
  by_cases refused : draft.segments?.isSome = true
  · rw [if_pos refused] at counted
    cases counted
  · rw [if_neg refused] at counted
    obtain ⟨segments, read, rfl⟩ := Option.map_eq_some_iff.mp counted
    refine ⟨rfl, ?_⟩
    rw [read]
    exact if_neg refused

theorem finish_debugged (asked : draft.finish = .interpret settings)
    (quiet : settings.debug = false) :
    draft.debug = false ∧ draft.debugged.finish = .interpret { settings with debug := true } := by
  unfold finish at asked ⊢
  cases named : draft.file? with
  | none =>
    rw [named] at asked
    cases asked
  | some file =>
    rw [named] at asked
    cases asked
    refine ⟨quiet, ?_⟩
    simp [debugged, named]

theorem readFiles_debugged {files : List String}
    (asked : draft.readFiles files = .interpret settings) (quiet : settings.debug = false) :
    draft.debug = false ∧
      draft.debugged.readFiles files = .interpret { settings with debug := true } := by
  fun_induction Draft.readFiles draft files with
  | case1 draft => exact finish_debugged asked quiet
  | case2 draft file rest next named ih =>
    obtain ⟨kept, same⟩ := withFile?_debugged named
    rw [readFiles, same, ← kept]
    exact ih asked
  | case3 => cases asked

theorem read_file {file : String} (plain : isOption file = false) (rest : List String) :
    draft.read (file :: rest) = (draft.withFile? file).elim .refused (·.read rest) := by
  refine (read.eq_def draft (file :: rest)).trans ?_
  dsimp only
  split
  -- Each row of the match but the last starts with a hyphen and has more after it.
  case h_9 =>
    rw [if_neg (by simp [plain])]
    cases draft.withFile? file <;> rfl
  all_goals
    rename_i spelled
    simp [isOption, ← String.length_toList, spelled] at plain

/-- Arguments that do not ask for debugging are read alike where it has been asked for. -/
theorem read_debugged {arguments : List String} (asked : draft.read arguments = .interpret settings)
    (quiet : settings.debug = false) :
    draft.debug = false ∧
      draft.debugged.read arguments = .interpret { settings with debug := true } := by
  fun_induction Draft.read draft arguments with
  | case1 draft => exact finish_debugged asked quiet
  | case2 draft argument rest files =>
    unfold read
    simp only [files]
    exact readFiles_debugged asked quiet
  | case3 draft argument rest debug next switched ih =>
    -- Debugging is asked for here, so the settings have it.
    have loud : next.debug = true := by
      unfold withDebug? at switched
      split at switched
      · cases switched
      · cases switched
        rfl
    rw [(ih asked).1] at loud
    cases loud
  | case7 draft argument mem value rest plain next counted ih =>
    obtain ⟨kept, same⟩ := withSegments?_debugged counted
    unfold read
    simp only [mem, plain, Bool.false_eq_true, if_false, same, ← kept]
    exact ih asked
  | case9 draft argument rest value mem next counted ih =>
    obtain ⟨kept, same⟩ := withSegments?_debugged counted
    unfold read
    simp only [mem, same, ← kept]
    exact ih asked
  | case16 draft file rest plain next named _ _ _ _ _ _ _ _ ih =>
    obtain ⟨kept, same⟩ := withFile?_debugged named
    rw [read_file (by simpa using plain), same, ← kept]
    exact ih asked
  | _ => cases asked

theorem toList_decimal_count (segments : UInt8) :
    (Numeral.decimal segments.toNat).toList = Nat.toDigits 10 segments.toNat ∧
      (Nat.toDigits 10 segments.toNat).all (Numeral.isDigit 10) = true := by
  constructor
  · rw [Numeral.toList_decimal, Numeral.decimalDigits, if_neg (by omega), Int.natAbs_natCast]
  · simpa using Numeral.all_isDigit_toDigits (by decide) Numeral.readable_decimal segments.toNat

theorem isOption_decimal (segments : UInt8) :
    isOption (Numeral.decimal segments.toNat) = false := by
  obtain ⟨text, digits⟩ := toList_decimal_count segments
  have unsigned : (Nat.toDigits 10 segments.toNat).head? ≠ some '-' := by
    intro signed
    have digit := List.all_eq_true.mp digits '-' (List.mem_of_head? signed)
    exact absurd digit (by decide)
  simp [isOption, text, unsigned]

theorem segmentCount?_decimal (segments : UInt8) :
    segmentCount? (Numeral.decimal segments.toNat).toList = some segments := by
  obtain ⟨text, digits⟩ := toList_decimal_count segments
  have small := segments.toNat_lt
  have read : Numeral.read? 10 (Nat.toDigits 10 segments.toNat) = some segments.toNat := by
    simpa using Numeral.read?_toDigits (by decide) Numeral.readable_decimal segments.toNat
  have number : (Int64.ofNat segments.toNat).toInt = segments.toNat :=
    Int64.toInt_ofNat_of_lt (by omega)
  have fits : Numeral.ofInt? segments.toNat = some (Int64.ofNat segments.toNat) := by
    rw [← number, Numeral.ofInt?_toInt]
  have byte : 0 ≤ Int64.ofNat segments.toNat ∧ Int64.ofNat segments.toNat ≤ 255 := by
    rw [Int64.le_iff_toInt_le, Int64.le_iff_toInt_le, number]
    change (0 : Int) ≤ segments.toNat ∧ (segments.toNat : Int) ≤ 255
    omega
  rw [text, segmentCount?, Numeral.decimal?_of_digits digits, read, Option.bind_some, fits,
    Option.bind_some, if_pos byte, number]
  simp

end Draft

/-- A command line that asks for no debugging asks for it with the option in front. -/
theorem ofArguments_debug {arguments : List String} {file : String} {segments : UInt8}
    (asked : ofArguments arguments = .interpret ⟨file, segments, false⟩) :
    ofArguments ("--debug" :: arguments) = .interpret ⟨file, segments, true⟩ :=
  (Draft.read_debugged asked rfl).2

theorem ofArguments_mem {file : String} (named : file ≠ "") (plain : Draft.isOption file = false)
    (segments : UInt8) :
    ofArguments ["--mem", Numeral.decimal segments.toNat, file] =
      .interpret ⟨file, segments, false⟩ := by
  have last : Draft.read ⟨none, some segments, false⟩ [file] =
      .interpret ⟨file, segments, false⟩ := by
    rw [Draft.read_file plain]
    simp [Draft.withFile?, named, Draft.read, Draft.finish]
  rw [ofArguments, Draft.read]
  simp [Draft.isOption_decimal, Draft.segmentCount?_decimal, Draft.withSegments?, Draft.empty, last]

end Request

end StackMachine
