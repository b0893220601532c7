import FrontEnd.Command.Arguments
import Mathlib.Data.List.Induction
import Mathlib.Data.Nat.Digits.Defs

/-! A single argument of the command that prints tokens: a size as a text, and an option that sets
the chunk size to one. -/

namespace FrontEnd

namespace LexArguments

/-- The text is a number in decimal digits, with a plus sign before them or without. -/
def Writes (text : String) (number : Nat) : Prop :=
  ∃ sign ∈ ["", "+"], ∃ digits : List Char, text = sign ++ String.ofList digits ∧ digits ≠ [] ∧
    (∀ digit ∈ digits, digit.isDigit = true) ∧
    number = Nat.ofDigits 10 (digits.reverse.map fun digit => digit.toNat - '0'.toNat)

def BeginsWithDash (argument : String) : Prop := ∃ rest, argument = "-" ++ rest

/-- The argument sets the chunk size, to a size that 64 bits can hold. -/
def Sets (argument : String) (size : Nat) : Prop :=
  ∃ value, argument = "--chunk-size=" ++ value ∧ Writes value size ∧ 1 ≤ size ∧ size < 2 ^ 64

/-! Sizes as texts. -/

theorem decimalValue_eq_ofDigits (digits : List Char) :
    decimalValue digits
      = Nat.ofDigits 10 (digits.reverse.map fun digit => digit.toNat - '0'.toNat) := by
  induction digits using List.reverseRecOn with
  | nil => rfl
  | append_singleton digits digit ih =>
      rw [List.reverse_append, List.map_append, List.reverse_singleton, List.map_singleton,
        List.singleton_append, Nat.ofDigits_cons, ← ih, decimalValue, List.foldl_append, ← decimalValue]
      exact Nat.add_comm _ _

def unsigned : List Char → List Char
  | '+' :: rest => rest
  | all => all

theorem unsigned_eq_of_isDigit {digits : List Char} (all : ∀ digit ∈ digits, digit.isDigit = true) :
    unsigned digits = digits := by
  unfold unsigned
  split
  · exact absurd (all '+' List.mem_cons_self) (by decide)
  · rfl

theorem exists_sign (text : String) :
    ∃ sign ∈ ["", "+"], text = sign ++ String.ofList (unsigned text.toList) := by
  cases spelled : text.toList with
  | nil => exact ⟨"", by simp, by simpa [unsigned] using spelled⟩
  | cons first rest =>
      by_cases plus : first = '+'
      · subst plus
        refine ⟨"+", by simp, String.toList_inj.mp ?_⟩
        simp [unsigned, spelled]
      · have same : unsigned (first :: rest) = first :: rest := by
          unfold unsigned
          split
          · simp_all
          · rfl
        refine ⟨"", by simp, String.toList_inj.mp ?_⟩
        simp [same, spelled]

theorem parseSize?_eq (text : String) :
    parseSize? text =
      if unsigned text.toList ≠ [] ∧ (unsigned text.toList).all Char.isDigit = true
          ∧ decimalValue (unsigned text.toList) ≤ sizeLimit then
        some (decimalValue (unsigned text.toList))
      else none := rfl

theorem writes_iff {text : String} {number : Nat} :
    Writes text number ↔ unsigned text.toList ≠ [] ∧
      (unsigned text.toList).all Char.isDigit = true ∧
      decimalValue (unsigned text.toList) = number := by
  constructor
  · rintro ⟨sign, signed, digits, rfl, nonempty, all, rfl⟩
    have same : unsigned (sign ++ String.ofList digits).toList = digits := by
      simp only [List.mem_cons, List.not_mem_nil, or_false] at signed
      rcases signed with rfl | rfl
      · simpa using unsigned_eq_of_isDigit all
      · simp [unsigned]
    rw [same, decimalValue_eq_ofDigits]
    exact ⟨nonempty, List.all_eq_true.mpr all, rfl⟩
  · rintro ⟨nonempty, all, rfl⟩
    obtain ⟨sign, signed, spelled⟩ := exists_sign text
    exact ⟨sign, signed, _, spelled, nonempty, List.all_eq_true.mp all, decimalValue_eq_ofDigits _⟩

theorem Writes.unique {text : String} {first second : Nat} (one : Writes text first)
    (other : Writes text second) : first = second :=
  (writes_iff.mp one).2.2.symm.trans (writes_iff.mp other).2.2

theorem parseSize?_eq_some_iff {text : String} {number : Nat} :
    parseSize? text = some number ↔ Writes text number ∧ number < 2 ^ 64 := by
  have limit : sizeLimit + 1 = 2 ^ 64 := rfl
  rw [parseSize?_eq, writes_iff, Option.ite_none_right_eq_some, Option.some_inj]
  constructor
  · rintro ⟨⟨nonempty, all, within⟩, rfl⟩
    exact ⟨⟨nonempty, all, rfl⟩, by omega⟩
  · rintro ⟨⟨nonempty, all, rfl⟩, within⟩
    exact ⟨⟨nonempty, all, by omega⟩, rfl⟩

theorem parseSize?_eq_none_iff {text : String} :
    parseSize? text = none ↔ ∀ size, Writes text size → 2 ^ 64 ≤ size := by
  rw [Option.eq_none_iff_forall_ne_some]
  refine forall_congr' fun size => ?_
  rw [ne_eq, parseSize?_eq_some_iff, not_and, Nat.not_lt]

/-! Arguments as texts. -/

theorem isOption_iff {argument : String} : isOption argument = true ↔ BeginsWithDash argument := by
  rw [isOption, beq_iff_eq, List.head?_eq_some_iff]
  constructor
  · rintro ⟨rest, spelled⟩
    exact ⟨String.ofList rest, String.toList_inj.mp (by simpa using spelled)⟩
  · rintro ⟨rest, rfl⟩
    exact ⟨rest.toList, by simp⟩

theorem toList_chunkSize (value : String) :
    ("--chunk-size=" ++ value).toList = chunkSizeOption ++ value.toList :=
  String.toList_append

theorem chunkSizeValue?_eq_some_iff {argument value : String} :
    chunkSizeValue? argument = some value ↔ argument = "--chunk-size=" ++ value := by
  rw [chunkSizeValue?, Option.ite_none_right_eq_some, Option.some_inj, List.isPrefixOf_iff_prefix]
  constructor
  · rintro ⟨⟨rest, spelled⟩, rfl⟩
    refine String.toList_inj.mp ?_
    rw [toList_chunkSize, String.toList_ofList, ← spelled, List.drop_left]
  · rintro rfl
    rw [toList_chunkSize, List.drop_left]
    exact ⟨List.prefix_append _ _, String.ofList_toList⟩

theorem beginsWithDash_chunkSize (value : String) : BeginsWithDash ("--chunk-size=" ++ value) :=
  ⟨"-chunk-size=" ++ value, String.toList_inj.mp (by simp)⟩

theorem chunkSizeValue?_eq_none_iff {argument : String} :
    chunkSizeValue? argument = none ↔ ∀ value, argument ≠ "--chunk-size=" ++ value := by
  rw [Option.eq_none_iff_forall_ne_some]
  exact forall_congr' fun value => not_congr chunkSizeValue?_eq_some_iff

theorem Sets.beginsWithDash {argument : String} {size : Nat} (sets : Sets argument size) :
    BeginsWithDash argument := by
  obtain ⟨value, rfl, _⟩ := sets
  exact beginsWithDash_chunkSize value

theorem chunkSizeValue?_of_plain {argument : String} (plain : ¬BeginsWithDash argument) :
    chunkSizeValue? argument = none := by
  rw [chunkSizeValue?_eq_none_iff]
  rintro value rfl
  exact plain (beginsWithDash_chunkSize value)

theorem Sets.unique {argument : String} {first second : Nat} (one : Sets argument first)
    (other : Sets argument second) : first = second := by
  obtain ⟨value, rfl, writes, _⟩ := one
  obtain ⟨same, spelled, again, _⟩ := other
  rw [String.append_right_inj] at spelled
  subst spelled
  exact writes.unique again

theorem bytes_ofNat {size : Nat} (positive : 1 ≤ size) : (ChunkSize.ofNat size).bytes = size :=
  Nat.max_eq_left positive

theorem Sets.bytes {argument : String} {size : Nat} (sets : Sets argument size) :
    (ChunkSize.ofNat size).bytes = size := by
  obtain ⟨_, _, _, positive, _⟩ := sets
  exact bytes_ofNat positive

end LexArguments

end FrontEnd
