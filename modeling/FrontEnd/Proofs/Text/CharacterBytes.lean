import FrontEnd.Text.Utf8
import Mathlib.Data.List.Basic
import Mathlib.Tactic.SplitIfs

/-! Which bytes are a character, told by their ranges. A character is spelled with as few bytes as
its number fits into; half a surrogate pair and a number above 0x10FFFF have no spelling. -/

namespace FrontEnd.Utf8

theorem isContinuation_iff {byte : UInt8} :
    isContinuation byte = true ↔ 0x80 ≤ byte.toNat ∧ byte.toNat ≤ 0xbf := by
  simp [isContinuation, UInt8.le_iff_toNat_le]

theorem leadsLongCharacter_iff {first second : UInt8} :
    leadsLongCharacter first second = true ↔
      (0xe0 ≤ first.toNat ∧ first.toNat ≤ 0xf4) ∧ (0x80 ≤ second.toNat ∧ second.toNat ≤ 0xbf) ∧
        (first.toNat = 0xe0 → 0xa0 ≤ second.toNat) ∧ (first.toNat = 0xed → second.toNat ≤ 0x9f) ∧
        (first.toNat = 0xf0 → 0x90 ≤ second.toNat) ∧ (first.toNat = 0xf4 → second.toNat ≤ 0x8f) := by
  have same (value : UInt8) : first = value ↔ first.toNat = value.toNat := UInt8.toNat_inj.symm
  simp only [leadsLongCharacter, beq_iff_eq, same, isContinuation, UInt8.le_iff_toNat_le,
    UInt8.reduceToNat]
  split_ifs <;> simp only [Bool.and_eq_true, decide_eq_true_eq] <;> omega

/-- The byte sequences of one character. The second byte of a long one depends on the first. -/
inductive IsCharacter : List UInt8 → Prop
  | one {first} : first.toNat ≤ 0x7f → IsCharacter [first]
  | two {first second} : 0xc2 ≤ first.toNat → first.toNat ≤ 0xdf → isContinuation second = true →
      IsCharacter [first, second]
  | three {first second third} : first.toNat < 0xf0 → leadsLongCharacter first second = true →
      isContinuation third = true → IsCharacter [first, second, third]
  | four {first second third fourth} : 0xf0 ≤ first.toNat → leadsLongCharacter first second = true →
      isContinuation third = true → isContinuation fourth = true →
      IsCharacter [first, second, third, fourth]

theorem IsCharacter.isContinuation_of_mem_tail {bytes : List UInt8} (spelled : IsCharacter bytes) :
    ∀ byte ∈ bytes.tail, isContinuation byte = true := by
  have second_of_leads {first second : UInt8} (leads : leadsLongCharacter first second = true) :
      isContinuation second = true :=
    isContinuation_iff.mpr (leadsLongCharacter_iff.mp leads).2.1
  cases spelled with
  | one single => simp
  | two low high continued => simpa using continued
  | three short leads continued => simpa using ⟨second_of_leads leads, continued⟩
  | four long leads continued finished =>
      simpa using ⟨second_of_leads leads, continued, finished⟩

theorem isCharacter_utf8EncodeChar (character : Char) :
    IsCharacter (String.utf8EncodeChar character) := by
  have valid : character.val.toNat < 0xd800 ∨
      0xdfff < character.val.toNat ∧ character.val.toNat < 0x110000 := character.valid
  simp only [String.utf8EncodeChar]
  generalize character.val.toNat = number at valid
  split_ifs with single double triple
  · apply IsCharacter.one
    rw [UInt8.toNat_ofNat']
    omega
  · apply IsCharacter.two
    · rw [UInt8.toNat_ofNat']
      omega
    · rw [UInt8.toNat_ofNat']
      omega
    · rw [isContinuation_iff, UInt8.toNat_ofNat']
      omega
  · apply IsCharacter.three
    · rw [UInt8.toNat_ofNat']
      omega
    · rw [leadsLongCharacter_iff, UInt8.toNat_ofNat', UInt8.toNat_ofNat']
      omega
    · rw [isContinuation_iff, UInt8.toNat_ofNat']
      omega
  · apply IsCharacter.four
    · rw [UInt8.toNat_ofNat']
      omega
    · rw [leadsLongCharacter_iff, UInt8.toNat_ofNat', UInt8.toNat_ofNat']
      omega
    · rw [isContinuation_iff, UInt8.toNat_ofNat']
      omega
    · rw [isContinuation_iff, UInt8.toNat_ofNat']
      omega

theorem exists_val_eq (number : Nat)
    (valid : number < 0xd800 ∨ 0xdfff < number ∧ number < 0x110000) :
    ∃ character : Char, character.val.toNat = number := by
  refine ⟨Char.ofNatAux number valid, ?_⟩
  exact UInt32.toNat_ofNatLT

theorem IsCharacter.exists_utf8EncodeChar {bytes : List UInt8} (spelled : IsCharacter bytes) :
    ∃ character, String.utf8EncodeChar character = bytes := by
  -- behind the mark of its length a byte gives a digit of the number, in base 64
  cases spelled with
  | @one first single =>
      obtain ⟨character, number⟩ := exists_val_eq first.toNat (by omega)
      refine ⟨character, ?_⟩
      rw [String.utf8EncodeChar, number]
      simp only [if_pos single, UInt8.ofNat_toNat]
  | @two first second low high continued =>
      rw [isContinuation_iff] at continued
      obtain ⟨character, number⟩ :=
        exists_val_eq ((first.toNat - 0xc0) * 64 + (second.toNat - 0x80)) (by omega)
      refine ⟨character, ?_⟩
      simp only [String.utf8EncodeChar, number]
      rw [if_neg (by omega), if_pos (by omega)]
      simp only [List.cons.injEq, UInt8.ofNat_eq_iff_mod_eq_toNat, and_true]
      omega
  | @three first second third short leads continued =>
      rw [leadsLongCharacter_iff] at leads
      rw [isContinuation_iff] at continued
      obtain ⟨character, number⟩ :=
        exists_val_eq ((first.toNat - 0xe0) * 4096 + (second.toNat - 0x80) * 64
          + (third.toNat - 0x80)) (by omega)
      refine ⟨character, ?_⟩
      simp only [String.utf8EncodeChar, number]
      rw [if_neg (by omega), if_neg (by omega), if_pos (by omega)]
      simp only [List.cons.injEq, UInt8.ofNat_eq_iff_mod_eq_toNat, and_true]
      omega
  | @four first second third fourth long leads continued finished =>
      rw [leadsLongCharacter_iff] at leads
      rw [isContinuation_iff] at continued finished
      obtain ⟨character, number⟩ :=
        exists_val_eq ((first.toNat - 0xf0) * 262144 + (second.toNat - 0x80) * 4096
          + (third.toNat - 0x80) * 64 + (fourth.toNat - 0x80)) (by omega)
      refine ⟨character, ?_⟩
      simp only [String.utf8EncodeChar, number]
      rw [if_neg (by omega), if_neg (by omega), if_neg (by omega)]
      simp only [List.cons.injEq, UInt8.ofNat_eq_iff_mod_eq_toNat, and_true]
      omega

inductive IsText : List UInt8 → Prop
  | nil : IsText []
  | cons {character rest} : IsCharacter character → IsText rest → IsText (character ++ rest)

theorem isText_flatMap (characters : List Char) :
    IsText (characters.flatMap String.utf8EncodeChar) := by
  induction characters with
  | nil => exact .nil
  | cons character rest ih =>
      rw [List.flatMap_cons]
      exact .cons (isCharacter_utf8EncodeChar character) ih

theorem IsText.exists_flatMap {bytes : List UInt8} (text : IsText bytes) :
    ∃ characters : List Char, characters.flatMap String.utf8EncodeChar = bytes := by
  induction text with
  | nil => exact ⟨[], rfl⟩
  | cons spelled _ ih =>
      obtain ⟨character, rfl⟩ := spelled.exists_utf8EncodeChar
      obtain ⟨rest, rfl⟩ := ih
      exact ⟨character :: rest, List.flatMap_cons⟩

theorem isText_iff_exists_utf8Encode {bytes : ByteArray} :
    IsText bytes.data.toList ↔ ∃ characters : List Char, bytes = characters.utf8Encode := by
  constructor
  · intro text
    obtain ⟨characters, same⟩ := text.exists_flatMap
    refine ⟨characters, ?_⟩
    apply ByteArray.ext
    apply Array.toList_inj.mp
    rw [List.utf8Encode, List.toList_data_toByteArray, same]
  · rintro ⟨characters, rfl⟩
    rw [List.utf8Encode, List.toList_data_toByteArray]
    exact isText_flatMap characters

end FrontEnd.Utf8
