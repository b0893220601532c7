import FrontEnd.Proofs.Source.Place
import FrontEnd.Proofs.Text.CharacterBytes
import Mathlib

/-! Which bytes are taken as the text of a source, and where other bytes stop being text. The
characters that a cursor finds in the source are those that its bytes encode. -/

namespace FrontEnd

namespace Utf8

variable {bytes : ByteArray} {start : Nat} {character : Char}

/-- The first bytes, up to this length, are whole characters. -/
def IsTextUpTo (bytes : ByteArray) (length : Nat) : Prop :=
  ∃ characters : List Char, bytes.extract 0 length = characters.utf8Encode

theorem extract_of_utf8DecodeChar? (decoded : bytes.utf8DecodeChar? start = some character) :
    bytes.extract start (start + character.utf8Size) = [character].utf8Encode := by
  have inside := ByteArray.le_size_of_utf8DecodeChar?_eq_some decoded
  rw [ByteArray.utf8DecodeChar?_eq_utf8DecodeChar?_extract] at decoded
  rw [List.utf8Encode_singleton, String.toByteArray_utf8EncodeChar_of_utf8DecodeChar?_eq_some decoded,
    ByteArray.extract_extract, Nat.add_zero, Nat.min_eq_left inside]

theorem IsTextUpTo.next (text : IsTextUpTo bytes start)
    (decoded : bytes.utf8DecodeChar? start = some character) :
    IsTextUpTo bytes (start + character.utf8Size) := by
  obtain ⟨characters, front⟩ := text
  refine ⟨characters ++ [character], ?_⟩
  rw [List.utf8Encode_append, ← front, ← extract_of_utf8DecodeChar? decoded]
  exact ByteArray.extract_eq_extract_append_extract start (Nat.zero_le _) (Nat.le_add_right _ _)

theorem isTextUpTo_decodedEnd (within : start ≤ bytes.size) (text : IsTextUpTo bytes start) :
    decodedEnd bytes start ≤ bytes.size ∧ IsTextUpTo bytes (decodedEnd bytes start) := by
  fun_induction decodedEnd bytes start with
  | case1 start inside character decoded ih =>
      exact ih (ByteArray.le_size_of_utf8DecodeChar?_eq_some decoded) (text.next decoded)
  | case2 start inside broken => exact ⟨within, text⟩
  | case3 start outside => exact ⟨within, text⟩

theorem le_decodedEnd (bytes : ByteArray) (start : Nat) : start ≤ decodedEnd bytes start := by
  fun_induction decodedEnd bytes start with
  | case1 start inside character decoded ih => omega
  | case2 => omega
  | case3 => omega

theorem size_le_decodedEnd (before passed : List Char) (rest : ByteArray) :
    (before ++ passed).utf8Encode.size
      ≤ decodedEnd ((before ++ passed).utf8Encode ++ rest) before.utf8Encode.size := by
  induction passed generalizing before with
  | nil =>
      rw [List.append_nil]
      apply le_decodedEnd
  | cons character passed ih =>
      have decoded := ByteArray.utf8DecodeChar?_append_eq_some
        (utf8DecodeChar?_utf8Encode before character passed) rest
      have inside := ByteArray.le_size_of_utf8DecodeChar?_eq_some decoded
      have width := character.utf8Size_pos
      have next : before.utf8Encode.size + character.utf8Size
          = (before ++ [character]).utf8Encode.size := by
        simp [size_utf8Encode]
      have later := ih (before ++ [character])
      rw [List.append_assoc, List.singleton_append] at later
      rw [decodedEnd, if_pos (by omega), decoded]
      simp only [next]
      exact later

theorem isGreatest_validLength (bytes : ByteArray) :
    IsGreatest {length | length ≤ bytes.size ∧ IsTextUpTo bytes length} (validLength bytes) := by
  constructor
  · have start : IsTextUpTo bytes 0 := ⟨[], by simp⟩
    exact isTextUpTo_decodedEnd (Nat.zero_le _) start
  · rintro length ⟨within, characters, front⟩
    have whole : characters.utf8Encode ++ bytes.extract length bytes.size = bytes := by
      rw [← front, ← ByteArray.extract_eq_extract_append_extract length (Nat.zero_le _) within]
      exact ByteArray.extract_zero_size
    have size : characters.utf8Encode.size = length := by
      rw [← front, ByteArray.size_extract]
      omega
    have reached := size_le_decodedEnd [] characters (bytes.extract length bytes.size)
    rw [List.nil_append, whole, size] at reached
    exact reached

theorem isTextUpTo_size_iff :
    IsTextUpTo bytes bytes.size ↔ ∃ characters : List Char, bytes = characters.utf8Encode := by
  rw [IsTextUpTo, ByteArray.extract_zero_size]

end Utf8

namespace Cursor

def charactersAhead (cursor : Cursor) : List Char :=
  if cursor.isAtEnd then [] else cursor.peek :: cursor.advance.charactersAhead
termination_by cursor.remaining
decreasing_by exact remaining_advance_lt (by simpa using ‹¬cursor.isAtEnd = true›)

theorem Divides.charactersAhead_eq {cursor : Cursor} {source : SourceText}
    {before ahead : List Char} (divides : cursor.Divides source before ahead) :
    cursor.charactersAhead = ahead := by
  induction ahead generalizing cursor before with
  | nil =>
      rw [charactersAhead, divides.isAtEnd_eq]
      simp
  | cons character rest ih =>
      rw [charactersAhead, divides.isAtEnd_eq, divides.peek_eq, ih divides.advance]
      simp

end Cursor

namespace SourceText

theorem ofBytes_toUTF8 (id : PathId) (text : String) : ofBytes id text.toUTF8 = ofText id text := by
  have whole : String.fromUTF8? text.toUTF8 = some text := by
    rw [String.toUTF8_eq_toByteArray, String.fromUTF8?, dif_pos text.isValidUTF8]
    rfl
  rw [ofBytes, Utf8.decode, whole]

theorem ofBytes_of_invalid (id : PathId) {bytes : ByteArray}
    (invalid : ∀ text : String, text.toUTF8 ≠ bytes) :
    ofBytes id bytes = .error (.invalidUtf8 (Utf8.validLength bytes)) := by
  have refused : ¬ bytes.IsValidUTF8 := fun valid => invalid (String.fromUTF8 bytes valid) rfl
  simp [ofBytes, Utf8.decode, String.fromUTF8?, refused]

theorem ofBytes_utf8Encode (id : PathId) {characters : List Char}
    (limited : characters.utf8Encode.size ≤ sourceLimit) :
    ∃ source, ofBytes id characters.utf8Encode = .ok source ∧ source.path = id ∧
      source.text.toList = characters := by
  have same : (String.ofList characters).toUTF8 = characters.utf8Encode := String.toByteArray_ofList
  have fits : (String.ofList characters).utf8ByteSize ≤ sourceLimit := by
    rwa [← String.size_toByteArray, String.toByteArray_ofList]
  refine ⟨⟨id, String.ofList characters, fits⟩, ?_, rfl, String.toList_ofList⟩
  rw [← same, ofBytes_toUTF8, ofText, dif_pos fits]

theorem ofBytes_of_no_text (id : PathId) {bytes : ByteArray}
    (broken : ¬∃ characters : List Char, bytes = characters.utf8Encode) :
    ofBytes id bytes = .error (.invalidUtf8 (Utf8.validLength bytes)) := by
  apply ofBytes_of_invalid
  rintro text rfl
  exact broken ⟨text.toList, String.utf8Encode_toList.symm⟩

/-- Bytes become a source exactly when they encode characters, and these are what a cursor shows on
its way through the source. Other bytes are refused at the end of the longest text they begin with. -/
theorem ofBytes_decodes (id : PathId) (bytes : ByteArray) (limited : bytes.size ≤ sourceLimit) :
    ((∃ source, ofBytes id bytes = .ok source) ↔
      ∃ characters : List Char, bytes = characters.utf8Encode) ∧
    (Utf8.IsText bytes.data.toList ↔ ∃ characters : List Char, bytes = characters.utf8Encode) ∧
    (∀ characters : List Char, bytes = characters.utf8Encode →
      ∃ source, ofBytes id bytes = .ok source ∧ source.path = id ∧ source.bytes = bytes ∧
        source.cursor.charactersAhead = characters) ∧
    ((¬∃ characters : List Char, bytes = characters.utf8Encode) →
      ∃ offset, ofBytes id bytes = .error (.invalidUtf8 offset) ∧ offset < bytes.size ∧
        IsGreatest {length | length ≤ bytes.size ∧
          ∃ characters : List Char, bytes.extract 0 length = characters.utf8Encode} offset) := by
  have accepted (characters : List Char) (same : bytes = characters.utf8Encode) :
      ∃ source, ofBytes id bytes = .ok source ∧ source.path = id ∧ source.bytes = bytes ∧
        source.cursor.charactersAhead = characters := by
    subst same
    obtain ⟨source, made, path, text⟩ := ofBytes_utf8Encode id limited
    refine ⟨source, made, path, ?_, ?_⟩
    · rw [source.bytes_eq, text]
    · rw [(Cursor.divides_start source).charactersAhead_eq, text]
  refine ⟨?_, Utf8.isText_iff_exists_utf8Encode, accepted, ?_⟩
  · constructor
    · rintro ⟨source, made⟩
      by_contra broken
      rw [ofBytes_of_no_text id broken] at made
      cases made
    · rintro ⟨characters, same⟩
      obtain ⟨source, made, _⟩ := accepted characters same
      exact ⟨source, made⟩
  · intro broken
    have longest := Utf8.isGreatest_validLength bytes
    refine ⟨_, ofBytes_of_no_text id broken, ?_, longest⟩
    obtain ⟨within, text⟩ := longest.1
    by_contra whole
    have all : Utf8.validLength bytes = bytes.size := by omega
    rw [all, Utf8.isTextUpTo_size_iff] at text
    exact broken text

theorem ofBytes_of_surrogate :
    (∃ source, ofBytes ⟨1⟩ ⟨#[0x61, 0xc3, 0xa9]⟩ = .ok source ∧
      source.cursor.charactersAhead = ['a', 'é']) ∧
    ofBytes ⟨1⟩ ⟨#[0x61, 0xed, 0xa0, 0x80]⟩ = .error (.invalidUtf8 1) ∧
    ¬Utf8.IsText [0x61, 0xed, 0xa0, 0x80] ∧
    IsGreatest {length | length ≤ 4 ∧ ∃ characters : List Char,
      (⟨#[0x61, 0xed, 0xa0, 0x80]⟩ : ByteArray).extract 0 length = characters.utf8Encode} 1 := by
  have refused : ofBytes ⟨1⟩ ⟨#[0x61, 0xed, 0xa0, 0x80]⟩ = .error (.invalidUtf8 1) := by cbv
  obtain ⟨_, _, accepted, _⟩ := ofBytes_decodes ⟨1⟩ ⟨#[0x61, 0xc3, 0xa9]⟩ (by decide)
  obtain ⟨source, made, _, _, characters⟩ := accepted ['a', 'é'] (by decide)
  obtain ⟨taken, ranges, _, stopped⟩ :=
    ofBytes_decodes ⟨1⟩ ⟨#[0x61, 0xed, 0xa0, 0x80]⟩ (by decide)
  have broken : ¬∃ characters : List Char, ⟨#[0x61, 0xed, 0xa0, 0x80]⟩ = characters.utf8Encode := by
    rw [← taken]
    rintro ⟨source, made⟩
    rw [refused] at made
    cases made
  obtain ⟨offset, found, _, longest⟩ := stopped broken
  cases refused.symm.trans found
  exact ⟨⟨source, made, characters⟩, refused, fun text => broken (ranges.mp text), longest⟩

end SourceText

end FrontEnd
