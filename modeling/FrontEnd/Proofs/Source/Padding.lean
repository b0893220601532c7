import FrontEnd.Proofs.Source.Issues
import FrontEnd.Proofs.Text.CharacterBytes
import Mathlib.Order.Bounds.Defs

/-! The padded bytes of a source. They are its text and zero bytes behind it, up to a multiple of
64, and a cursor that looks for a character among them always finds one: its operations give what
they would give if every look were checked. -/

namespace FrontEnd

namespace SourceText

theorem and_lineMask {number : Nat} (small : number < 2 ^ 64) :
    number &&& (2 ^ 64 - 64) = number / 64 * 64 := by
  apply Nat.eq_of_testBit_eq
  intro index
  have mask : 2 ^ 64 - 64 = (2 ^ 58 - 1) * 2 ^ 6 := by decide
  have lines : number / 64 * 64 = number / 2 ^ 6 * 2 ^ 6 := rfl
  rw [mask, lines, Nat.testBit_and, Nat.testBit_mul_two_pow, Nat.testBit_mul_two_pow,
    Nat.testBit_div_two_pow, Nat.testBit_two_pow_sub_one]
  by_cases low : 6 ≤ index
  · rw [Nat.sub_add_cancel low]
    by_cases high : index - 6 < 58
    · simp [low, high]
    · have above : number < 2 ^ index := Nat.lt_of_lt_of_le small
        (Nat.pow_le_pow_right (by decide) (by omega))
      simp [Nat.testBit_lt_two_pow above]
  · simp [low]

theorem isLeast_paddedLength (length : Nat) :
    IsLeast {size | 64 ∣ size ∧ length + 4 ≤ size} (paddedLength length) := by
  constructor
  · refine ⟨Nat.dvd_mul_left _ _, ?_⟩
    rw [paddedLength]
    omega
  · rintro size ⟨⟨lines, rfl⟩, room⟩
    rw [paddedLength]
    omega

theorem toNat_and_lineMask {length : Nat} (limited : length ≤ sourceLimit) :
    ((length.toUInt64 + 4 + 64 - 1) &&& ~~~(64 - 1)).toNat = paddedLength length := by
  have small : length + 67 < 2 ^ 64 := by
    rw [sourceLimit] at limited
    omega
  have same : length.toUInt64.toNat = length :=
    UInt64.toNat_ofNat_of_lt' (Nat.lt_of_add_right_lt small)
  have number : (length.toUInt64 + 4 + 64 - 1).toNat = length + 67 := by
    rw [UInt64.toNat_sub, UInt64.toNat_add, UInt64.toNat_add, same]
    simp only [UInt64.reduceToNat]
    omega
  have mask : (~~~(64 - 1) : UInt64).toNat = 2 ^ 64 - 64 := by decide
  rw [UInt64.toNat_and, number, mask, and_lineMask small]
  rfl

variable {source : SourceText}

theorem length_le_paddedLength (source : SourceText) :
    source.length + 4 ≤ paddedLength source.length :=
  (isLeast_paddedLength source.length).1.2

theorem size_padded (source : SourceText) : source.padded.size = paddedLength source.length := by
  have zeros : (⟨Array.replicate (paddedLength source.length - source.length) 0⟩ : ByteArray).size
      = paddedLength source.length - source.length := Array.size_replicate
  have length : source.bytes.size = source.length := rfl
  have room := source.length_le_paddedLength
  rw [padded, ByteArray.size_append, zeros, length]
  omega

theorem extract_padded (source : SourceText) :
    source.padded.extract 0 source.length = source.bytes :=
  ByteArray.extract_append_eq_left rfl

theorem getElem?_padded_eq_zero {index : Nat} (behind : source.length ≤ index)
    (inside : index < source.padded.size) : source.padded[index]? = some 0 := by
  obtain ⟨further, rfl⟩ := Nat.exists_eq_add_of_le behind
  have within : further < paddedLength source.length - source.length := by
    rw [size_padded] at inside
    omega
  have moved := Utf8.getElem?_append_size_add source.bytes
    ⟨Array.replicate (paddedLength source.length - source.length) 0⟩ further
  refine moved.trans ?_
  rw [Utf8.getElem?_eq_getElem?_data, Array.getElem?_replicate, if_pos within]

theorem isText_padded (source : SourceText) : Utf8.IsText source.padded.data.toList :=
  Utf8.isText_iff_exists_utf8Encode.mpr ⟨_, source.padded_eq_utf8Encode⟩

theorem slice?_whole (source : SourceText) :
    source.cursor.slice? 0 source.length = some source.text := by
  have padded : source.cursor.padded = ([] ++ (source.text.toList ++ source.padding)).utf8Encode :=
    source.padded_eq_utf8Encode
  have cut := Cursor.slice?_utf8Encode [] source.text.toList source.padding padded
  rwa [List.nil_append, ← source.bytes_eq, String.ofList_toList] at cut

end SourceText

theorem eq_ofNat_of_utf8EncodeChar {character : Char} {first : UInt8} {rest : List UInt8}
    (spelled : String.utf8EncodeChar character = first :: rest) (single : first < 0x80) :
    character = Char.ofNat first.toNat := by
  have low : first.toNat < 0x80 := UInt8.lt_iff_toNat_lt.mp single
  have number : character.val.toNat < 0x110000 := by
    rcases character.valid with below | above
    · exact Nat.lt_trans below (by decide)
    · exact above.2
  have same : character.val.toNat = first.toNat := by
    simp only [String.utf8EncodeChar] at spelled
    generalize character.val.toNat = value at spelled number
    split_ifs at spelled
    all_goals
      have head := congrArg UInt8.toNat (List.cons.inj spelled).1
      rw [UInt8.toNat_ofNat'] at head
      omega
  rw [← same]
  exact (Char.ofNat_toNat character).symm

namespace Cursor

/-! The operations of a cursor with every look at the bytes checked. -/

/-- The character at a byte index. A byte below 0x80 is one; any other character is decoded from
the text that begins there. Nothing is found outside of the bytes or inside of a character. -/
def characterAt? (cursor : Cursor) (index : Nat) : Option Char := do
  let byte ← cursor.padded[index]?
  if byte < 0x80 then return Char.ofNat byte.toNat
  else if Utf8.isBoundary cursor.padded index then
    return (cursor.padded.utf8DecodeChar? index).getD sentinel
  else none

def peek? (cursor : Cursor) : Option Char :=
  if cursor.isAtEnd then some sentinel else cursor.characterAt? cursor.offset

def peekNext? (cursor : Cursor) : Option Char :=
  if cursor.isAtEnd then some sentinel
  else do
    let next := cursor.offset + (← cursor.peek?).utf8Size
    if cursor.length ≤ next then return sentinel else cursor.characterAt? next

def past (cursor : Cursor) (consumed : Char) : Cursor :=
  let offset := cursor.offset + consumed.utf8Size
  if consumed = '\n' then { cursor with offset, line := cursor.line + 1, column := 1 }
  else { cursor with offset, column := cursor.column + 1 }

def advance? (cursor : Cursor) : Option (Char × Cursor) :=
  if cursor.isAtEnd then some (sentinel, cursor)
  else do
    let consumed ← cursor.characterAt? cursor.offset
    let shown ← (cursor.past consumed).peek?
    return (shown, cursor.past consumed)

/-- Every look that a cursor takes at the padded bytes finds a character: with the looks checked,
its operations give the same. The next two characters lie within the bytes, and so does the null
character that stands for the end. -/
structure LooksInside (cursor : Cursor) : Prop where
  peek : cursor.peek? = some cursor.peek
  peekNext : cursor.peekNext? = some cursor.peekNext
  advance : cursor.advance? = some (cursor.advance.peek, cursor.advance)
  sentinelText : cursor.slice? cursor.length (cursor.length + 1) = some "\x00"
  current_le : cursor.isAtEnd = false → cursor.offset + cursor.peek.utf8Size ≤ cursor.length
  lookahead_le : cursor.isAtEnd = false →
    cursor.offset + cursor.peek.utf8Size + cursor.peekNext.utf8Size ≤ cursor.padded.size
  sentinel_lt : cursor.length < cursor.padded.size

theorem characterAt?_utf8Encode {cursor : Cursor} {before rest : List Char} {character : Char}
    (padded : cursor.padded = (before ++ character :: rest).utf8Encode) :
    cursor.characterAt? before.utf8Encode.size = some character := by
  have decoded := utf8DecodeChar?_utf8Encode before character rest
  have boundary := Utf8.isBoundary_utf8Encode before (character :: rest)
  obtain ⟨first, others, spelled⟩ : ∃ first others, String.utf8EncodeChar character = first :: others :=
    List.exists_cons_of_ne_nil String.utf8EncodeChar_ne_nil
  have byte : (before ++ character :: rest).utf8Encode[before.utf8Encode.size]? = some first := by
    rw [Utf8.getElem?_utf8Encode_append, Utf8.getElem?_utf8Encode_cons character.utf8Size_pos, spelled]
    rfl
  rw [characterAt?, padded, byte, boundary, decoded]
  by_cases single : first < 0x80
  · simp [single, eq_ofNat_of_utf8EncodeChar spelled single]
  · simp [single]

namespace Divides

variable {cursor : Cursor} {source : SourceText} {before ahead : List Char}

theorem peek?_eq (divides : cursor.Divides source before ahead) :
    cursor.peek? = some cursor.peek := by
  rw [peek?, divides.isAtEnd_eq, divides.peek_eq]
  cases ahead with
  | nil => rfl
  | cons character rest =>
      rw [divides.offset_eq]
      exact characterAt?_utf8Encode divides.padded_eq

theorem peekNext?_eq (divides : cursor.Divides source before ahead) :
    cursor.peekNext? = some cursor.peekNext := by
  have total := Shows.length_eq divides
  rw [peekNext?, divides.peek?_eq, divides.isAtEnd_eq, divides.peekNext_eq, divides.peek_eq]
  match ahead with
  | [] => rfl
  | [character] => simp [total]
  | first :: second :: rest =>
      have width := second.utf8Size_pos
      have inside : ¬cursor.length ≤ cursor.offset + first.utf8Size := by
        simp only [List.map_cons, List.sum_cons] at total
        omega
      have found : cursor.characterAt? (cursor.offset + first.utf8Size) = some second := by
        have next : cursor.offset + first.utf8Size = (before ++ [first]).utf8Encode.size := by
          rw [divides.offset_eq, size_utf8Encode, size_utf8Encode]
          simp
        have padded : cursor.padded
            = ((before ++ [first]) ++ second :: (rest ++ source.padding)).utf8Encode := by
          simpa using divides.padded_eq
        rw [next, characterAt?_utf8Encode padded]
      simp [inside, found]

theorem advance?_eq (divides : cursor.Divides source before ahead) :
    cursor.advance? = some (cursor.advance.peek, cursor.advance) := by
  cases ahead with
  | nil =>
      have ended : cursor.isAtEnd = true := divides.isAtEnd_eq
      simp [advance?, Cursor.advance, Cursor.peek, ended]
  | cons character rest =>
      have inside : cursor.isAtEnd = false := divides.isAtEnd_eq
      have here : cursor.characterAt cursor.offset = character := by
        have shown := divides.peek_eq
        rwa [Cursor.peek, inside] at shown
      have moved : cursor.past character = cursor.advance := by
        rw [Cursor.advance, inside, here]
        rfl
      have found : cursor.characterAt? cursor.offset = some character := by
        rw [divides.offset_eq]
        exact characterAt?_utf8Encode divides.padded_eq
      simp [advance?, inside, found, moved, divides.advance.peek?_eq]

theorem slice?_sentinel (divides : cursor.Divides source before ahead) :
    cursor.slice? cursor.length (cursor.length + 1) = some "\x00" := by
  have text := divides.sentinelText_eq
  rw [sentinelText] at text
  cases cut : cursor.slice? cursor.length (cursor.length + 1) with
  | none =>
      rw [cut] at text
      simp at text
  | some found =>
      rw [cut] at text
      exact congrArg some text

theorem length_lt_size_padded (divides : cursor.Divides source before ahead) :
    cursor.length < cursor.padded.size := by
  have room := source.length_le_paddedLength
  rw [← source.size_padded, ← divides.padded, ← divides.length] at room
  omega

theorem looksInside (divides : cursor.Divides source before ahead) : cursor.LooksInside := by
  have total := Shows.length_eq divides
  have room := divides.length_lt_size_padded
  refine ⟨divides.peek?_eq, divides.peekNext?_eq, divides.advance?_eq, divides.slice?_sentinel,
    ?_, ?_, room⟩
  · intro inside
    rw [divides.isAtEnd_eq] at inside
    rw [divides.peek_eq]
    match ahead with
    | character :: rest =>
        simp only [List.map_cons, List.sum_cons, List.headD_cons] at total ⊢
        omega
  · intro inside
    rw [divides.isAtEnd_eq] at inside
    rw [divides.peek_eq, divides.peekNext_eq]
    match ahead with
    | [character] =>
        have single : sentinel.utf8Size = 1 := rfl
        simp only [List.map_cons, List.sum_cons, List.map_nil, List.sum_nil] at total
        simp only [List.headD_cons, List.tail_cons, List.headD_nil]
        omega
    | first :: second :: rest =>
        simp only [List.map_cons, List.sum_cons] at total
        simp only [List.headD_cons, List.tail_cons]
        omega

end Divides

end Cursor

namespace SourceText

/-- The padded bytes of a source are its bytes and then zeros, up to the first multiple of 64 that
leaves room for four of them. They are text, and the source is its front. No cursor that a session
with the source comes to looks behind them, or into a character. -/
theorem padded_layout (source : SourceText) :
    source.padded.extract 0 source.length = source.text.toUTF8 ∧
    (∀ index, source.length ≤ index → index < source.padded.size → source.padded[index]? = some 0) ∧
    IsLeast {size | 64 ∣ size ∧ source.length + 4 ≤ size} source.padded.size ∧
    ((source.length.toUInt64 + 4 + 64 - 1) &&& ~~~(64 - 1)).toNat = source.padded.size ∧
    Utf8.IsText source.padded.data.toList ∧
    source.cursor.slice? 0 source.length = some source.text ∧
    ∀ cursor, source.Visits cursor → cursor.padded = source.padded ∧ cursor.LooksInside := by
  refine ⟨source.extract_padded, fun _ => getElem?_padded_eq_zero, ?_, ?_, source.isText_padded,
    source.slice?_whole, ?_⟩
  · rw [size_padded]
    exact isLeast_paddedLength source.length
  · rw [size_padded]
    exact toNat_and_lineMask source.size_le
  · intro cursor visited
    obtain ⟨before, ahead, divides⟩ := visits_iff_exists_divides.mp visited
    exact ⟨divides.padded, divides.looksInside⟩

theorem padded_layout_short_of_room :
    ∃ source : SourceText, source.length = 61 ∧ source.padded.size = 128 ∧
      source.padded[127]? = some 0 ∧
      (Cursor.advance^[59] source.cursor).peek? = some 'é' ∧
      (Cursor.advance^[59] source.cursor).peekNext? = some '\x00' ∧
      (Cursor.advance^[59] source.cursor).offset + 'é'.utf8Size + 1
        ≤ (Cursor.advance^[59] source.cursor).padded.size := by
  let source : SourceText := ⟨⟨0⟩, String.ofList (List.replicate 59 'a' ++ ['é']), by decide +kernel⟩
  have length : source.length = 61 := by decide +kernel
  obtain ⟨_, zeros, _, size, _, _, inside⟩ := source.padded_layout
  have lines : source.padded.size = 128 := by
    rw [← size, length]
    decide
  have last := zeros 127 (by omega) (by omega)
  have whole : List.replicate 59 'a' ++ ['é'] = source.text.toList := String.toList_ofList.symm
  have divides := Cursor.divides_iterate_advance source _ _ whole
  rw [List.length_replicate] at divides
  have current : (Cursor.advance^[59] source.cursor).peek = 'é' := divides.peek_eq
  have next : (Cursor.advance^[59] source.cursor).peekNext = '\x00' := divides.peekNext_eq
  obtain ⟨_, looks⟩ := inside _ (source.visits_iterate 59)
  have bound := looks.lookahead_le divides.isAtEnd_eq
  rw [current, next] at bound
  exact ⟨source, length, lines, last, current ▸ looks.peek, next ▸ looks.peekNext, bound⟩

end SourceText

end FrontEnd
