import FrontEnd.Source.Zipper

/-! A cursor over padded bytes does what a zipper over characters does. A cursor shows a zipper
when it stands at the same place of the same text; every operation keeps that, and answers
the same. -/

namespace FrontEnd

theorem size_utf8Encode (characters : List Char) :
    characters.utf8Encode.size = (characters.map Char.utf8Size).sum := by
  induction characters with
  | nil => simp
  | cons character rest ih =>
      rw [← List.singleton_append, List.utf8Encode_append, ByteArray.size_append, ih]
      simp [List.utf8Encode_singleton]

theorem utf8DecodeChar?_utf8Encode (before : List Char) (character : Char) (rest : List Char) :
    (before ++ character :: rest).utf8Encode.utf8DecodeChar? before.utf8Encode.size
      = some character := by
  rw [ByteArray.utf8DecodeChar?_eq_utf8DecodeChar?_extract, List.utf8Encode_append]
  have suffix (left right : ByteArray) :
      (left ++ right).extract left.size (left ++ right).size = right :=
    ByteArray.extract_append_eq_right rfl (by simp)
  rw [suffix, List.utf8Encode_cons]
  exact List.utf8DecodeChar?_utf8Encode_singleton_append

def SourceText.padding (source : SourceText) : List Char :=
  List.replicate (paddedLength source.length - source.length) Cursor.sentinel

theorem utf8Encode_replicate_sentinel (count : Nat) :
    (List.replicate count Cursor.sentinel).utf8Encode = ⟨Array.replicate count 0⟩ := by
  induction count with
  | zero => rfl
  | succ count ih =>
      have zero : [Cursor.sentinel].utf8Encode = ⟨Array.replicate 1 0⟩ := rfl
      rw [List.replicate_succ, List.utf8Encode_cons, ih, zero, Nat.add_comm count 1,
        ← Array.replicate_append_replicate]
      exact ByteArray.ext ByteArray.data_append

theorem SourceText.padded_eq_utf8Encode (source : SourceText) :
    source.padded = (source.text.toList ++ source.padding).utf8Encode := by
  rw [List.utf8Encode_append, padding, utf8Encode_replicate_sentinel, String.utf8Encode_toList]
  rfl

theorem SourceText.length_eq_sum (source : SourceText) :
    source.length = (source.text.toList.map Char.utf8Size).sum := by
  rw [← size_utf8Encode, String.utf8Encode_toList]
  rfl

namespace Cursor

/-- The cursor stands in a source where the zipper stands in its characters. -/
structure Shows (cursor : Cursor) (source : SourceText) (zipper : Zipper) : Prop where
  padded : cursor.padded = source.padded
  length : cursor.length = source.length
  path : cursor.path = source.path
  whole : zipper.behind.reverse ++ zipper.ahead = source.text.toList
  offset : cursor.offset = zipper.offset
  line : cursor.line = zipper.line
  column : cursor.column = zipper.column

theorem shows_ofText (source : SourceText) :
    source.cursor.Shows source (Zipper.ofText source.text) :=
  ⟨rfl, rfl, rfl, rfl, rfl, rfl, rfl⟩

namespace Shows

variable {cursor : Cursor} {source : SourceText} {zipper : Zipper}

theorem length_eq (shown : cursor.Shows source zipper) :
    cursor.length = cursor.offset + (zipper.ahead.map Char.utf8Size).sum := by
  rw [shown.length, source.length_eq_sum, ← shown.whole, shown.offset, Zipper.offset]
  simp [List.sum_reverse]

theorem isAtEnd_eq (shown : cursor.Shows source zipper) : cursor.isAtEnd = zipper.isAtEnd := by
  have total := shown.length_eq
  unfold Cursor.isAtEnd Zipper.isAtEnd
  cases ahead : zipper.ahead with
  | nil => simp_all
  | cons character rest =>
      have width := character.utf8Size_pos
      simp only [ahead, List.map_cons, List.sum_cons] at total
      simp only [List.isEmpty_cons, decide_eq_false_iff_not, Nat.not_le]
      omega

theorem characterAt_eq (shown : cursor.Shows source zipper) (passed rest : List Char)
    (character : Char) (ahead : zipper.ahead = passed ++ character :: rest) :
    cursor.characterAt (cursor.offset + (passed.map Char.utf8Size).sum) = character := by
  have text : source.text.toList ++ source.padding
      = (zipper.behind.reverse ++ passed) ++ character :: (rest ++ source.padding) := by
    rw [← shown.whole, ahead]
    simp
  have place : cursor.offset + (passed.map Char.utf8Size).sum
      = (zipper.behind.reverse ++ passed).utf8Encode.size := by
    rw [size_utf8Encode, shown.offset, Zipper.offset]
    simp [List.sum_reverse]
  rw [characterAt, shown.padded, source.padded_eq_utf8Encode, text, place,
    utf8DecodeChar?_utf8Encode]
  rfl

theorem peek_eq (shown : cursor.Shows source zipper) : cursor.peek = zipper.peek := by
  rw [Cursor.peek, shown.isAtEnd_eq, Zipper.isAtEnd, Zipper.peek]
  cases ahead : zipper.ahead with
  | nil => rfl
  | cons character rest => simpa using shown.characterAt_eq [] rest character ahead

theorem peekNext_eq (shown : cursor.Shows source zipper) : cursor.peekNext = zipper.peekNext := by
  have total := shown.length_eq
  rw [Cursor.peekNext, shown.isAtEnd_eq, shown.peek_eq, Zipper.isAtEnd, Zipper.peekNext,
    Zipper.peek]
  cases ahead : zipper.ahead with
  | nil => rfl
  | cons first rest =>
      cases rest with
      | nil => simp_all
      | cons second rest =>
          have width := second.utf8Size_pos
          have inside : ¬cursor.length ≤ cursor.offset + first.utf8Size := by
            simp only [ahead, List.map_cons, List.sum_cons] at total
            omega
          simpa [inside] using shown.characterAt_eq [first] rest second ahead

theorem advance (shown : cursor.Shows source zipper) :
    cursor.advance.Shows source zipper.advance := by
  rw [Cursor.advance, shown.isAtEnd_eq, Zipper.isAtEnd, Zipper.advance]
  cases ahead : zipper.ahead with
  | nil => simpa using shown
  | cons character rest =>
      have consumed : cursor.characterAt cursor.offset = character := by
        simpa using shown.characterAt_eq [] rest character ahead
      have whole := shown.whole
      have offset := shown.offset
      have line := shown.line
      have column := shown.column
      simp only [List.isEmpty_cons, Bool.false_eq_true, ↓reduceIte, consumed]
      split
      · rename_i newline
        exact ⟨shown.padded, shown.length, shown.path, by simp [← whole, ahead],
          by simp [Zipper.offset, offset, Nat.add_comm],
          by simp [Zipper.line, line, newline],
          by simp [Zipper.column, newline]⟩
      · rename_i inline
        exact ⟨shown.padded, shown.length, shown.path, by simp [← whole, ahead],
          by simp [Zipper.offset, offset, Nat.add_comm],
          by simp [Zipper.line, line, inline],
          by simp [Zipper.column, column, inline]⟩

theorem eatWhile (accepts : Char → Bool) (shown : cursor.Shows source zipper) :
    (cursor.eatWhile accepts).Shows source (zipper.eatWhile accepts) := by
  fun_induction Cursor.eatWhile accepts cursor generalizing zipper with
  | case1 cursor ended =>
      have empty : zipper.ahead = [] := by
        simpa [shown.isAtEnd_eq, Zipper.isAtEnd] using ended
      rwa [Zipper.eatWhile_eq_self (by simp [empty])]
  | case2 cursor inside accepted ih =>
      cases ahead : zipper.ahead with
      | nil => simp [shown.isAtEnd_eq, Zipper.isAtEnd, ahead] at inside
      | cons character rest =>
          have taken : accepts character = true := by
            simpa [shown.peek_eq, Zipper.peek, ahead] using accepted
          have next := ih shown.advance
          simpa [Zipper.eatWhile, Zipper.advance, ahead, taken] using next
  | case3 cursor inside refused =>
      cases ahead : zipper.ahead with
      | nil => simp [shown.isAtEnd_eq, Zipper.isAtEnd, ahead] at inside
      | cons character rest =>
          have left : accepts character = false := by
            simpa [shown.peek_eq, Zipper.peek, ahead] using refused
          rwa [Zipper.eatWhile_eq_self (by simp [ahead, left])]

end Shows

end Cursor

end FrontEnd
