import FrontEnd.Location
import FrontEnd.Source.Text
import FrontEnd.Text.Alphabet

/-! A cursor walks over the padded bytes of a source, one character at a time, and counts
lines and columns on its way. It stops at the end of the source, where it shows the null
character; a null character inside the source is not the end. -/

namespace FrontEnd

structure Cursor where
  padded : ByteArray
  length : Nat
  path : PathId
  offset : Nat
  line : Nat
  column : Nat

def SourceText.cursor (source : SourceText) : Cursor :=
  ⟨source.padded, source.length, source.path, 0, 1, 1⟩

namespace Cursor

/-- What a cursor shows where no character is left. -/
def sentinel : Char := '\x00'

def characterAt (cursor : Cursor) (index : Nat) : Char :=
  (cursor.padded.utf8DecodeChar? index).getD sentinel

def isAtEnd (cursor : Cursor) : Bool := cursor.length ≤ cursor.offset

def peek (cursor : Cursor) : Char :=
  if cursor.isAtEnd then sentinel else cursor.characterAt cursor.offset

def peekNext (cursor : Cursor) : Char :=
  if cursor.isAtEnd then sentinel
  else
    let next := cursor.offset + cursor.peek.utf8Size
    if cursor.length ≤ next then sentinel else cursor.characterAt next

def advance (cursor : Cursor) : Cursor :=
  if cursor.isAtEnd then cursor
  else
    let consumed := cursor.characterAt cursor.offset
    let offset := cursor.offset + consumed.utf8Size
    if consumed = '\n' then { cursor with offset, line := cursor.line + 1, column := 1 }
    else { cursor with offset, column := cursor.column + 1 }

def remaining (cursor : Cursor) : Nat := cursor.length - cursor.offset

theorem remaining_advance_lt {cursor : Cursor} (inside : cursor.isAtEnd = false) :
    cursor.advance.remaining < cursor.remaining := by
  have width := (cursor.characterAt cursor.offset).utf8Size_pos
  have bound : cursor.offset < cursor.length := by simpa [isAtEnd] using inside
  unfold advance remaining
  simp only [inside]
  split
  · simp_all
  · split <;> simp <;> omega

theorem remaining_advance_le (cursor : Cursor) : cursor.advance.remaining ≤ cursor.remaining := by
  by_cases inside : cursor.isAtEnd
  · simp [advance, inside]
  · exact Nat.le_of_lt (remaining_advance_lt (by simpa using inside))

/-- The location of the current character, counted in 32 bits. -/
def position (cursor : Cursor) : Location :=
  ⟨cursor.path, cursor.line.toUInt32, cursor.column.toUInt32, cursor.offset.toUInt32⟩

/-- The text between two byte offsets, where both lie between characters and in order. -/
def slice? (cursor : Cursor) (start stop : Nat) : Option String :=
  if start ≤ stop && Utf8.isBoundary cursor.padded start && Utf8.isBoundary cursor.padded stop then
    String.fromUTF8? (cursor.padded.extract start stop)
  else none

def sliceFrom? (cursor : Cursor) (start : Nat) : Option String :=
  cursor.slice? start cursor.offset

def textFrom (cursor : Cursor) (start : Nat) : String :=
  (cursor.sliceFrom? start).getD ""

def sentinelText (cursor : Cursor) : String :=
  (cursor.slice? cursor.length (cursor.length + 1)).getD ""

def eatWhile (accepts : Char → Bool) (cursor : Cursor) : Cursor :=
  if cursor.isAtEnd then cursor
  else if accepts cursor.peek then eatWhile accepts cursor.advance
  else cursor
termination_by cursor.remaining
decreasing_by exact remaining_advance_lt (by simpa using ‹¬cursor.isAtEnd = true›)

theorem remaining_eatWhile_le (accepts : Char → Bool) (cursor : Cursor) :
    (cursor.eatWhile accepts).remaining ≤ cursor.remaining := by
  fun_induction eatWhile accepts cursor with
  | case1 => exact Nat.le_refl _
  | case2 cursor inside accepted ih => exact Nat.le_trans ih (remaining_advance_le cursor)
  | case3 => exact Nat.le_refl _

theorem remaining_eatWhile_lt {accepts : Char → Bool} {cursor : Cursor}
    (inside : cursor.isAtEnd = false) (accepted : accepts cursor.peek = true) :
    (cursor.eatWhile accepts).remaining < cursor.remaining := by
  rw [eatWhile]
  simp only [inside, accepted, Bool.false_eq_true, ↓reduceIte]
  exact Nat.lt_of_le_of_lt (remaining_eatWhile_le accepts _) (remaining_advance_lt inside)

theorem remaining_eatWhile_lt_of_offset_ne {accepts : Char → Bool} {cursor : Cursor}
    (moved : (cursor.eatWhile accepts).offset ≠ cursor.offset) :
    (cursor.eatWhile accepts).remaining < cursor.remaining := by
  by_cases inside : cursor.isAtEnd = false
  · by_cases accepted : accepts cursor.peek = true
    · exact remaining_eatWhile_lt inside accepted
    · exact absurd (by rw [eatWhile]; simp [inside, accepted]) moved
  · exact absurd (by rw [eatWhile]; simp [inside]) moved

def eatWhitespace (cursor : Cursor) : Cursor := cursor.eatWhile isWhitespace

end Cursor

end FrontEnd
