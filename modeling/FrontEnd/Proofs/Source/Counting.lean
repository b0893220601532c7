import FrontEnd.Proofs.Source.Place
import Mathlib.Data.List.TakeWhile

/-! How far cursors count. A location counts in 32 bits, and no source has more bytes than they can
count. Lines and columns begin with one, though: behind a source that is one line of that many
characters the column is one too large, and behind one of that many newlines the line. Everywhere
else the numbers of a location are what a cursor counts. -/

namespace FrontEnd

namespace Location

/-- The location behind one more character, with additions that wrap around. -/
def past (location : Location) (character : Char) : Location :=
  let offset := location.offset + character.utf8Size.toUInt32
  if character = '\n' then { location with line := location.line + 1, column := 1, offset }
  else { location with column := location.column + 1, offset }

/-- No addition on the way past the character wraps around. -/
def HasRoom (location : Location) (character : Char) : Prop :=
  location.offset.toNat + character.utf8Size < UInt32.size ∧
    if character = '\n' then location.line.toNat + 1 < UInt32.size
    else location.column.toNat + 1 < UInt32.size

end Location

theorem toNat_toUInt32_eq_iff {number : Nat} :
    number.toUInt32.toNat = number ↔ number ≤ sourceLimit := by
  constructor
  · intro same
    have bound := number.toUInt32.toNat_lt
    rw [same] at bound
    exact Nat.le_of_lt_succ bound
  · intro small
    exact UInt32.toNat_ofNat_of_lt' (Nat.lt_succ_of_le small)

namespace SourceText

def IsFullLine (source : SourceText) : Prop :=
  source.text.length = sourceLimit ∧ '\n' ∉ source.text.toList

def IsFullOfNewlines (source : SourceText) : Prop :=
  source.text.toList = List.replicate sourceLimit '\n'

def blanks (path : PathId) (count : Nat) (fits : count ≤ sourceLimit) : SourceText where
  path
  text := String.ofList (List.replicate count ' ')
  size_le := by
    have size : (List.replicate count ' ').utf8Encode.size = count := by
      rw [size_utf8Encode, List.map_replicate, List.sum_replicate]
      exact Nat.mul_one count
    exact size.trans_le fits

theorem toList_blanks (path : PathId) (count : Nat) (fits : count ≤ sourceLimit) :
    (blanks path count fits).text.toList = List.replicate count ' ' :=
  String.toList_ofList

theorem isFullLine_blanks (path : PathId) : (blanks path sourceLimit le_rfl).IsFullLine := by
  refine ⟨?_, ?_⟩
  · rw [← String.length_toList, toList_blanks, List.length_replicate]
  · rw [toList_blanks]
    exact fun listed => absurd (List.eq_of_mem_replicate listed) (by decide)

end SourceText

namespace Cursor

structure IsExact (cursor : Cursor) : Prop where
  offset : cursor.position.offset.toNat = cursor.offset
  line : cursor.position.line.toNat = cursor.line
  column : cursor.position.column.toNat = cursor.column

/-- Counting without a bound, and giving a position in 32 bits at the end, is counting in 32 bits. -/
theorem position_advance {cursor : Cursor} (inside : cursor.isAtEnd = false) :
    cursor.advance.position = cursor.position.past cursor.peek := by
  have shown : cursor.peek = cursor.characterAt cursor.offset := by
    rw [peek, if_neg (by simp [inside])]
  rw [advance, if_neg (by simp [inside]), ← shown]
  by_cases newline : cursor.peek = '\n'
  · simp [position, Location.past, newline, Nat.toUInt32_eq]
  · simp [position, Location.past, newline, Nat.toUInt32_eq]

namespace Divides

variable {cursor : Cursor} {source : SourceText} {before ahead rest : List Char} {character : Char}

theorem offset_eq_sum (divides : cursor.Divides source before ahead) :
    cursor.offset = (before.map Char.utf8Size).sum := by
  rw [divides.offset_eq, size_utf8Encode]

theorem line_eq (divides : cursor.Divides source before ahead) :
    cursor.line = before.count '\n' + 1 := by
  rw [Shows.line divides, Zipper.line, List.count_reverse]

theorem column_eq (divides : cursor.Divides source before ahead) :
    cursor.column = (before.reverse.takeWhile (· ≠ '\n')).length + 1 :=
  Shows.column divides

theorem length_le_offset (divides : cursor.Divides source before ahead) :
    before.length ≤ cursor.offset := by
  rw [divides.offset_eq]
  exact length_le_size_utf8Encode before

theorem line_le (divides : cursor.Divides source before ahead) :
    cursor.line ≤ cursor.offset + 1 := by
  have newlines := before.count_le_length (a := '\n')
  have length := divides.length_le_offset
  rw [divides.line_eq]
  omega

theorem column_le (divides : cursor.Divides source before ahead) :
    cursor.column ≤ cursor.offset + 1 := by
  have inline := (before.reverse.takeWhile_prefix (· ≠ '\n')).length_le
  have length := divides.length_le_offset
  rw [List.length_reverse] at inline
  rw [divides.column_eq]
  omega

theorem offset_le (divides : cursor.Divides source before ahead) :
    cursor.offset ≤ source.length := by
  rw [divides.offset_eq]
  exact SourceText.size_le_size_bytes divides.whole

theorem position_offset (divides : cursor.Divides source before ahead) :
    cursor.position.offset.toNat = cursor.offset := by
  rw [divides.position_eq, SourceText.offset_after divides.whole, divides.offset_eq]

theorem isExact_iff (divides : cursor.Divides source before ahead) :
    cursor.IsExact ↔ cursor.line ≤ sourceLimit ∧ cursor.column ≤ sourceLimit := by
  constructor
  · intro exact
    exact ⟨toNat_toUInt32_eq_iff.mp exact.line, toNat_toUInt32_eq_iff.mp exact.column⟩
  · rintro ⟨line, column⟩
    have offset : cursor.offset ≤ sourceLimit := Nat.le_trans divides.offset_le source.size_le
    exact ⟨toNat_toUInt32_eq_iff.mpr offset, toNat_toUInt32_eq_iff.mpr line,
      toNat_toUInt32_eq_iff.mpr column⟩

theorem whole_of_ended (divides : cursor.Divides source before []) : before = source.text.toList := by
  rw [← divides.whole, List.append_nil]

theorem ahead_eq_nil (divides : cursor.Divides source before ahead)
    (full : before.length = sourceLimit) : ahead = [] := by
  have whole : (before ++ ahead) ++ [] = source.text.toList := by rw [List.append_nil, divides.whole]
  have length := SourceText.length_le whole
  rw [List.length_append] at length
  exact List.eq_nil_of_length_eq_zero (by omega)

theorem column_le_iff (divides : cursor.Divides source before ahead) :
    cursor.column ≤ sourceLimit ↔ ¬(ahead = [] ∧ source.IsFullLine) := by
  have inline : before.reverse.takeWhile (· ≠ '\n') <+: before.reverse := List.takeWhile_prefix _
  have width := inline.length_le
  have length := SourceText.length_le divides.whole
  rw [List.length_reverse] at width
  rw [divides.column_eq, ← not_lt, not_iff_not]
  constructor
  · intro beyond
    -- As many characters are nothing but single bytes, which leave no room for others.
    have full : before.length = sourceLimit := by omega
    obtain rfl := divides.ahead_eq_nil full
    have whole := divides.whole_of_ended
    refine ⟨rfl, by rw [← String.length_toList, ← whole, full], ?_⟩
    have single : before.reverse.takeWhile (· ≠ '\n') = before.reverse :=
      inline.eq_of_length (by rw [List.length_reverse]; omega)
    rw [← whole, ← List.mem_reverse]
    intro listed
    simpa using List.takeWhile_eq_self_iff.mp single '\n' listed
  · rintro ⟨rfl, full, single⟩
    have whole := divides.whole_of_ended
    rw [← whole] at single
    have all : before.reverse.takeWhile (· ≠ '\n') = before.reverse := by
      rw [List.takeWhile_eq_self_iff]
      intro character listed
      have other : character ≠ '\n' := fun newline => single (newline ▸ List.mem_reverse.mp listed)
      simpa using other
    rw [all, List.length_reverse, whole, String.length_toList, full]
    exact Nat.lt_succ_self _

theorem line_le_iff (divides : cursor.Divides source before ahead) :
    cursor.line ≤ sourceLimit ↔ ¬(ahead = [] ∧ source.IsFullOfNewlines) := by
  have newlines := before.count_le_length (a := '\n')
  have length := SourceText.length_le divides.whole
  rw [divides.line_eq, ← not_lt, not_iff_not, SourceText.IsFullOfNewlines, ← divides.whole]
  constructor
  · intro beyond
    have full : before.length = sourceLimit := by omega
    obtain rfl := divides.ahead_eq_nil full
    have all : before.count '\n' = before.length := by omega
    rw [List.append_nil, List.eq_replicate_iff]
    exact ⟨rfl, full, fun character listed => (List.count_eq_length.mp all character listed).symm⟩
  · rintro ⟨rfl, full⟩
    rw [List.append_nil] at full
    rw [full, List.count_replicate_self]
    exact Nat.lt_succ_self _

theorem line_position_iff (divides : cursor.Divides source before ahead) :
    cursor.position.line.toNat = before.count '\n' + 1
      ↔ ¬(ahead = [] ∧ source.IsFullOfNewlines) := by
  rw [← divides.line_eq, ← divides.line_le_iff]
  exact toNat_toUInt32_eq_iff

theorem column_position_iff (divides : cursor.Divides source before ahead) :
    cursor.position.column.toNat = (before.reverse.takeWhile (· ≠ '\n')).length + 1
      ↔ ¬(ahead = [] ∧ source.IsFullLine) := by
  rw [← divides.column_eq, ← divides.column_le_iff]
  exact toNat_toUInt32_eq_iff

theorem isExact_iff_not (divides : cursor.Divides source before ahead) :
    cursor.IsExact ↔ ¬(ahead = [] ∧ (source.IsFullLine ∨ source.IsFullOfNewlines)) := by
  rw [divides.isExact_iff, divides.line_le_iff, divides.column_le_iff]
  tauto

theorem isExact_of_offset_lt (divides : cursor.Divides source before ahead)
    (inside : cursor.offset < sourceLimit) : cursor.IsExact := by
  have line := divides.line_le
  have column := divides.column_le
  exact divides.isExact_iff.mpr ⟨by omega, by omega⟩

theorem isExact_of_cons (divides : cursor.Divides source before (character :: rest)) :
    cursor.IsExact :=
  divides.isExact_iff_not.mpr (by simp)

theorem hasRoom_iff (divides : cursor.Divides source before (character :: rest)) :
    cursor.position.HasRoom character ↔ cursor.advance.IsExact := by
  have inside : cursor.isAtEnd = false := divides.isAtEnd_eq
  have shown : cursor.characterAt cursor.offset = character := by
    have peeked := divides.peek_eq
    rwa [peek, if_neg (by simp [inside])] at peeked
  have here := divides.isExact_of_cons
  obtain ⟨line, column⟩ := divides.isExact_iff.mp here
  have next := divides.advance
  have offset := Nat.le_trans next.offset_le source.size_le
  rw [next.isExact_iff, Location.HasRoom, here.offset, here.line, here.column]
  have size : UInt32.size = sourceLimit + 1 := rfl
  by_cases newline : character = '\n'
  · have moved : cursor.advance = { cursor with
        offset := cursor.offset + character.utf8Size, line := cursor.line + 1, column := 1 } := by
      rw [Cursor.advance, if_neg (by simp [inside]), shown, if_pos newline]
    rw [moved] at offset ⊢
    simp only [if_pos newline] at offset ⊢
    omega
  · have moved : cursor.advance = { cursor with
        offset := cursor.offset + character.utf8Size, column := cursor.column + 1 } := by
      rw [Cursor.advance, if_neg (by simp [inside]), shown, if_neg newline]
    rw [moved] at offset ⊢
    simp only [if_neg newline] at offset ⊢
    omega

theorem position_of_isFullLine (divides : cursor.Divides source before [])
    (full : source.IsFullLine) :
    cursor.line = 1 ∧ cursor.column = sourceLimit + 1 ∧
      cursor.position = ⟨source.path, 1, 0, sourceLimit.toUInt32⟩ := by
  have whole := divides.whole_of_ended
  have length : before.length = sourceLimit := by rw [whole, String.length_toList, full.1]
  have line : cursor.line = 1 := by
    rw [divides.line_eq, whole, List.count_eq_zero_of_not_mem full.2]
  have offset : cursor.offset = sourceLimit :=
    Nat.le_antisymm (Nat.le_trans divides.offset_le source.size_le) (length ▸ divides.length_le_offset)
  have column : cursor.column = sourceLimit + 1 := by
    have beyond := divides.column_le_iff.not.mpr (not_not_intro ⟨rfl, full⟩)
    have bound := divides.column_le
    omega
  refine ⟨line, column, ?_⟩
  rw [position, line, column, offset, divides.path]
  rfl

theorem position_of_isFullOfNewlines (divides : cursor.Divides source before [])
    (full : source.IsFullOfNewlines) :
    cursor.line = sourceLimit + 1 ∧ cursor.column = 1 ∧
      cursor.position = ⟨source.path, 0, 1, sourceLimit.toUInt32⟩ := by
  have whole := divides.whole_of_ended.trans full
  have line : cursor.line = sourceLimit + 1 := by
    rw [divides.line_eq, whole, List.count_replicate_self]
  have column : cursor.column = 1 := by
    rw [divides.column_eq, whole, List.reverse_replicate, List.takeWhile_replicate]
    rfl
  have offset : cursor.offset = sourceLimit := by
    rw [divides.offset_eq_sum, whole, List.map_replicate, List.sum_replicate]
    rfl
  refine ⟨line, column, ?_⟩
  rw [position, line, column, offset, divides.path]
  rfl

end Divides

end Cursor

end FrontEnd
