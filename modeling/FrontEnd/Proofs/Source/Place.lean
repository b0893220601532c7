import FrontEnd.Source.Refinement
import Mathlib.Algebra.BigOperators.Group.List.Basic
import Mathlib.Logic.Function.Iterate

/-! Where a cursor stands, told by the characters before it and those still ahead. The place
gives the location; two places of one source give the text between them, which no cut through
a character can spoil. -/

namespace FrontEnd

/-- The location of what follows the characters `before` in a file. -/
def Location.after (path : PathId) (before : List Char) : Location :=
  ⟨path, (before.count '\n' + 1).toUInt32,
    ((before.reverse.takeWhile (· ≠ '\n')).length + 1).toUInt32,
    (before.map Char.utf8Size).sum.toUInt32⟩

theorem length_le_size_utf8Encode (characters : List Char) :
    characters.length ≤ characters.utf8Encode.size := by
  rw [size_utf8Encode, ← List.length_map Char.utf8Size]
  apply List.length_le_sum_of_one_le
  intro width listed
  obtain ⟨character, _, rfl⟩ := List.mem_map.mp listed
  exact character.utf8Size_pos

namespace SourceText

variable {source : SourceText} {before rest : List Char}

theorem bytes_eq (source : SourceText) : source.bytes = source.text.toList.utf8Encode :=
  String.utf8Encode_toList.symm

theorem size_le_size_bytes (whole : before ++ rest = source.text.toList) :
    before.utf8Encode.size ≤ source.bytes.size := by
  rw [source.bytes_eq, ← whole, List.utf8Encode_append, ByteArray.size_append]
  exact Nat.le_add_right _ _

theorem length_le (whole : before ++ rest = source.text.toList) : before.length ≤ sourceLimit := by
  have length := length_le_size_utf8Encode before
  have inside := size_le_size_bytes whole
  have limit : source.bytes.size ≤ sourceLimit := source.size_le
  omega

theorem offset_after (whole : before ++ rest = source.text.toList) :
    (Location.after source.path before).offset.toNat = before.utf8Encode.size := by
  have inside := size_le_size_bytes whole
  have limit : source.bytes.size ≤ sourceLimit := source.size_le
  rw [Location.after, ← size_utf8Encode]
  apply UInt32.toNat_ofNat_of_lt'
  exact Nat.lt_of_le_of_lt (Nat.le_trans inside limit) (by decide)

end SourceText

namespace Utf8

theorem isContinuation_eq_false {byte : UInt8} (first : byte.IsUTF8FirstByte) :
    isContinuation byte = false := by
  have all : ∀ value : Fin 256, (UInt8.ofFin value).IsUTF8FirstByte →
      isContinuation (UInt8.ofFin value) = false := by decide +kernel
  exact all byte.toFin first

theorem isBoundary_utf8Encode (before after : List Char) :
    isBoundary (before ++ after).utf8Encode before.utf8Encode.size = true := by
  cases after with
  | nil =>
      rw [List.append_nil, isBoundary, getElem?_neg before.utf8Encode _ (Nat.lt_irrefl _)]
      simp
  | cons character rest =>
      have width := character.utf8Size_pos
      have inside : before.utf8Encode.size < (before ++ character :: rest).utf8Encode.size := by
        simp only [size_utf8Encode, List.map_append, List.map_cons, List.sum_append, List.sum_cons]
        omega
      have first :
          (before ++ character :: rest).utf8Encode[before.utf8Encode.size].IsUTF8FirstByte := by
        have decoded := utf8DecodeChar?_utf8Encode before character rest
        exact ByteArray.isUTF8FirstByte_of_isSome_utf8DecodeChar? (by rw [decoded]; rfl)
      rw [isBoundary, getElem?_pos (before ++ character :: rest).utf8Encode _ inside]
      exact congrArg not (isContinuation_eq_false first)

theorem extract_utf8Encode (before middle after : List Char) :
    (before ++ (middle ++ after)).utf8Encode.extract before.utf8Encode.size
      (before ++ middle).utf8Encode.size = middle.utf8Encode := by
  simp only [List.utf8Encode_append, ByteArray.size_append]
  rw [← Nat.add_zero before.utf8Encode.size, Nat.add_assoc, ByteArray.extract_append_size_add,
    Nat.zero_add, ByteArray.extract_append_size_left, ByteArray.extract_zero_size]

theorem fromUTF8?_utf8Encode (characters : List Char) :
    String.fromUTF8? characters.utf8Encode = some (String.ofList characters) := by
  rw [String.fromUTF8?, dif_pos ⟨characters, rfl⟩]
  rfl

end Utf8

namespace Cursor

theorem slice?_utf8Encode {cursor : Cursor} (before middle after : List Char)
    (padded : cursor.padded = (before ++ (middle ++ after)).utf8Encode) :
    cursor.slice? before.utf8Encode.size (before ++ middle).utf8Encode.size
      = some (String.ofList middle) := by
  have starts := Utf8.isBoundary_utf8Encode before (middle ++ after)
  have stops := Utf8.isBoundary_utf8Encode (before ++ middle) after
  rw [List.append_assoc] at stops
  rw [slice?, padded, starts, stops, Utf8.extract_utf8Encode, Utf8.fromUTF8?_utf8Encode]
  simp

/-- The cursor stands in a source between the characters `before` and `ahead`. -/
def Divides (cursor : Cursor) (source : SourceText) (before ahead : List Char) : Prop :=
  cursor.Shows source ⟨before.reverse, ahead⟩

theorem divides_start (source : SourceText) :
    source.cursor.Divides source [] source.text.toList :=
  shows_ofText source

namespace Divides

variable {cursor : Cursor} {source : SourceText} {before ahead rest : List Char} {character : Char}

theorem whole (divides : cursor.Divides source before ahead) :
    before ++ ahead = source.text.toList := by
  simpa using Shows.whole divides

theorem offset_eq (divides : cursor.Divides source before ahead) :
    cursor.offset = before.utf8Encode.size := by
  rw [size_utf8Encode, divides.offset, Zipper.offset, List.map_reverse, List.sum_reverse]

theorem isAtEnd_eq (divides : cursor.Divides source before ahead) :
    cursor.isAtEnd = ahead.isEmpty :=
  Shows.isAtEnd_eq divides

theorem peek_eq (divides : cursor.Divides source before ahead) :
    cursor.peek = ahead.headD sentinel :=
  Shows.peek_eq divides

theorem peekNext_eq (divides : cursor.Divides source before ahead) :
    cursor.peekNext = ahead.tail.headD sentinel :=
  Shows.peekNext_eq divides

theorem advance (divides : cursor.Divides source before (character :: rest)) :
    cursor.advance.Divides source (before ++ [character]) rest := by
  have next := Shows.advance divides
  simpa [Divides, Zipper.advance] using next

theorem eatWhile (accepts : Char → Bool) (divides : cursor.Divides source before ahead) :
    (cursor.eatWhile accepts).Divides source (before ++ ahead.takeWhile accepts)
      (ahead.dropWhile accepts) := by
  have next := Shows.eatWhile accepts divides
  simpa [Divides, Zipper.eatWhile] using next

theorem position_eq (divides : cursor.Divides source before ahead) :
    cursor.position = Location.after source.path before := by
  simp [position, Location.after, divides.path, divides.line, divides.column, divides.offset,
    Zipper.line, Zipper.column, Zipper.offset, List.map_reverse, List.sum_reverse]

theorem padded_eq (divides : cursor.Divides source before ahead) :
    cursor.padded = (before ++ (ahead ++ source.padding)).utf8Encode := by
  rw [divides.padded, source.padded_eq_utf8Encode, ← divides.whole, List.append_assoc]

theorem textFrom_eq {start stop : Cursor} {passed : List Char}
    (starts : start.Divides source before (passed ++ ahead))
    (stops : stop.Divides source (before ++ passed) ahead) :
    stop.textFrom start.offset = String.ofList passed := by
  have padded := stops.padded_eq
  rw [List.append_assoc] at padded
  rw [textFrom, sliceFrom?, starts.offset_eq, stops.offset_eq, slice?_utf8Encode _ _ _ padded]
  rfl

theorem sentinelText_eq (divides : cursor.Divides source before ahead) :
    cursor.sentinelText = "\x00" := by
  have room : source.padding = [sentinel] ++ source.padding.tail := by
    have positive : 0 < SourceText.paddedLength source.length - source.length := by
      rw [SourceText.paddedLength]
      omega
    rw [SourceText.padding]
    obtain ⟨count, more⟩ := Nat.exists_eq_succ_of_ne_zero (Nat.pos_iff_ne_zero.mp positive)
    rw [more]
    rfl
  have padded : cursor.padded
      = (source.text.toList ++ ([sentinel] ++ source.padding.tail)).utf8Encode := by
    rw [divides.padded, source.padded_eq_utf8Encode, ← room]
  have length : cursor.length = source.text.toList.utf8Encode.size := by
    rw [divides.length, source.length_eq_sum, size_utf8Encode]
  have next : cursor.length + 1 = (source.text.toList ++ [sentinel]).utf8Encode.size := by
    rw [List.utf8Encode_append, ByteArray.size_append, length]
    rfl
  rw [sentinelText, next, length, slice?_utf8Encode _ _ _ padded]
  rfl

theorem advance_take (divides : cursor.Divides source before ahead) :
    cursor.advance.Divides source (before ++ ahead.take 1) (ahead.drop 1) := by
  cases ahead with
  | nil =>
      have ended : cursor.isAtEnd = true := divides.isAtEnd_eq
      rw [Cursor.advance, if_pos ended]
      simpa using divides
  | cons character rest => simpa using divides.advance

theorem iterate (divides : cursor.Divides source before ahead) (steps : Nat) :
    (Cursor.advance^[steps] cursor).Divides source (before ++ ahead.take steps)
      (ahead.drop steps) := by
  induction steps with
  | zero => simpa using divides
  | succ steps ih =>
      have next := ih.advance_take
      rw [List.append_assoc, ← List.take_add, List.drop_drop] at next
      rwa [Function.iterate_succ_apply']

end Divides

theorem divides_iterate (source : SourceText) (count : Nat) :
    (advance^[count] source.cursor).Divides source (source.text.toList.take count)
      (source.text.toList.drop count) :=
  (divides_start source).iterate count

theorem divides_iterate_advance (source : SourceText) (before ahead : List Char)
    (whole : before ++ ahead = source.text.toList) :
    (advance^[before.length] source.cursor).Divides source before ahead := by
  have reached := divides_iterate source before.length
  rwa [← whole, List.take_left, List.drop_left] at reached

/-! How far a cursor is from the end, whatever bytes it walks over. -/

def charactersLeft (cursor : Cursor) : Nat :=
  if cursor.isAtEnd then 0 else cursor.advance.charactersLeft + 1
termination_by cursor.remaining
decreasing_by exact remaining_advance_lt (by simpa using ‹¬cursor.isAtEnd = true›)

theorem charactersLeft_advance (cursor : Cursor) :
    cursor.advance.charactersLeft = cursor.charactersLeft - 1 := by
  by_cases ended : cursor.isAtEnd = true
  · have stays : cursor.advance = cursor := by rw [advance, if_pos ended]
    rw [stays, charactersLeft, if_pos ended]
  · rw [charactersLeft.eq_1 cursor, if_neg ended, Nat.add_sub_cancel]

theorem Divides.charactersLeft_eq {cursor : Cursor} {source : SourceText} {before ahead : List Char}
    (divides : cursor.Divides source before ahead) : cursor.charactersLeft = ahead.length := by
  induction ahead generalizing cursor before with
  | nil => rw [charactersLeft, divides.isAtEnd_eq]; rfl
  | cons character rest ih =>
      rw [charactersLeft, divides.isAtEnd_eq, ih divides.advance]
      rfl

def Reaches (start stop : Cursor) : Prop := ∃ steps, advance^[steps] start = stop

namespace Reaches

variable {start middle stop : Cursor}

theorem refl (cursor : Cursor) : cursor.Reaches cursor := ⟨0, rfl⟩

theorem advance (reaches : start.Reaches stop) : start.Reaches stop.advance := by
  obtain ⟨steps, rfl⟩ := reaches
  exact ⟨steps + 1, Function.iterate_succ_apply' _ _ _⟩

theorem trans (first : start.Reaches middle) (second : middle.Reaches stop) :
    start.Reaches stop := by
  obtain ⟨passed, rfl⟩ := first
  obtain ⟨steps, rfl⟩ := second
  exact ⟨steps + passed, Function.iterate_add_apply _ _ _ _⟩

theorem eatWhile (accepts : Char → Bool) (reaches : start.Reaches stop) :
    start.Reaches (stop.eatWhile accepts) := by
  fun_induction Cursor.eatWhile accepts stop with
  | case1 => exact reaches
  | case2 cursor inside accepted ih => exact ih reaches.advance
  | case3 => exact reaches

theorem charactersLeft_le (reaches : start.Reaches stop) :
    stop.charactersLeft ≤ start.charactersLeft := by
  obtain ⟨steps, rfl⟩ := reaches
  induction steps with
  | zero => exact Nat.le_refl _
  | succ steps ih =>
      rw [Function.iterate_succ_apply', charactersLeft_advance]
      omega

theorem charactersLeft_lt (reaches : start.Reaches stop)
    (closer : stop.remaining < start.remaining) : stop.charactersLeft < start.charactersLeft := by
  obtain ⟨steps, rfl⟩ := reaches
  have inside : ¬start.isAtEnd = true := by
    rw [isAtEnd, decide_eq_true_eq]
    rw [remaining.eq_1 start] at closer
    omega
  have left : 0 < start.charactersLeft := by
    rw [charactersLeft, if_neg inside]
    exact Nat.succ_pos _
  cases steps with
  | zero => exact absurd closer (Nat.lt_irrefl _)
  | succ steps =>
      have first : start.advance.Reaches (Cursor.advance^[steps + 1] start) := ⟨steps, rfl⟩
      have lower := first.charactersLeft_le
      rw [charactersLeft_advance] at lower
      omega

end Reaches

end Cursor

end FrontEnd
