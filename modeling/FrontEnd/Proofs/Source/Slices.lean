import FrontEnd.Proofs.Source.Padding

/-! Texts cut out of a source by byte offsets. A cut succeeds exactly between two places of the
source, in order, and what it gives is what a cursor consumes on its way from the one to the
other. -/

namespace FrontEnd

namespace Utf8

theorem isBoundary_append_add (first second : ByteArray) (index : Nat) :
    isBoundary (first ++ second) (first.size + index) = isBoundary second index := by
  rw [isBoundary, isBoundary, getElem?_append_size_add, ByteArray.size_append]
  cases second[index]? with
  | none => exact Bool.eq_iff_iff.mpr (by simp)
  | some byte => rfl

theorem isBoundary_utf8Encode_cons {character : Char} {rest : List Char} {index : Nat}
    (inside : index < character.utf8Size)
    (boundary : isBoundary (character :: rest).utf8Encode index = true) : index = 0 := by
  obtain ⟨first, others, spelled⟩ :
      ∃ first others, String.utf8EncodeChar character = first :: others :=
    List.exists_cons_of_ne_nil String.utf8EncodeChar_ne_nil
  have continued := (isCharacter_utf8EncodeChar character).isContinuation_of_mem_tail
  have length : others.length + 1 = character.utf8Size := by
    rw [← String.length_utf8EncodeChar, spelled, List.length_cons]
  rw [isBoundary, getElem?_utf8Encode_cons inside, spelled] at boundary
  rw [spelled] at continued
  cases index with
  | zero => rfl
  | succ index =>
      have within : index < others.length := by omega
      rw [List.getElem?_cons_succ, List.getElem?_eq_getElem within] at boundary
      simp [continued _ (List.getElem_mem within)] at boundary

theorem exists_append_of_isBoundary {characters rest : List Char} {index : Nat}
    (inside : index ≤ characters.utf8Encode.size)
    (boundary : isBoundary (characters ++ rest).utf8Encode index = true) :
    ∃ before after, characters = before ++ after ∧ before.utf8Encode.size = index := by
  induction characters generalizing index with
  | nil => exact ⟨[], [], rfl, (Nat.le_zero.mp inside).symm⟩
  | cons character others ih =>
      by_cases within : index < character.utf8Size
      · have start := isBoundary_utf8Encode_cons within boundary
        exact ⟨[], _, rfl, start.symm⟩
      · obtain ⟨further, rfl⟩ := Nat.exists_eq_add_of_le (Nat.le_of_not_lt within)
        have width : [character].utf8Encode.size = character.utf8Size := by simp [size_utf8Encode]
        rw [List.utf8Encode_cons, ByteArray.size_append, width] at inside
        rw [List.cons_append, List.utf8Encode_cons, ← width, isBoundary_append_add] at boundary
        obtain ⟨before, after, rfl, size⟩ := ih (by omega) boundary
        refine ⟨character :: before, after, rfl, ?_⟩
        rw [List.utf8Encode_cons, ByteArray.size_append, width, size]

end Utf8

namespace SourceText

/-- The offset lies between two characters of the source, or at one of its ends. -/
def HasPlace (source : SourceText) (offset : Nat) : Prop :=
  ∃ before rest, source.text.toList = before ++ rest ∧ (before.map Char.utf8Size).sum = offset

variable {source : SourceText} {start stop : Nat} {first second third cursor : Cursor}

theorem isBoundary_padded_iff (inside : start ≤ source.length) :
    Utf8.isBoundary source.padded start = true ↔ source.HasPlace start := by
  rw [source.padded_eq_utf8Encode]
  constructor
  · intro boundary
    have within : start ≤ source.text.toList.utf8Encode.size := by rwa [← source.bytes_eq]
    obtain ⟨before, rest, whole, size⟩ := Utf8.exists_append_of_isBoundary within boundary
    exact ⟨before, rest, whole, by rw [← size_utf8Encode, size]⟩
  · rintro ⟨before, rest, whole, rfl⟩
    rw [whole, ← size_utf8Encode, List.append_assoc]
    exact Utf8.isBoundary_utf8Encode before (rest ++ source.padding)

theorem exists_between_of_hasPlace (ordered : start ≤ stop) (starts : source.HasPlace start)
    (stops : source.HasPlace stop) :
    ∃ before middle rest, source.text.toList = before ++ (middle ++ rest) ∧
      (before.map Char.utf8Size).sum = start ∧ ((before ++ middle).map Char.utf8Size).sum = stop := by
  obtain ⟨before, after, whole, rfl⟩ := starts
  obtain ⟨upTo, rest, same, rfl⟩ := stops
  rw [← size_utf8Encode, ← size_utf8Encode] at ordered
  obtain ⟨middle, rfl⟩ := isPrefix_of_size_le ⟨after, whole.symm⟩ ⟨rest, same.symm⟩ ordered
  exact ⟨before, middle, rest, by rw [same, List.append_assoc], rfl, rfl⟩

namespace Visits

theorem padded_eq (visited : source.Visits cursor) : cursor.padded = source.padded := by
  obtain ⟨_, _, divides⟩ := visits_iff_exists_divides.mp visited
  exact divides.padded

theorem slice?_between (visited : source.Visits cursor) {before middle rest : List Char}
    (whole : source.text.toList = before ++ (middle ++ rest)) :
    cursor.slice? (before.map Char.utf8Size).sum ((before ++ middle).map Char.utf8Size).sum
      = some (String.ofList middle) := by
  have padded : cursor.padded = (before ++ (middle ++ (rest ++ source.padding))).utf8Encode := by
    rw [visited.padded_eq, source.padded_eq_utf8Encode, whole]
    simp
  rw [← size_utf8Encode, ← size_utf8Encode]
  exact Cursor.slice?_utf8Encode before middle _ padded

theorem slice?_isSome_iff (visited : source.Visits cursor) (inside : stop ≤ source.length) :
    (cursor.slice? start stop).isSome = true ↔
      start ≤ stop ∧ source.HasPlace start ∧ source.HasPlace stop := by
  constructor
  · intro cut
    rw [Cursor.slice?, visited.padded_eq] at cut
    split at cut
    · rename_i allowed
      simp only [Bool.and_eq_true, decide_eq_true_eq] at allowed
      obtain ⟨⟨ordered, starts⟩, stops⟩ := allowed
      exact ⟨ordered, (isBoundary_padded_iff (Nat.le_trans ordered inside)).mp starts,
        (isBoundary_padded_iff inside).mp stops⟩
    · cases cut
  · rintro ⟨ordered, starts, stops⟩
    obtain ⟨before, middle, rest, whole, rfl, rfl⟩ := exists_between_of_hasPlace ordered starts stops
    rw [visited.slice?_between whole]
    rfl

theorem slice?_eq_some_iff (visited : source.Visits cursor) (inside : stop ≤ source.length)
    {text : String} :
    cursor.slice? start stop = some text ↔
      ∃ before middle rest, source.text.toList = before ++ (middle ++ rest) ∧
        (before.map Char.utf8Size).sum = start ∧
        ((before ++ middle).map Char.utf8Size).sum = stop ∧ text = String.ofList middle := by
  constructor
  · intro cut
    have succeeds : (cursor.slice? start stop).isSome = true := by rw [cut]; rfl
    obtain ⟨ordered, starts, stops⟩ := (visited.slice?_isSome_iff inside).mp succeeds
    obtain ⟨before, middle, rest, whole, rfl, rfl⟩ := exists_between_of_hasPlace ordered starts stops
    rw [visited.slice?_between whole] at cut
    exact ⟨before, middle, rest, whole, rfl, rfl, (Option.some.inj cut).symm⟩
  · rintro ⟨before, middle, rest, whole, rfl, rfl, rfl⟩
    exact visited.slice?_between whole

end Visits

end SourceText

namespace Cursor

def consumes (cursor : Cursor) : Nat → List Char
  | 0 => []
  | steps + 1 =>
      if cursor.isAtEnd then [] else cursor.peek :: cursor.advance.consumes steps

theorem Divides.consumes_eq {cursor : Cursor} {source : SourceText} {before ahead : List Char}
    (divides : cursor.Divides source before ahead) (steps : Nat) :
    cursor.consumes steps = ahead.take steps := by
  induction steps generalizing cursor before ahead with
  | zero => rfl
  | succ steps ih =>
      rw [consumes, divides.isAtEnd_eq, divides.peek_eq, ih divides.advance_take]
      cases ahead with
      | nil => rfl
      | cons character rest => simp

end Cursor

namespace SourceText.Visits

variable {source : SourceText} {first second third cursor : Cursor}

/-- Between two cursors lies what the first consumes until it is where the second is. -/
theorem slice?_offsets (visited : source.Visits cursor) (earlier : source.Visits first)
    (later : source.Visits second) (ordered : first.offset ≤ second.offset) :
    ∃ steps, Cursor.advance^[steps] first = second ∧
      cursor.slice? first.offset second.offset = some (String.ofList (first.consumes steps)) := by
  obtain ⟨before, passed, ahead, here, there⟩ := earlier.between later ordered
  refine ⟨passed.length, here.iterate_eq there, ?_⟩
  rw [here.offset_eq_sum, there.offset_eq_sum, here.consumes_eq, List.take_left]
  exact visited.slice?_between here.whole.symm

theorem slice?_append (visited : source.Visits cursor) (earlier : source.Visits first)
    (middle : source.Visits second) (later : source.Visits third)
    (ordered : first.offset ≤ second.offset) (further : second.offset ≤ third.offset) :
    ∃ left right, cursor.slice? first.offset second.offset = some left ∧
      cursor.slice? second.offset third.offset = some right ∧
      cursor.slice? first.offset third.offset = some (left ++ right) := by
  obtain ⟨before, left, _, here, there⟩ := earlier.between middle ordered
  obtain ⟨upTo, right, ahead, again, beyond⟩ := middle.between later further
  obtain rfl : before ++ left = upTo := eq_of_size_eq ⟨_, there.whole⟩ ⟨_, again.whole⟩
    (there.offset_eq.symm.trans again.offset_eq)
  have whole : source.text.toList = before ++ ((left ++ right) ++ ahead) := by
    simp [← again.whole]
  have near : source.text.toList = before ++ (left ++ (right ++ ahead)) := by simp [whole]
  have behind : source.text.toList = (before ++ left) ++ (right ++ ahead) := by simp [whole]
  rw [here.offset_eq_sum, there.offset_eq_sum, beyond.offset_eq_sum]
  refine ⟨_, _, visited.slice?_between near, visited.slice?_between behind, ?_⟩
  rw [List.append_assoc, visited.slice?_between whole, String.ofList_append]

end SourceText.Visits

end FrontEnd
