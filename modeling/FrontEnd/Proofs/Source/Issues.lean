import FrontEnd.Proofs.Source.Visits

/-! The encoding issues of a source, told by its characters. They are found among the bytes, but a
byte order mark is the character that begins the source, and a zero byte is a null character:
no other character has one in it. -/

namespace FrontEnd

def EncodingIssueKind.character : EncodingIssueKind → Char
  | .byteOrderMark => '\uFEFF'
  | .interiorNull => '\x00'

namespace EncodingIssue

theorem mem_nullOffsets_iff {bytes : ByteArray} {start offset : Nat} :
    offset ∈ nullOffsets bytes start ↔ start ≤ offset ∧ bytes[offset]? = some 0 := by
  fun_induction nullOffsets bytes start with
  | case1 start inside zero ih =>
      rw [List.mem_cons, ih]
      constructor
      · rintro (rfl | ⟨further, found⟩)
        · exact ⟨Nat.le_refl _, by rw [getElem?_pos bytes offset inside, zero]⟩
        · exact ⟨by omega, found⟩
      · rintro ⟨within, found⟩
        rcases Nat.eq_or_lt_of_le within with rfl | further
        · exact .inl rfl
        · exact .inr ⟨further, found⟩
  | case2 start inside other ih =>
      rw [ih]
      constructor
      · rintro ⟨further, found⟩
        exact ⟨by omega, found⟩
      · rintro ⟨within, found⟩
        rcases Nat.eq_or_lt_of_le within with rfl | further
        · rw [getElem?_pos bytes start inside] at found
          exact absurd (Option.some.inj found) other
        · exact ⟨further, found⟩
  | case3 start outside =>
      constructor
      · intro listed
        cases listed
      · rintro ⟨within, found⟩
        rw [getElem?_neg bytes offset (by omega)] at found
        cases found

theorem pairwise_nullOffsets (bytes : ByteArray) (start : Nat) :
    (nullOffsets bytes start).Pairwise (· < ·) := by
  fun_induction nullOffsets bytes start with
  | case1 start inside zero ih =>
      refine .cons ?_ ih
      intro later listed
      exact (mem_nullOffsets_iff.mp listed).1
  | case2 start inside other ih => exact ih
  | case3 start outside => exact .nil

/-! The scan as searches. Each begins behind the null byte that the one before it has found. -/

/-- Where the bytes from `start` on are zero, by a search of all that is left for each of them.
A place that 32 bits cannot hold is left out; what lies behind the end cannot be searched. -/
def searchNulls? (bytes : ByteArray) (start : Nat) : Option (List Nat) :=
  if start ≤ bytes.size then
    match (bytes.data.toList.drop start).findIdx? (· == 0) with
    | none => some []
    | some passed => do
        let later ← searchNulls? bytes (start + passed + 1)
        if start + passed ≤ sourceLimit then return (start + passed) :: later else return later
  else none
termination_by bytes.size + 1 - start

def search? (bytes : ByteArray) : Option (List EncodingIssue) := do
  let offsets ← searchNulls? bytes 0
  return (if startsWithByteOrderMark bytes then [⟨.byteOrderMark, 0, 3⟩] else [])
    ++ offsets.map fun offset => ⟨.interiorNull, offset, 1⟩

theorem nullOffsets_eq (bytes : ByteArray) (start : Nat) :
    nullOffsets bytes start =
      match (bytes.data.toList.drop start).findIdx? (· == 0) with
      | none => []
      | some passed => (start + passed) :: nullOffsets bytes (start + passed + 1) := by
  fun_induction nullOffsets bytes start with
  | case1 start inside zero ih =>
      have first : (bytes.data.toList[start] == 0) = true := beq_iff_eq.mpr zero
      rw [List.drop_eq_getElem_cons inside, List.findIdx?_cons, if_pos first]
      rfl
  | case2 start inside other ih =>
      have first : ¬(bytes.data.toList[start] == 0) = true := fun same => other (beq_iff_eq.mp same)
      rw [List.drop_eq_getElem_cons inside, List.findIdx?_cons, if_neg first, ih]
      cases (bytes.data.toList.drop (start + 1)).findIdx? (· == 0) with
      | none => rfl
      | some passed =>
          have place : start + 1 + passed = start + (passed + 1) := by omega
          simp [place]
  | case3 start outside =>
      have none_left : bytes.data.toList.length ≤ start := Nat.le_of_not_lt outside
      rw [List.drop_eq_nil_of_le none_left]
      rfl

theorem searchNulls?_eq {bytes : ByteArray} {start : Nat} (small : bytes.size ≤ sourceLimit)
    (inside : start ≤ bytes.size) : searchNulls? bytes start = some (nullOffsets bytes start) := by
  fun_induction searchNulls? bytes start with
  | case1 start within none_left => rw [nullOffsets_eq, none_left]
  | case2 start within passed found ih =>
      have closer : passed < (bytes.data.toList.drop start).length :=
        (List.findIdx?_eq_some_iff_getElem.mp found).1
      have length : (bytes.data.toList.drop start).length = bytes.size - start := List.length_drop
      have fits : start + passed ≤ sourceLimit := by omega
      rw [nullOffsets_eq, found, ih (by omega)]
      simp [fits]
  | case3 start outside => exact absurd inside outside

theorem search?_eq {bytes : ByteArray} (small : bytes.size ≤ sourceLimit) :
    search? bytes = some (all bytes) := by
  rw [search?, searchNulls?_eq small (Nat.zero_le _)]
  rfl

end EncodingIssue

namespace Utf8

theorem getElem?_eq_getElem?_data (bytes : ByteArray) (index : Nat) :
    bytes[index]? = bytes.data[index]? := rfl

theorem getElem?_append_size_add (first second : ByteArray) (index : Nat) :
    (first ++ second)[first.size + index]? = second[index]? := by
  have later : first.data.size ≤ first.size + index := Nat.le_add_right _ _
  rw [getElem?_eq_getElem?_data, getElem?_eq_getElem?_data, ByteArray.data_append,
    Array.getElem?_append_right later]
  exact congrArg (second.data[·]?) (Nat.add_sub_cancel_left _ _)

theorem append_extract_of_agrees {front bytes : ByteArray}
    (agrees : ∀ index (inside : index < front.size), bytes[index]? = some front[index]) :
    front ++ bytes.extract front.size bytes.size = bytes := by
  have shorter : front.size ≤ bytes.size := by
    by_contra longer
    have last := agrees bytes.size (by omega)
    rw [getElem?_neg bytes _ (Nat.lt_irrefl _)] at last
    cases last
  have same : bytes.extract 0 front.size = front := by
    apply ByteArray.ext_getElem
    · rw [ByteArray.size_extract]
      omega
    · intro index inside within
      have here := agrees index within
      rw [getElem?_pos bytes index (by omega)] at here
      simpa [ByteArray.getElem_extract] using here
  have whole : bytes.extract 0 bytes.size
      = bytes.extract 0 front.size ++ bytes.extract front.size bytes.size :=
    ByteArray.extract_eq_extract_append_extract _ (Nat.zero_le _) shorter
  rwa [same, ByteArray.extract_zero_size, eq_comm] at whole

theorem exists_cons_of_agrees {character : Char} {characters : List Char}
    (agrees : ∀ index (inside : index < [character].utf8Encode.size),
      characters.utf8Encode[index]? = some [character].utf8Encode[index]) :
    ∃ rest, characters = character :: rest := by
  obtain ⟨rest, whole⟩ :=
    List.isPrefix_of_utf8Encode_append_eq_utf8Encode _ (append_extract_of_agrees agrees)
  exact ⟨rest, whole.symm⟩

theorem exists_append_of_isUTF8FirstByte {characters : List Char} {offset : Nat}
    (inside : offset < characters.utf8Encode.size)
    (first : characters.utf8Encode[offset].IsUTF8FirstByte) :
    ∃ before rest, characters = before ++ rest ∧ before.utf8Encode.size = offset := by
  have valid : (⟨offset⟩ : String.Pos.Raw).IsValid (String.ofList characters) :=
    String.Pos.Raw.isValid_iff_isUTF8FirstByte.mpr (.inr ⟨inside, first⟩)
  obtain ⟨left, right, whole, place⟩ := String.Pos.Raw.isValid_iff_exists_append.mp valid
  refine ⟨left.toList, right.toList, ?_, ?_⟩
  · rw [← String.toList_append, ← whole, String.toList_ofList]
  · rw [String.utf8Encode_toList]
    exact (congrArg String.Pos.Raw.byteIdx place).symm

theorem getElem?_utf8Encode_append (before rest : List Char) :
    (before ++ rest).utf8Encode[before.utf8Encode.size]? = rest.utf8Encode[0]? := by
  rw [List.utf8Encode_append]
  exact getElem?_append_size_add _ _ 0

theorem getElem?_utf8Encode_cons {character : Char} {index : Nat}
    (inside : index < character.utf8Size) (rest : List Char) :
    (character :: rest).utf8Encode[index]? = (String.utf8EncodeChar character)[index]? := by
  rw [← String.length_utf8EncodeChar] at inside
  rw [getElem?_eq_getElem?_data, ← Array.getElem?_toList, List.utf8Encode,
    List.toList_data_toByteArray, List.flatMap_cons, List.getElem?_append_left inside]

theorem getElem?_utf8Encode_eq_zero_iff {characters : List Char} {offset : Nat} :
    characters.utf8Encode[offset]? = some 0 ↔
      ∃ before rest, characters = before ++ '\x00' :: rest ∧ before.utf8Encode.size = offset := by
  constructor
  · intro found
    obtain ⟨inside, zero⟩ := getElem?_eq_some_iff.mp found
    have first : characters.utf8Encode[offset].IsUTF8FirstByte := by
      rw [zero]
      decide
    obtain ⟨before, rest, rfl, rfl⟩ := exists_append_of_isUTF8FirstByte inside first
    rw [getElem?_utf8Encode_append] at found
    obtain ⟨later, rfl⟩ : ∃ later, rest = '\x00' :: later := by
      apply exists_cons_of_agrees
      intro index within
      obtain rfl : index = 0 := Nat.lt_one_iff.mp within
      exact found
    exact ⟨before, later, rfl, rfl⟩
  · rintro ⟨before, rest, rfl, rfl⟩
    rw [getElem?_utf8Encode_append, List.utf8Encode_cons]
    rfl

theorem startsWithByteOrderMark_utf8Encode_iff {characters : List Char} :
    EncodingIssue.startsWithByteOrderMark characters.utf8Encode = true ↔
      ∃ rest, characters = '\uFEFF' :: rest := by
  simp only [EncodingIssue.startsWithByteOrderMark, Bool.and_eq_true, beq_iff_eq]
  constructor
  · rintro ⟨⟨first, second⟩, third⟩
    apply exists_cons_of_agrees
    intro index within
    have three : index < 3 := within
    match index with
    | 0 => exact first
    | 1 => exact second
    | 2 => exact third
  · rintro ⟨rest, rfl⟩
    rw [List.utf8Encode_cons]
    exact ⟨⟨rfl, rfl⟩, rfl⟩

end Utf8

namespace SourceText

variable {source : SourceText}

theorem mem_issues_iff {issue : EncodingIssue} :
    issue ∈ source.issues ↔
      (issue = ⟨.byteOrderMark, 0, 3⟩ ∧ ∃ rest, source.text.toList = '\uFEFF' :: rest) ∨
      ∃ before rest, source.text.toList = before ++ '\x00' :: rest ∧
        issue = ⟨.interiorNull, before.utf8Encode.size, 1⟩ := by
  rw [issues, EncodingIssue.all, List.mem_append, source.bytes_eq]
  apply or_congr
  · rw [← Utf8.startsWithByteOrderMark_utf8Encode_iff]
    split <;> simp_all
  · rw [List.mem_map]
    constructor
    · rintro ⟨offset, listed, rfl⟩
      obtain ⟨before, rest, whole, rfl⟩ :=
        Utf8.getElem?_utf8Encode_eq_zero_iff.mp (EncodingIssue.mem_nullOffsets_iff.mp listed).2
      exact ⟨before, rest, whole, rfl⟩
    · rintro ⟨before, rest, whole, rfl⟩
      have zero := Utf8.getElem?_utf8Encode_eq_zero_iff.mpr ⟨before, rest, whole, rfl⟩
      exact ⟨_, EncodingIssue.mem_nullOffsets_iff.mpr ⟨Nat.zero_le _, zero⟩, rfl⟩

theorem exists_append_of_mem_issues {issue : EncodingIssue} (listed : issue ∈ source.issues) :
    ∃ before rest, source.text.toList = before ++ issue.kind.character :: rest ∧
      before.utf8Encode.size = issue.position := by
  rcases mem_issues_iff.mp listed with ⟨rfl, rest, whole⟩ | ⟨before, rest, whole, rfl⟩
  · exact ⟨[], rest, whole, rfl⟩
  · exact ⟨before, rest, whole, rfl⟩

theorem issues_ne_nil_iff :
    source.issues ≠ [] ↔
      (∃ rest, source.text.toList = '\uFEFF' :: rest) ∨ '\x00' ∈ source.text.toList := by
  constructor
  · intro nonempty
    obtain ⟨issue, listed⟩ := List.exists_mem_of_ne_nil _ nonempty
    rcases mem_issues_iff.mp listed with ⟨_, begins⟩ | ⟨before, rest, whole, _⟩
    · exact .inl begins
    · exact .inr (by simp [whole])
  · rintro (begins | null)
    · exact List.ne_nil_of_mem (mem_issues_iff.mpr (.inl ⟨rfl, begins⟩))
    · obtain ⟨before, rest, whole⟩ := List.append_of_mem null
      exact List.ne_nil_of_mem (mem_issues_iff.mpr (.inr ⟨before, rest, whole, rfl⟩))

theorem pairwise_issues (source : SourceText) :
    source.issues.Pairwise fun earlier later => earlier.position < later.position := by
  have nulls := EncodingIssue.pairwise_nullOffsets source.bytes 0
  rw [issues, EncodingIssue.all, List.pairwise_append]
  refine ⟨?_, List.pairwise_map.mpr nulls, ?_⟩
  · split
    · exact List.pairwise_singleton _ _
    · exact .nil
  · intro mark listed null found
    obtain ⟨offset, zero, rfl⟩ := List.mem_map.mp found
    split at listed
    · rename_i begins
      obtain rfl := List.mem_singleton.mp listed
      -- the byte order mark itself has no zero byte
      refine Nat.pos_of_ne_zero ?_
      rintro rfl
      have here := (EncodingIssue.mem_nullOffsets_iff.mp zero).2
      simp [EncodingIssue.startsWithByteOrderMark, here] at begins
    · cases listed

theorem bytes_startWithByteOrderMark_iff :
    EncodingIssue.startsWithByteOrderMark source.bytes = true ↔
      source.text.toList.head? = some '\uFEFF' := by
  rw [source.bytes_eq, Utf8.startsWithByteOrderMark_utf8Encode_iff, List.head?_eq_some_iff]

theorem mem_nullOffsets_bytes_iff {place : Nat} :
    place ∈ EncodingIssue.nullOffsets source.bytes 0 ↔
      ∃ before rest, source.text.toList = before ++ '\x00' :: rest ∧
        (before.map Char.utf8Size).sum = place := by
  simp only [EncodingIssue.mem_nullOffsets_iff, source.bytes_eq,
    Utf8.getElem?_utf8Encode_eq_zero_iff, size_utf8Encode, Nat.zero_le, true_and]

theorem stop_le_of_mem_issues {issue : EncodingIssue} (listed : issue ∈ source.issues) :
    issue.position + issue.length ≤ source.length := by
  rcases mem_issues_iff.mp listed with ⟨rfl, rest, whole⟩ | ⟨before, rest, whole, rfl⟩
  · exact size_le_size_bytes (show ['\uFEFF'] ++ rest = source.text.toList from whole.symm)
  · have inside := size_le_size_bytes
      (show (before ++ ['\x00']) ++ rest = source.text.toList by simpa using whole.symm)
    rwa [List.utf8Encode_append, ByteArray.size_append] at inside

/-- A source is listed with a byte order mark exactly where it begins with one, and behind that
with its null characters, all of them once and from the start on. Searches for null bytes find the
same and never begin behind the end. A cursor that comes to a listed null character shows it and is
not at the end. -/
theorem issues_exact (source : SourceText) :
    EncodingIssue.search? source.bytes = some source.issues ∧
    (∃ places : List Nat,
      source.issues =
        (if source.text.toList.head? = some '\uFEFF' then [⟨.byteOrderMark, 0, 3⟩] else [])
          ++ places.map (fun place => ⟨.interiorNull, place, 1⟩) ∧
      places.Pairwise (· < ·) ∧
      ∀ place, place ∈ places ↔ ∃ before rest, source.text.toList = before ++ '\x00' :: rest ∧
        (before.map Char.utf8Size).sum = place) ∧
    ∀ issue ∈ source.issues, issue.position + issue.length ≤ source.length ∧
      (issue.kind = .interiorNull →
        (∃ cursor, source.Visits cursor ∧ cursor.offset = issue.position) ∧
        ∀ cursor, source.Visits cursor → cursor.offset = issue.position →
          cursor.peek = '\x00' ∧ cursor.isAtEnd = false) := by
  refine ⟨EncodingIssue.search?_eq source.size_le, ?_, ?_⟩
  · refine ⟨EncodingIssue.nullOffsets source.bytes 0, ?_, EncodingIssue.pairwise_nullOffsets _ _,
      fun _ => mem_nullOffsets_bytes_iff⟩
    simp only [issues, EncodingIssue.all, bytes_startWithByteOrderMark_iff]
  · intro issue listed
    refine ⟨stop_le_of_mem_issues listed, ?_⟩
    intro null
    obtain ⟨before, rest, whole, place⟩ := exists_append_of_mem_issues listed
    rw [null] at whole
    have reached := Cursor.divides_iterate_advance source before _ whole.symm
    refine ⟨⟨_, source.visits_iterate before.length, reached.offset_eq.trans place⟩, ?_⟩
    intro cursor visited here
    have divides := visited.divides whole.symm (here.trans place.symm)
    exact ⟨divides.peek_eq, divides.isAtEnd_eq⟩

theorem issues_exact_null_behind_mark :
    ∃ source : SourceText, source.text = "\uFEFF\x00é\x00" ∧
      source.issues = [⟨.byteOrderMark, 0, 3⟩, ⟨.interiorNull, 3, 1⟩, ⟨.interiorNull, 6, 1⟩] ∧
      (∃ before rest, source.text.toList = before ++ '\x00' :: rest ∧
        (before.map Char.utf8Size).sum = 6) ∧
      ∃ cursor, source.Visits cursor ∧ cursor.offset = 6 ∧ cursor.peek = '\x00' ∧
        cursor.isAtEnd = false := by
  let source : SourceText := ⟨⟨0⟩, "\uFEFF\x00é\x00", by decide⟩
  have listed : source.issues
      = [⟨.byteOrderMark, 0, 3⟩, ⟨.interiorNull, 3, 1⟩, ⟨.interiorNull, 6, 1⟩] := by decide +kernel
  obtain ⟨_, _, within⟩ := source.issues_exact
  have last : ⟨.interiorNull, 6, 1⟩ ∈ source.issues := by simp [listed]
  obtain ⟨_, shown⟩ := within _ last
  obtain ⟨⟨cursor, visited, here⟩, all⟩ := shown rfl
  exact ⟨source, rfl, listed, ⟨['\uFEFF', '\x00', 'é'], [], by decide, by decide⟩,
    cursor, visited, here, all cursor visited here⟩

end SourceText

end FrontEnd
