import FrontEnd.Proofs.Source.Place
import FrontEnd.Proofs.Token.Segments
import FrontEnd.Token.Scan

/-! Scanning reads the segment that the cursor stands before: a lexeme as its token, with the
cursor just behind it, and an offence as its error. -/

namespace FrontEnd

theorem takeWhile_append_of_ends {accepts : Char → Bool} {word rest : List Char}
    (letters : ∀ character, accepts character = true → isWordCharacter character = true)
    (ends : Layout.continuesWord rest = false) :
    (word ++ rest).takeWhile accepts = word.takeWhile accepts ∧
      (word ++ rest).dropWhile accepts = word.dropWhile accepts ++ rest := by
  induction word with
  | nil =>
      cases rest with
      | nil => simp
      | cons next others =>
          have refused : accepts next = false := by
            by_contra accepted
            rw [Layout.continuesWord, letters next (by simpa using accepted)] at ends
            cases ends
          simp [refused]
  | cons first others ih =>
      by_cases accepted : accepts first = true
      · simp [accepted, ih]
      · simp [accepted]

theorem Radix.announced_of_not_word {first second : Char}
    (separate : isWordCharacter second = false) : announced first second = .decimal := by
  unfold announced
  split
  · cases separate
  · cases separate
  · cases separate
  · cases separate
  · rfl

namespace Cursor.Divides

variable {start : Cursor} {source : SourceText} {before word rest : List Char}

theorem eatWhile_word {accepts : Char → Bool}
    (letters : ∀ character, accepts character = true → isWordCharacter character = true)
    (ends : Layout.continuesWord rest = false)
    (divides : start.Divides source before (word ++ rest)) :
    (start.eatWhile accepts).Divides source (before ++ word.takeWhile accepts)
      (word.dropWhile accepts ++ rest) := by
  have moved := divides.eatWhile accepts
  rwa [(takeWhile_append_of_ends letters ends).1, (takeWhile_append_of_ends letters ends).2] at moved

theorem eatWhile_letters (letters : ∀ character ∈ word, isWordCharacter character = true)
    (ends : Layout.continuesWord rest = false)
    (divides : start.Divides source before (word ++ rest)) :
    (start.eatWhile isWordCharacter).Divides source (before ++ word) rest := by
  have moved := divides.eatWhile_word (fun _ letter => letter) ends
  rwa [List.takeWhile_eq_self_iff.mpr letters, List.dropWhile_eq_nil_iff.mpr letters] at moved

theorem announced_eq (nonempty : word ≠ []) (ends : Layout.continuesWord rest = false)
    (divides : start.Divides source before (word ++ rest)) :
    Radix.announced start.peek start.peekNext = literalRadix word := by
  obtain ⟨first, others, rfl⟩ := List.exists_cons_of_ne_nil nonempty
  rw [divides.peek_eq, divides.peekNext_eq, literalRadix]
  cases others with
  | cons second others => rfl
  | nil =>
      have separate : isWordCharacter (rest.headD sentinel) = false := by
        cases rest with
        | nil => rfl
        | cons next _ => exact ends
      exact (Radix.announced_of_not_word separate).trans
        (Radix.announced_of_not_word (show isWordCharacter sentinel = false by decide)).symm

theorem past_prefix (divides : start.Divides source before (word ++ rest)) :
    ∃ announcement, announcement ++ literalDigits word = word ∧
      (if literalRadix word = .decimal then start else start.advance.advance).Divides source
        (before ++ announcement) (literalDigits word ++ rest) := by
  by_cases decimal : literalRadix word = .decimal
  · have digits : literalDigits word = word := by simp [literalDigits, decimal]
    exact ⟨[], by simp [digits], by simpa [decimal, digits] using divides⟩
  · obtain ⟨letter, _, word_eq⟩ := literal_eq_of_announced decimal
    refine ⟨['0', letter], word_eq.symm, ?_⟩
    rw [word_eq] at divides
    simpa [decimal] using divides.advance.advance

theorem offset_eq_iff {stop : Cursor} {passed ahead : List Char}
    (starts : start.Divides source before (passed ++ ahead))
    (stops : stop.Divides source (before ++ passed) ahead) :
    stop.offset = start.offset ↔ passed = [] := by
  rw [starts.offset_eq, stops.offset_eq, List.utf8Encode_append, ByteArray.size_append]
  cases passed with
  | nil => simp
  | cons character _ =>
      have width := character.utf8Size_pos
      simp only [size_utf8Encode, List.map_cons, List.sum_cons, List.cons_ne_nil, iff_false]
      omega

theorem stopsShort_iff {digits stop : Cursor} {radix : Radix}
    (letters : ∀ character ∈ word, isWordCharacter character = true)
    (ends : Layout.continuesWord rest = false)
    (starts : digits.Divides source before (word ++ rest))
    (stops : stop.Divides source (before ++ word.takeWhile radix.isDigit)
      (word.dropWhile radix.isDigit ++ rest)) :
    stop.offset = digits.offset ∨ isWordCharacter stop.peek = true ↔
      ¬(word ≠ [] ∧ ∀ character ∈ word, radix.isDigit character = true) := by
  have whole : word.takeWhile radix.isDigit ++ word.dropWhile radix.isDigit = word :=
    List.takeWhile_append_dropWhile
  rw [← List.dropWhile_eq_nil_iff]
  rw [← whole, List.append_assoc] at starts
  rw [offset_eq_iff starts stops, stops.peek_eq]
  cases left : word.dropWhile radix.isDigit with
  | nil =>
      have separate : isWordCharacter (rest.headD sentinel) = false := by
        cases rest with
        | nil => decide
        | cons next _ => exact ends
      rw [left, List.append_nil] at whole
      rw [List.nil_append, whole, separate]
      simp
  | cons next others =>
      have listed : next ∈ word := by
        rw [← whole, left]
        simp
      simp [letters next listed]

theorem scanNumber_eq (nonempty : word ≠ [])
    (letters : ∀ character ∈ word, isWordCharacter character = true)
    (ends : Layout.continuesWord rest = false)
    (divides : start.Divides source before (word ++ rest)) :
    ∃ stop, stop.Divides source (before ++ word) rest ∧ start.scanNumber =
      (if isIntegerLiteral word then
        .ok ⟨.integerLiteral, String.ofList word, start.position⟩
      else .error ⟨.invalidLiteral (String.ofList word), start.position⟩, stop) := by
  obtain ⟨announcement, word_eq, behind⟩ := divides.past_prefix
  rw [scanNumber, divides.announced_eq nonempty ends]
  generalize (if literalRadix word = .decimal then start else start.advance.advance) = digits at *
  have within : ∀ character ∈ literalDigits word, isWordCharacter character = true := by
    intro character listed
    apply letters
    rw [← word_eq]
    exact List.mem_append_right _ listed
  have whole := List.takeWhile_append_dropWhile (p := (literalRadix word).isDigit)
    (l := literalDigits word)
  have stops := behind.eatWhile_word (fun _ => isWordCharacter_of_isDigit (literalRadix word)) ends
  have short := stopsShort_iff within ends behind stops
  rw [← isIntegerLiteral_iff] at short
  generalize digits.eatWhile (literalRadix word).isDigit = stop at *
  simp only [Bool.or_eq_true, decide_eq_true_eq, short]
  by_cases literal : isIntegerLiteral word = true
  · have all := ((isIntegerLiteral_iff word).mp literal).2
    have reached : stop.Divides source (before ++ word) rest := by
      rw [List.dropWhile_eq_nil_iff.mpr all, List.append_nil] at whole
      rwa [List.dropWhile_eq_nil_iff.mpr all, whole, List.append_assoc, word_eq] at stops
    refine ⟨stop, reached, ?_⟩
    simp [literal, textFrom_eq divides reached]
  · have remaining : ∀ character ∈ (literalDigits word).dropWhile (literalRadix word).isDigit,
        isWordCharacter character = true :=
      fun character listed => within character (List.dropWhile_subset _ listed)
    have reached := stops.eatWhile_letters remaining ends
    rw [List.append_assoc, whole, List.append_assoc, word_eq] at reached
    refine ⟨_, reached, ?_⟩
    simp [literal, textFrom_eq divides reached]

theorem scanToken_of_lexeme {segment : List Char} {kind : TokenKind}
    (leads : Leads segment rest) (found : lexemeKind? segment = some kind)
    (divides : start.Divides source before (segment ++ rest)) :
    ∃ stop, stop.Divides source (before ++ segment) rest ∧
      start.scanToken = (.ok ⟨kind, String.ofList segment, start.position⟩, stop) := by
  obtain ⟨first, others, rfl⟩ := List.exists_cons_of_ne_nil leads.ne_nil
  have peek : start.peek = first := divides.peek_eq
  rw [scanToken, peek]
  rcases TokenKind.isSpelledBy_cases (lexemeKind?_eq_some_iff.mp found) with
    ⟨rfl, literal⟩ | ⟨rfl, identifier⟩ | ⟨character, single, punctuation⟩
  · have digit := isDigit_of_isIntegerLiteral literal
    obtain ⟨letters, ends⟩ := leads.of_isWordCharacter (isWordCharacter_of_isDigit .decimal digit)
    obtain ⟨stop, reached, scanned⟩ := divides.scanNumber_eq leads.ne_nil letters ends
    refine ⟨stop, reached, ?_⟩
    simp [digit, scanned, literal]
  · simp only [isIdentifier, Bool.and_eq_true] at identifier
    have letter := isWordCharacter_of_isWordStart identifier.1
    obtain ⟨letters, ends⟩ := leads.of_isWordCharacter letter
    have reached := divides.eatWhile_letters letters ends
    refine ⟨_, reached, ?_⟩
    simp [isDigit_eq_false_of_isWordStart identifier.1, identifier.1, scanIdentifier,
      textFrom_eq divides reached]
  · obtain ⟨rfl, rfl⟩ := List.cons.inj single
    have separate := (TokenKind.ofPunctuation?_eq_some punctuation).1
    have reached := divides.advance
    refine ⟨_, reached, ?_⟩
    simp [isDigit_eq_false_of_isWordCharacter_eq_false separate,
      isWordStart_eq_false_of_isWordCharacter_eq_false separate, punctuation,
      textFrom_eq divides reached]

theorem scanToken_of_offence {segment : List Char} {kind : LexErrorKind}
    (leads : Leads segment rest) (offends : offence? segment = some kind)
    (divides : start.Divides source before (segment ++ rest)) :
    ∃ stop, start.scanToken = (.error ⟨kind, start.position⟩, stop) := by
  obtain ⟨first, others, rfl⟩ := List.exists_cons_of_ne_nil leads.ne_nil
  have peek : start.peek = first := divides.peek_eq
  rw [scanToken, peek]
  by_cases digit : first.isDigit = true
  · obtain ⟨letters, ends⟩ := leads.of_isWordCharacter (isWordCharacter_of_isDigit .decimal digit)
    obtain ⟨stop, _, scanned⟩ := divides.scanNumber_eq leads.ne_nil letters ends
    simp only [offence?, digit, ↓reduceIte] at offends
    split at offends
    · cases offends
    · rename_i malformed
      cases offends
      exact ⟨stop, by simp [digit, scanned, malformed]⟩
  · simp only [offence?, digit, Bool.false_eq_true, ↓reduceIte] at offends
    split at offends
    · cases offends
    · rename_i begins
      cases offends
      simp only [Bool.or_eq_true, not_or, Bool.not_eq_true] at begins
      have start_eq := isWordStart_eq_false_of_isWordCharacter_eq_false begins.1.1
      have unknown : TokenKind.ofPunctuation? first = none := by simpa using begins.2
      exact ⟨start, by simp [digit, start_eq, unknown]⟩

end Cursor.Divides

end FrontEnd
