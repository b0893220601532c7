import FrontEnd.Proofs.Token.Spelling
import FrontEnd.Token.Offence
import Mathlib.Data.List.SplitBy
import Mathlib.Data.List.TakeWhile

/-! The segments of a text, one after the other. Each is blank, or a lexeme, or an offence. -/

namespace FrontEnd

/-- What may stand before `rest` as a segment: a word that does not go on, or a character that
belongs to no word. -/
inductive Leads : List Char → List Char → Prop
  | word {word rest} : word ≠ [] → (∀ character ∈ word, isWordCharacter character = true) →
      Layout.continuesWord rest = false → Leads word rest
  | single {character rest} : isWordCharacter character = false → Leads [character] rest

namespace Leads

variable {segment rest : List Char}

theorem ne_nil (leads : Leads segment rest) : segment ≠ [] := by
  cases leads with
  | word nonempty _ _ => exact nonempty
  | single _ => simp

theorem of_isWordCharacter {first : Char} {others : List Char}
    (letter : isWordCharacter first = true) (leads : Leads (first :: others) rest) :
    (∀ character ∈ first :: others, isWordCharacter character = true) ∧
      Layout.continuesWord rest = false := by
  cases leads with
  | word _ letters ends => exact ⟨letters, ends⟩
  | single separate =>
      rw [letter] at separate
      cases separate

theorem segments_append (leads : Leads segment rest) :
    segments (segment ++ rest) = segment :: segments rest := by
  have chain : segment.IsChain fun left right => isWordCharacter left && isWordCharacter right := by
    cases leads with
    | word _ letters _ =>
        apply List.Pairwise.isChain
        rw [List.pairwise_iff_forall_sublist]
        intro left right sublist
        simp [letters left (sublist.subset (by simp)), letters right (sublist.subset (by simp))]
    | single _ => exact List.isChain_singleton _
  have apart : ∀ left ∈ segment.getLast?, ∀ right ∈ rest.head?,
      (isWordCharacter left && isWordCharacter right) = false := by
    intro left last right head
    cases leads with
    | word _ _ ends =>
        obtain ⟨tail, rfl⟩ := List.head?_eq_some_iff.mp head
        rw [Layout.continuesWord] at ends
        simp [ends]
    | single separate =>
        obtain rfl : _ = left := by simpa using last
        simp [separate]
  rw [segments, List.splitBy_append apart, List.splitBy_of_isChain leads.ne_nil chain]
  rfl

end Leads

theorem segments_nil : segments [] = [] := List.splitBy_nil _

/-- Every text but the empty one begins with a segment, so that a property of texts may be
proved segment by segment. -/
theorem segmentwise {motive : List Char → Prop} (nil : motive [])
    (segment : ∀ segment rest, Leads segment rest → motive rest → motive (segment ++ rest))
    (text : List Char) : motive text := by
  induction length : text.length using Nat.strongRecOn generalizing text with
  | ind size ih =>
      cases text with
      | nil => exact nil
      | cons first rest =>
          by_cases letter : isWordCharacter first = true
          · have whole : (first :: rest).takeWhile isWordCharacter
                ++ (first :: rest).dropWhile isWordCharacter = first :: rest :=
              List.takeWhile_append_dropWhile
            rw [← whole]
            apply segment
            · apply Leads.word
              · simp [letter]
              · exact fun character listed => List.mem_takeWhile_imp listed
              · cases left : (first :: rest).dropWhile isWordCharacter with
                | nil => rfl
                | cons next _ =>
                    have stopped := List.head?_dropWhile_not isWordCharacter (first :: rest)
                    simpa [left, Layout.continuesWord] using stopped
            · refine ih _ ?_ _ rfl
              have shorter := (rest.dropWhile_suffix isWordCharacter).length_le
              simp only [List.length_cons] at length
              simp only [List.dropWhile_cons, letter, ↓reduceIte]
              omega
          · refine segment [first] rest (.single (by simpa using letter)) (ih _ ?_ rest rfl)
            simp only [List.length_cons] at length
            omega

/-! A segment is of exactly one sort. -/

theorem lexemeKind?_single {character : Char} (separate : isWordCharacter character = false) :
    lexemeKind? [character] = TokenKind.ofPunctuation? character := by
  apply Option.ext
  intro kind
  rw [lexemeKind?_eq_some_iff]
  constructor
  · intro spelled
    rcases TokenKind.isSpelledBy_cases spelled with
      ⟨_, literal⟩ | ⟨_, identifier⟩ | ⟨other, same, found⟩
    · have letters := all_isWordCharacter_of_isIntegerLiteral literal
      simp [separate] at letters
    · simp only [isIdentifier, Bool.and_eq_true] at identifier
      simp [isWordCharacter_of_isWordStart identifier.1] at separate
    · obtain rfl : character = other := by simpa using same
      exact found
  · intro found
    have other := (TokenKind.ofPunctuation?_eq_some found).2.2
    cases kind <;> simp_all [TokenKind.isSpelledBy]

theorem offence?_single {character : Char} (separate : isWordCharacter character = false) :
    offence? [character] =
      if isWhitespace character || (TokenKind.ofPunctuation? character).isSome then none
      else some (.unexpectedCharacter character) := by
  simp [offence?, separate, isDigit_eq_false_of_isWordCharacter_eq_false separate]

theorem blank_of_isWhitespace {character : Char} (blank : isWhitespace character = true) :
    offence? [character] = none ∧ lexemeKind? [character] = none := by
  have separate := isWordCharacter_eq_false_of_isWhitespace blank
  rw [offence?_single separate, lexemeKind?_single separate]
  refine ⟨by simp [blank], ?_⟩
  cases found : TokenKind.ofPunctuation? character with
  | none => rfl
  | some kind => simp [(TokenKind.ofPunctuation?_eq_some found).2.1] at blank

theorem offence?_eq_none_of_lexemeKind? {kind : TokenKind} {segment : List Char}
    (found : lexemeKind? segment = some kind) : offence? segment = none := by
  rcases TokenKind.isSpelledBy_cases (lexemeKind?_eq_some_iff.mp found) with
    ⟨_, literal⟩ | ⟨_, identifier⟩ | ⟨character, rfl, punctuation⟩
  · cases segment with
    | nil => rfl
    | cons first rest => simp [offence?, isDigit_of_isIntegerLiteral literal, literal]
  · cases segment with
    | nil => rfl
    | cons first rest =>
        simp only [isIdentifier, Bool.and_eq_true] at identifier
        simp [offence?, isDigit_eq_false_of_isWordStart identifier.1,
          isWordCharacter_of_isWordStart identifier.1]
  · simp [offence?_single (TokenKind.ofPunctuation?_eq_some punctuation).1, punctuation]

theorem Leads.blank_of_isWhitespace {first : Char} {others rest : List Char}
    (leads : Leads (first :: others) rest) (blank : isWhitespace first = true) :
    offence? (first :: others) = none ∧ lexemeKind? (first :: others) = none := by
  have separate := isWordCharacter_eq_false_of_isWhitespace blank
  cases leads with
  | word _ letters _ =>
      rw [letters first List.mem_cons_self] at separate
      cases separate
  | single _ => exact FrontEnd.blank_of_isWhitespace blank

theorem Leads.trichotomy {segment rest : List Char} (leads : Leads segment rest) :
    (∃ character, segment = [character] ∧ isWhitespace character = true) ∨
      (∃ kind, lexemeKind? segment = some kind) ∨ ∃ kind, offence? segment = some kind := by
  cases leads with
  | word nonempty letters _ =>
      obtain ⟨first, others, rfl⟩ := List.exists_cons_of_ne_nil nonempty
      by_cases digit : first.isDigit = true
      · by_cases literal : isIntegerLiteral (first :: others) = true
        · exact .inr (.inl ⟨.integerLiteral, lexemeKind?_eq_some_iff.mpr literal⟩)
        · exact .inr (.inr ⟨_, by simp only [offence?, digit, literal, ↓reduceIte]; rfl⟩)
      · have start := isWordStart_of_isWordCharacter (letters first List.mem_cons_self)
          (by simpa using digit)
        have identifier : isIdentifier (first :: others) = true := by
          rw [isIdentifier, start, Bool.true_and, List.all_eq_true]
          exact fun character listed => letters character (List.mem_cons_of_mem _ listed)
        exact .inr (.inl ⟨.identifier, lexemeKind?_eq_some_iff.mpr identifier⟩)
  | @single character _ separate =>
      rw [lexemeKind?_single separate, offence?_single separate]
      by_cases blank : isWhitespace character = true
      · exact .inl ⟨character, rfl, blank⟩
      · cases found : TokenKind.ofPunctuation? character with
        | some kind => exact .inr (.inl ⟨kind, rfl⟩)
        | none => exact .inr (.inr ⟨.unexpectedCharacter character, by simp [blank]⟩)

/-! The first offence cuts a text in two. -/

theorem segments_flatten (text : List Char) : (segments text).flatten = text :=
  List.flatten_splitBy _ _

theorem segments_flatten_of_append {text : List Char} {first rest : List (List Char)}
    (split : segments text = first ++ rest) : segments first.flatten = first := by
  have parts := List.splitBy_eq_iff.mp split
  refine List.splitBy_eq_iff.mpr ⟨rfl, ?_, ?_, ?_⟩
  · exact fun empty => parts.2.1 (List.mem_append_left _ empty)
  · exact fun segment listed => parts.2.2.1 segment (List.mem_append_left _ listed)
  · exact parts.2.2.2.left_of_append

theorem firstOffence?_cases (before : List Char) (parts : List (List Char)) :
    (firstOffence? before parts = none ∧ ∀ segment ∈ parts, offence? segment = none) ∨
      ∃ clean segment rest kind, parts = clean ++ segment :: rest ∧
        (∀ other ∈ clean, offence? other = none) ∧ offence? segment = some kind ∧
        firstOffence? before parts = some (before ++ clean.flatten, kind) := by
  induction parts generalizing before with
  | nil => exact .inl ⟨rfl, by simp⟩
  | cons segment rest ih =>
      rw [firstOffence?]
      cases offends : offence? segment with
      | some kind => exact .inr ⟨[], segment, rest, kind, by simp, by simp, offends, by simp⟩
      | none =>
          rcases ih (before ++ segment) with
            ⟨nowhere, harmless⟩ | ⟨clean, other, later, kind, split, harmless, found, first⟩
          · exact .inl ⟨nowhere, by simpa [offends] using harmless⟩
          · refine .inr ⟨segment :: clean, other, later, kind, by simp [split], ?_, found, ?_⟩
            · simpa [offends] using harmless
            · simpa using first

theorem leftmostOffence?_eq_none_iff {text : List Char} :
    leftmostOffence? text = none ↔ ∀ segment ∈ segments text, offence? segment = none := by
  rcases firstOffence?_cases [] (segments text) with
    ⟨nowhere, harmless⟩ | ⟨clean, segment, rest, kind, split, _, offends, first⟩
  · rw [leftmostOffence?, nowhere]
    exact ⟨fun _ => harmless, fun _ => rfl⟩
  · rw [leftmostOffence?, first]
    constructor
    · intro impossible
      cases impossible
    · intro harmless
      rw [harmless segment (by simp [split])] at offends
      cases offends

theorem segments_of_leftmostOffence? {text before : List Char} {kind : LexErrorKind}
    (found : leftmostOffence? text = some (before, kind)) :
    ∃ segment rest, segments text = segments before ++ segment :: rest ∧
      (∀ other ∈ segments before, offence? other = none) ∧ offence? segment = some kind := by
  rcases firstOffence?_cases [] (segments text) with
    ⟨nowhere, _⟩ | ⟨clean, segment, rest, other, split, harmless, offends, first⟩
  · rw [leftmostOffence?, nowhere] at found
    cases found
  · rw [leftmostOffence?, first] at found
    cases found
    rw [List.nil_append, segments_flatten_of_append split]
    exact ⟨segment, rest, split, harmless, offends⟩

theorem prefix_of_leftmostOffence? {text before : List Char} {kind : LexErrorKind}
    (found : leftmostOffence? text = some (before, kind)) : before <+: text := by
  obtain ⟨segment, rest, split, _⟩ := segments_of_leftmostOffence? found
  refine ⟨(segment :: rest).flatten, ?_⟩
  rw [← segments_flatten text, split, List.flatten_append, segments_flatten]

theorem ne_nil_of_leftmostOffence? {before rest : List Char} {kind : LexErrorKind}
    (found : leftmostOffence? (before ++ rest) = some (before, kind)) : rest ≠ [] := by
  rintro rfl
  obtain ⟨segment, others, split, _⟩ := segments_of_leftmostOffence? found
  have length := congrArg List.length split
  rw [List.append_nil, List.length_append, List.length_cons] at length
  omega

end FrontEnd
