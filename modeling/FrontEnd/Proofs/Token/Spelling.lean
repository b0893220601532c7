import FrontEnd.Source.Cursor
import FrontEnd.Token.Grammar
import Mathlib.Tactic.ByContra

/-! Spellings. A text is the spelling of one kind of token at most. An integer literal is read
as the prefix that announces its base and the digits after it. -/

namespace FrontEnd

/-! Characters of one class are in no other. -/

theorem isWordCharacter_of_isDigit {character : Char} (radix : Radix)
    (digit : radix.isDigit character = true) : isWordCharacter character = true := by
  cases radix with
  | binary =>
      simp only [Radix.isDigit, Bool.or_eq_true, beq_iff_eq] at digit
      rcases digit with rfl | rfl <;> decide
  | decimal =>
      simp only [Radix.isDigit] at digit
      simp [isWordCharacter, Char.isAlphanum, digit]
  | hexadecimal =>
      simp only [Radix.isDigit, Char.isHexDigit, Bool.or_eq_true, Bool.and_eq_true,
        decide_eq_true_eq] at digit
      unfold isWordCharacter Char.isAlphanum Char.isAlpha Char.isUpper Char.isLower
      simp only [Bool.or_eq_true, Bool.and_eq_true, decide_eq_true_eq]
      grind

theorem isDigit_eq_false_of_isWordStart {character : Char}
    (start : isWordStart character = true) : character.isDigit = false := by
  unfold isWordStart Char.isAlpha Char.isUpper Char.isLower at start
  simp only [Bool.or_eq_true, Bool.and_eq_true, decide_eq_true_eq, beq_iff_eq] at start
  rcases start with letter | rfl
  · simp only [Char.isDigit, Bool.and_eq_false_iff, decide_eq_false_iff_not]
    grind
  · decide

theorem isWordStart_of_isWordCharacter {character : Char}
    (letter : isWordCharacter character = true) (digit : character.isDigit = false) :
    isWordStart character = true := by
  simpa [isWordCharacter, isWordStart, Char.isAlphanum, digit] using letter

theorem isDigit_eq_false_of_isWordCharacter_eq_false {character : Char}
    (separate : isWordCharacter character = false) : character.isDigit = false := by
  simp only [isWordCharacter, Char.isAlphanum, Bool.or_eq_false_iff] at separate
  exact separate.1.2

theorem isWordStart_eq_false_of_isWordCharacter_eq_false {character : Char}
    (separate : isWordCharacter character = false) : isWordStart character = false := by
  by_contra start
  simp [isWordCharacter_of_isWordStart (by simpa using start)] at separate

theorem isWordCharacter_eq_false_of_isWhitespace {character : Char}
    (blank : isWhitespace character = true) : isWordCharacter character = false := by
  simp only [isWhitespace, Bool.or_eq_true, beq_iff_eq] at blank
  rcases blank with ((rfl | rfl) | rfl) | rfl <;> decide

theorem TokenKind.ofPunctuation?_eq_some {character : Char} {kind : TokenKind}
    (found : ofPunctuation? character = some kind) :
    isWordCharacter character = false ∧ isWhitespace character = false
      ∧ kind ≠ .integerLiteral ∧ kind ≠ .identifier ∧ kind ≠ .endOfStream := by
  unfold ofPunctuation? at found
  split at found <;> cases found <;> decide

/-! The spellings of one kind are those of no other. -/

theorem isDigit_of_isIntegerLiteral {first : Char} {rest : List Char}
    (literal : isIntegerLiteral (first :: rest) = true) : first.isDigit = true := by
  unfold isIntegerLiteral at literal
  split at literal <;> simp_all [Radix.isDigit]

theorem all_isWordCharacter_of_isIntegerLiteral {text : List Char}
    (literal : isIntegerLiteral text = true) : text.all isWordCharacter = true := by
  have letters {radix : Radix} {digits : List Char} (all : digits.all radix.isDigit = true) :
      digits.all isWordCharacter = true := by
    rw [List.all_eq_true] at all ⊢
    exact fun character member => isWordCharacter_of_isDigit radix (all character member)
  unfold isIntegerLiteral at literal
  split at literal <;> rw [Bool.and_eq_true] at literal
  · simpa [isWordCharacter] using letters literal.2
  · simpa [isWordCharacter] using letters literal.2
  · simpa [isWordCharacter] using letters literal.2
  · simpa [isWordCharacter] using letters literal.2
  · exact letters literal.2

theorem all_isWordCharacter_of_isIdentifier {text : List Char}
    (identifier : isIdentifier text = true) : text.all isWordCharacter = true := by
  cases text with
  | nil => rfl
  | cons first rest =>
      rw [isIdentifier, Bool.and_eq_true] at identifier
      rw [List.all_cons, isWordCharacter_of_isWordStart identifier.1, identifier.2]
      rfl

theorem TokenKind.isSpelledBy_cases {kind : TokenKind} {text : List Char}
    (spelled : kind.isSpelledBy text = true) :
    (kind = .integerLiteral ∧ isIntegerLiteral text = true) ∨
      (kind = .identifier ∧ isIdentifier text = true) ∨
      ∃ character, text = [character] ∧ ofPunctuation? character = some kind := by
  unfold isSpelledBy at spelled
  split at spelled
  · exact .inl ⟨rfl, spelled⟩
  · exact .inr (.inl ⟨rfl, spelled⟩)
  · exact .inr (.inr ⟨_, rfl, by simpa using spelled⟩)
  · cases spelled

theorem TokenKind.ne_endOfStream_of_isSpelledBy {kind : TokenKind} {text : List Char}
    (spelled : kind.isSpelledBy text = true) : kind ≠ .endOfStream := by
  rintro rfl
  rcases isSpelledBy_cases spelled with ⟨impossible, _⟩ | ⟨impossible, _⟩ | ⟨_, _, found⟩
  · cases impossible
  · cases impossible
  · exact (ofPunctuation?_eq_some found).2.2.2.2 rfl

theorem TokenKind.isWord_cases {kind : TokenKind} {text : List Char}
    (spelled : kind.isSpelledBy text = true) :
    (kind.isWord = true ∧ ∀ character ∈ text, isWordCharacter character = true) ∨
      (kind.isWord = false ∧ ∃ character, text = [character] ∧ isWordCharacter character = false) := by
  rcases isSpelledBy_cases spelled with ⟨rfl, literal⟩ | ⟨rfl, identifier⟩ | ⟨character, rfl, found⟩
  · exact .inl ⟨rfl, List.all_eq_true.mp (all_isWordCharacter_of_isIntegerLiteral literal)⟩
  · exact .inl ⟨rfl, List.all_eq_true.mp (all_isWordCharacter_of_isIdentifier identifier)⟩
  · obtain ⟨separate, _, unlike⟩ := ofPunctuation?_eq_some found
    exact .inr ⟨by cases kind <;> simp_all [isWord], character, rfl, separate⟩

theorem isIdentifier_eq_false_of_isIntegerLiteral {text : List Char}
    (literal : isIntegerLiteral text = true) : isIdentifier text = false := by
  cases text with
  | nil => rfl
  | cons first rest =>
      have digit := isDigit_of_isIntegerLiteral literal
      by_contra identifier
      simp only [isIdentifier, Bool.not_eq_false, Bool.and_eq_true] at identifier
      simp [isDigit_eq_false_of_isWordStart identifier.1] at digit

theorem not_word_of_ofPunctuation? {character : Char} {kind : TokenKind}
    (found : TokenKind.ofPunctuation? character = some kind) :
    isIntegerLiteral [character] = false ∧ isIdentifier [character] = false := by
  have separate := (TokenKind.ofPunctuation?_eq_some found).1
  constructor
  · by_contra literal
    have letters := all_isWordCharacter_of_isIntegerLiteral (by simpa using literal)
    simp [separate] at letters
  · by_contra identifier
    simp only [isIdentifier, Bool.not_eq_false, Bool.and_eq_true] at identifier
    simp [isWordCharacter_of_isWordStart identifier.1] at separate

theorem TokenKind.isSpelledBy_unique {left right : TokenKind} {text : List Char}
    (first : left.isSpelledBy text = true) (second : right.isSpelledBy text = true) :
    left = right := by
  rcases isSpelledBy_cases first with ⟨rfl, one⟩ | ⟨rfl, one⟩ | ⟨character, rfl, one⟩ <;>
    rcases isSpelledBy_cases second with ⟨rfl, two⟩ | ⟨rfl, two⟩ | ⟨other, same, two⟩
  · rfl
  · simp [isIdentifier_eq_false_of_isIntegerLiteral one] at two
  · simp [same, not_word_of_ofPunctuation? two] at one
  · simp [isIdentifier_eq_false_of_isIntegerLiteral two] at one
  · rfl
  · simp [same, not_word_of_ofPunctuation? two] at one
  · simp [not_word_of_ofPunctuation? one] at two
  · simp [not_word_of_ofPunctuation? one] at two
  · obtain rfl : character = other := by simpa using same
    exact Option.some.inj (one.symm.trans two)

def lexemeKind? (segment : List Char) : Option TokenKind :=
  TokenKind.all.find? fun kind => kind.isSpelledBy segment

theorem lexemeKind?_eq_some_iff {segment : List Char} {kind : TokenKind} :
    lexemeKind? segment = some kind ↔ kind.isSpelledBy segment = true := by
  have sound {kind : TokenKind} (found : lexemeKind? segment = some kind) :
      kind.isSpelledBy segment = true := by
    rw [lexemeKind?] at found
    simpa using List.find?_some found
  constructor
  · exact sound
  · intro spelled
    have listed : kind ∈ TokenKind.all := by cases kind <;> decide
    cases found : lexemeKind? segment with
    | none => exact absurd spelled (List.find?_eq_none.mp found kind listed)
    | some other => rw [TokenKind.isSpelledBy_unique (sound found) spelled]

/-! The base that a literal announces. -/

def literalRadix (text : List Char) : Radix :=
  Radix.announced (text.headD Cursor.sentinel) (text.tail.headD Cursor.sentinel)

def literalDigits (text : List Char) : List Char :=
  if literalRadix text = .decimal then text else text.drop 2

theorem literal_eq_of_announced {text : List Char} (announced : literalRadix text ≠ .decimal) :
    ∃ letter ∈ ['x', 'X', 'b', 'B'], text = '0' :: letter :: literalDigits text := by
  have digits : literalDigits text = text.drop 2 := by simp [literalDigits, announced]
  rw [digits]
  cases text with
  | nil => exact absurd rfl announced
  | cons first rest =>
      cases rest with
      | nil =>
          refine absurd ?_ announced
          simp only [literalRadix, Radix.announced, List.headD_cons, List.tail_cons, List.headD_nil]
          split <;> simp_all [Cursor.sentinel]
      | cons second rest =>
          simp only [literalRadix, Radix.announced, List.headD_cons, List.tail_cons] at announced
          split at announced <;> simp_all

theorem isIntegerLiteral_iff (text : List Char) :
    isIntegerLiteral text = true ↔ literalDigits text ≠ [] ∧
      ∀ character ∈ literalDigits text, (literalRadix text).isDigit character = true := by
  have computed : isIntegerLiteral text
      = (!(literalDigits text).isEmpty && (literalDigits text).all (literalRadix text).isDigit) := by
    by_cases decimal : literalRadix text = .decimal
    · unfold isIntegerLiteral
      split
      · cases decimal
      · cases decimal
      · cases decimal
      · cases decimal
      · simp [literalDigits, decimal]
    · obtain ⟨letter, listed, text_eq⟩ := literal_eq_of_announced decimal
      generalize literalDigits text = digits at text_eq
      subst text_eq
      simp only [List.mem_cons, List.not_mem_nil, or_false] at listed
      rcases listed with rfl | rfl | rfl | rfl <;> rfl
  simp [computed]

end FrontEnd
