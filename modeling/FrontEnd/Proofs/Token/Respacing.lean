import FrontEnd.Proofs.Token.Joining
import FrontEnd.Proofs.Token.Layouts

/-! Tokens that are written out again. Where blanks kept two lexemes apart, other blanks do so as
well, and a semicolon that was added may be written down: what is read from the new text is what was
read before. -/

namespace FrontEnd

def Token.reading (token : Token) : TokenKind × String := (token.kind, token.text)

def Lexeme.reading (lexeme : Lexeme) : TokenKind × String := (lexeme.kind, String.ofList lexeme.text)

def spaced (gaps texts : List (List Char)) (ending : List Char) : List Char :=
  (List.zipWith (· ++ ·) gaps texts).flatten ++ ending

namespace Layout

variable {ending old : List Char} {lexemes rest : List Lexeme} {gaps : List (List Char)}

def regap (gaps : List (List Char)) (lexemes : List Lexeme) : List Lexeme :=
  List.zipWith (fun gap lexeme => { lexeme with gap }) gaps lexemes

theorem textFrom_regap (gaps : List (List Char)) (lexemes : List Lexeme) (ending : List Char) :
    textFrom (regap gaps lexemes) ending = spaced gaps (lexemes.map Lexeme.text) ending := by
  induction gaps generalizing lexemes with
  | nil => rfl
  | cons gap gaps ih =>
      cases lexemes with
      | nil => rfl
      | cons lexeme rest =>
          have later := ih rest
          simp only [spaced, textFrom, regap] at later
          simp [spaced, textFrom, regap, later]

theorem map_reading_regap (length : gaps.length = lexemes.length) :
    (regap gaps lexemes).map Lexeme.reading = lexemes.map Lexeme.reading := by
  induction gaps generalizing lexemes with
  | nil =>
      rw [List.eq_nil_of_length_eq_zero length.symm]
      rfl
  | cons gap gaps ih =>
      cases lexemes with
      | nil => cases length
      | cons lexeme rest =>
          have later := ih (Nat.succ.inj length)
          exact congrArg (List.cons lexeme.reading) later

theorem tokens_congr {first second : Layout}
    (same : first.lexemes.map Lexeme.reading = second.lexemes.map Lexeme.reading) :
    first.tokens = second.tokens := by
  have wants (layout : Layout) : layout.wantsTerminator
      = (layout.lexemes.map Lexeme.reading).getLast?.any fun reading => reading.1.endsStatement := by
    rw [wantsTerminator, List.getLast?_map, Option.any_map]
    rfl
  have ends : first.wantsTerminator = second.wantsTerminator := by
    rw [wants, wants, same]
  rw [tokens, tokens, ends]
  exact congrArg (fun readings => readings ++ _ ++ _) same

theorem continuesWord_of_blank {blanks : List Char} (blank : blanks.all isWhitespace = true)
    (some : blanks ≠ []) (text : List Char) : continuesWord (blanks ++ text) = false := by
  obtain ⟨first, others, rfl⟩ := List.exists_cons_of_ne_nil some
  rw [List.all_cons, Bool.and_eq_true] at blank
  exact isWordCharacter_eq_false_of_isWhitespace blank.1

theorem continuesWord_append {text : List Char} (some : text ≠ []) (rest : List Char) :
    continuesWord (text ++ rest) = continuesWord text := by
  obtain ⟨first, others, rfl⟩ := List.exists_cons_of_ne_nil some
  rfl

theorem continuesWord_of_regap (valid : isValidFrom old lexemes = true)
    (blank : ∀ gap ∈ gaps, gap.all isWhitespace = true) (ended : ending.all isWhitespace = true)
    (kept : List.Forall₂ (fun gap lexeme => gap = [] → lexeme.gap = []) gaps lexemes)
    (touches : continuesWord (textFrom (regap gaps lexemes) ending) = true) :
    continuesWord (textFrom lexemes old) = true := by
  cases kept with
  | nil =>
      by_cases nothing : ending = []
      · subst nothing
        cases touches
      · have apart := continuesWord_of_blank ended nothing []
        rw [List.append_nil] at apart
        exact absurd touches (by simp [regap, textFrom, apart])
  | @cons gap lexeme gaps rest joined _ =>
      obtain ⟨_, _, leads, _⟩ := isValidFrom_cons valid
      have first : textFrom (regap (gap :: gaps) (lexeme :: rest)) ending
          = gap ++ (lexeme.text ++ textFrom (regap gaps rest) ending) := rfl
      have before : textFrom (lexeme :: rest) old
          = lexeme.gap ++ (lexeme.text ++ textFrom rest old) := rfl
      rw [first] at touches
      -- a gap that is closed now was closed before, and any other one ends a word
      by_cases nothing : gap = []
      · rw [nothing, List.nil_append, continuesWord_append leads.ne_nil] at touches
        rwa [before, joined nothing, List.nil_append, continuesWord_append leads.ne_nil]
      · have apart := continuesWord_of_blank (blank gap List.mem_cons_self) nothing
          (lexeme.text ++ textFrom (regap gaps rest) ending)
        rw [apart] at touches
        cases touches

theorem isValidFrom_regap (valid : isValidFrom old lexemes = true)
    (length : gaps.length = lexemes.length) (blank : ∀ gap ∈ gaps, gap.all isWhitespace = true)
    (ended : ending.all isWhitespace = true)
    (kept : List.Forall₂ (fun gap lexeme => gap = [] → lexeme.gap = []) gaps.tail lexemes.tail) :
    isValidFrom ending (regap gaps lexemes) = true := by
  induction gaps generalizing lexemes with
  | nil => exact ended
  | cons gap gaps ih =>
      cases lexemes with
      | nil => cases length
      | cons lexeme rest =>
          simp only [isValidFrom, Bool.and_eq_true, Bool.not_eq_true'] at valid
          obtain ⟨⟨⟨_, spelled⟩, ends⟩, later⟩ := valid
          have others : ∀ gap ∈ gaps, gap.all isWhitespace = true := fun other listed =>
            blank other (List.mem_cons_of_mem _ listed)
          have tails :
              List.Forall₂ (fun gap lexeme => gap = [] → lexeme.gap = []) gaps.tail rest.tail := by
            cases kept with
            | nil => exact .nil
            | cons _ more => exact more
          have apart :
              (lexeme.kind.isWord && continuesWord (textFrom (regap gaps rest) ending)) = false := by
            by_contra touching
            simp only [Bool.not_eq_false, Bool.and_eq_true] at touching
            have touched := continuesWord_of_regap later others ended kept touching.2
            rw [touching.1, touched] at ends
            cases ends
          have kept := ih later (Nat.succ.inj length) others tails
          rw [regap, List.zipWith_cons_cons, isValidFrom, ← regap, blank gap List.mem_cons_self,
            spelled, apart, kept]
          rfl

theorem kind_ne_endOfStream (valid : isValidFrom old lexemes = true) :
    ∀ lexeme ∈ lexemes, lexeme.kind ≠ .endOfStream := by
  induction lexemes with
  | nil => nofun
  | cons lexeme rest ih =>
      obtain ⟨_, spelled, _, later⟩ := isValidFrom_cons valid
      intro other listed
      rcases List.mem_cons.mp listed with rfl | more
      · exact TokenKind.ne_endOfStream_of_isSpelledBy (lexemeKind?_eq_some_iff.mp spelled)
      · exact ih later other more

theorem textFrom_append (lexemes more : List Lexeme) (ending : List Char) :
    textFrom (lexemes ++ more) ending = textFrom lexemes (textFrom more ending) :=
  List.foldr_append

def closed (layout : Layout) : Layout :=
  if layout.wantsTerminator then
    ⟨layout.lexemes ++ [⟨layout.gap, .semicolon, [';']⟩], []⟩
  else layout

theorem textFrom_append_ending (lexemes : List Lexeme) (ending more : List Char) :
    textFrom lexemes (ending ++ more) = textFrom lexemes ending ++ more := by
  induction lexemes with
  | nil => rfl
  | cons lexeme rest ih =>
      simp only [textFrom] at ih
      simp [textFrom, ih]

theorem isValidFrom_append_semicolon (valid : isValidFrom old lexemes = true) :
    isValidFrom [] (lexemes ++ [⟨old, .semicolon, [';']⟩]) = true := by
  induction lexemes with
  | nil =>
      have blank : old.all isWhitespace = true := valid
      rw [List.nil_append, isValidFrom, blank]
      rfl
  | cons lexeme rest ih =>
      have text : textFrom (rest ++ [⟨old, .semicolon, [';']⟩]) [] = textFrom rest old ++ [';'] := by
        rw [textFrom_append, ← textFrom_append_ending]
        rfl
      have same : continuesWord (textFrom rest old ++ [';']) = continuesWord (textFrom rest old) := by
        cases textFrom rest old <;> rfl
      simp only [isValidFrom, Bool.and_eq_true] at valid
      obtain ⟨⟨spelled, ends⟩, later⟩ := valid
      rw [List.cons_append, isValidFrom, text, same, ih later, ends]
      simp [spelled]

theorem isValid_closed {layout : Layout} (valid : layout.isValid = true) :
    layout.closed.isValid = true := by
  rw [closed]
  split
  · exact isValidFrom_append_semicolon valid
  · exact valid

theorem tokens_eq_closed (layout : Layout) :
    layout.tokens = layout.closed.lexemes.map Lexeme.reading ++ [(.endOfStream, "\x00")] := by
  rw [tokens, closed]
  cases layout.wantsTerminator with
  | false => exact congrArg (· ++ _) (List.append_nil _)
  | true =>
      rw [if_pos rfl, if_pos rfl, List.map_append]
      rfl

theorem tokens_closed (layout : Layout) : layout.closed.tokens = layout.tokens := by
  rw [closed]
  cases wants : layout.wantsTerminator with
  | false => rfl
  | true =>
      have whole := layout.tokens_eq_closed
      rw [closed, wants, if_pos rfl] at whole
      rw [if_pos rfl, whole, tokens, wantsTerminator, List.getLast?_append]
      simp [Lexeme.reading, TokenKind.endsStatement]

end Layout

namespace SourceText

variable {source : SourceText} {tokens : List Token} {layout : Layout}

theorem map_reading_sourceTokens (valid : layout.isValid = true)
    (same : layout.text = source.text.toList) :
    source.sourceTokens.map Token.reading = layout.lexemes.map Lexeme.reading := by
  have read := Layout.map_lexemeTokens_segmentsFrom valid source.path []
  rw [← Layout.segments_textFrom valid, ← Layout.text, same] at read
  rw [sourceTokens_of_harmless (same ▸ Layout.leftmostOffence?_text valid)]
  exact read

theorem map_reading_of_tokens (accepted : source.tokens = .ok tokens) (valid : layout.isValid = true)
    (same : layout.text = source.text.toList) : tokens.map Token.reading = layout.tokens := by
  have nowhere := leftmostOffence?_of_tokens accepted
  have read := map_reading_sourceTokens valid same
  rw [sourceTokens_of_harmless nowhere] at read
  have last : (lexemeTokens source.path [] (segments source.text.toList)).getLast?.map Token.kind
      = layout.lexemes.getLast?.map Lexeme.kind := by
    have readings := congrArg (fun readings => readings.getLast?.map Prod.fst) read
    simp only [List.getLast?_map, Option.map_map] at readings
    exact readings
  have closing := map_closingTokens source.path (layout.lexemes.getLast?.map Lexeme.kind)
    source.text.toList
  rw [Option.any_map] at closing
  rw [tokens_of_harmless nowhere, last] at accepted
  cases accepted
  rw [List.map_append, read, Layout.tokens, List.append_assoc]
  exact congrArg _ closing

theorem map_reading_filter (accepted : source.tokens = .ok tokens) (valid : layout.isValid = true)
    (same : layout.text = source.text.toList) :
    (tokens.filter (!·.isEnd)).map Token.reading = layout.closed.lexemes.map Lexeme.reading := by
  have whole := map_reading_of_tokens accepted valid same
  have inner : ∀ reading ∈ layout.closed.lexemes.map Lexeme.reading,
      (reading.1 != .endOfStream) = true := by
    intro reading listed
    obtain ⟨lexeme, member, rfl⟩ := List.mem_map.mp listed
    exact bne_iff_ne.mpr (Layout.kind_ne_endOfStream (Layout.isValid_closed valid) lexeme member)
  have filtered : (tokens.map Token.reading).filter (fun reading => reading.1 != .endOfStream)
      = (tokens.filter (!·.isEnd)).map Token.reading := List.filter_map
  rw [← filtered, whole, Layout.tokens_eq_closed, List.filter_append, List.filter_eq_self.mpr inner]
  exact List.append_nil _

theorem tokens_of_regap {again : SourceText} {gaps : List (List Char)} {ending : List Char}
    (valid : layout.isValid = true) (length : gaps.length = layout.lexemes.length)
    (blank : ∀ gap ∈ gaps, gap.all isWhitespace = true) (ended : ending.all isWhitespace = true)
    (kept : List.Forall₂ (fun gap lexeme => gap = [] → lexeme.gap = []) gaps.tail layout.lexemes.tail)
    (text : again.text.toList = spaced gaps (layout.lexemes.map Lexeme.text) ending) :
    ∃ repeated, again.tokens = .ok repeated ∧ repeated.map Token.reading = layout.tokens ∧
      again.sourceTokens.map Token.reading = layout.lexemes.map Lexeme.reading := by
  let other : Layout := ⟨Layout.regap gaps layout.lexemes, ending⟩
  have fresh : other.isValid = true := Layout.isValidFrom_regap valid length blank ended kept
  have same : other.text = again.text.toList := by
    rw [text, Layout.text]
    exact Layout.textFrom_regap gaps layout.lexemes ending
  have readings : other.lexemes.map Lexeme.reading = layout.lexemes.map Lexeme.reading :=
    Layout.map_reading_regap length
  have accepted := tokens_of_harmless (same ▸ Layout.leftmostOffence?_text fresh)
  refine ⟨_, accepted, ?_, ?_⟩
  · rw [map_reading_of_tokens accepted fresh same, Layout.tokens_congr readings]
  · rw [map_reading_sourceTokens fresh same, readings]

/-- The tokens of a source are read again from their texts, however these are spaced: a semicolon that
was added is then found in the source. Nor does it matter which blanks part the lexemes of the source
itself, or stand where they touched. -/
theorem tokens_respaced (accepted : source.tokens = .ok tokens) :
    (∀ (again : SourceText) (gaps : List (List Char)) (ending : List Char),
      gaps.length = (tokens.filter (!·.isEnd)).length →
      (∀ gap ∈ gaps, gap.all isWhitespace = true) → (∀ gap ∈ gaps.tail, gap ≠ []) →
      ending.all isWhitespace = true →
      again.text.toList
        = spaced gaps ((tokens.filter (!·.isEnd)).map fun token => token.text.toList) ending →
      ∃ repeated, again.tokens = .ok repeated ∧
        repeated.map Token.reading = tokens.map Token.reading ∧
        again.sourceTokens.map Token.reading = (tokens.filter (!·.isEnd)).map Token.reading) ∧
    ∃ layout : Layout, layout.isValid = true ∧ layout.text = source.text.toList ∧
      layout.lexemes.map Lexeme.reading = source.sourceTokens.map Token.reading ∧
      ∀ (again : SourceText) (gaps : List (List Char)) (ending : List Char),
        gaps.length = layout.lexemes.length →
        (∀ gap ∈ gaps, gap.all isWhitespace = true) →
        List.Forall₂ (fun gap lexeme => gap = [] → lexeme.gap = []) gaps.tail layout.lexemes.tail →
        ending.all isWhitespace = true →
        again.text.toList = spaced gaps (layout.lexemes.map Lexeme.text) ending →
        ∃ repeated, again.tokens = .ok repeated ∧
          repeated.map Token.reading = tokens.map Token.reading := by
  have nowhere := leftmostOffence?_of_tokens accepted
  obtain ⟨valid, same⟩ := Layout.ofSegments_segments _ nowhere
  generalize Layout.ofSegments (segments source.text.toList) = layout at valid same
  have readings := map_reading_of_tokens accepted valid same
  have written := map_reading_filter accepted valid same
  refine ⟨?_, layout, valid, same, (map_reading_sourceTokens valid same).symm, ?_⟩
  · intro again gaps ending length blank parted ended text
    have count := congrArg List.length written
    rw [List.length_map, List.length_map] at count
    have texts : (tokens.filter (!·.isEnd)).map (fun token => token.text.toList)
        = layout.closed.lexemes.map Lexeme.text := by
      have second := congrArg (List.map fun reading => reading.2.toList) written
      simp only [List.map_map] at second
      refine second.trans (List.map_congr_left fun lexeme _ => ?_)
      exact String.toList_ofList
    have kept : List.Forall₂ (fun gap lexeme => gap = [] → lexeme.gap = []) gaps.tail
        layout.closed.lexemes.tail := by
      rw [List.forall₂_iff_get]
      refine ⟨by rw [List.length_tail, List.length_tail, length, count], ?_⟩
      intro index inside within nothing
      exact absurd nothing (parted _ (List.get_mem _ _))
    rw [texts] at text
    obtain ⟨repeated, taken, whole, again⟩ :=
      tokens_of_regap (Layout.isValid_closed valid) (length.trans count) blank ended kept text
    rw [Layout.tokens_closed, ← readings] at whole
    exact ⟨repeated, taken, whole, again.trans written.symm⟩
  · intro again gaps ending length blank kept ended text
    obtain ⟨repeated, taken, whole, _⟩ := tokens_of_regap valid length blank ended kept text
    exact ⟨repeated, taken, whole.trans readings.symm⟩

theorem tokens_respaced_open_statement :
    ∃ source again : SourceText, source.text = "a=1" ∧ again.text = "a = \t1\n;" ∧
      ∃ tokens repeated, source.tokens = .ok tokens ∧ again.tokens = .ok repeated ∧
        repeated.map Token.reading = tokens.map Token.reading ∧
        again.sourceTokens.map Token.reading
          = [(.identifier, "a"), (.equal, "="), (.integerLiteral, "1"), (.semicolon, ";")] := by
  have accepted : (⟨⟨0⟩, "a=1", by decide⟩ : SourceText).tokens
      = .ok [⟨.identifier, "a", ⟨⟨0⟩, 1, 1, 0⟩⟩, ⟨.equal, "=", ⟨⟨0⟩, 1, 2, 1⟩⟩,
        ⟨.integerLiteral, "1", ⟨⟨0⟩, 1, 3, 2⟩⟩, ⟨.semicolon, ";", ⟨⟨0⟩, 1, 4, 3⟩⟩,
        ⟨.endOfStream, "\x00", ⟨⟨0⟩, 1, 4, 3⟩⟩] :=
    (tokens_of_harmless (by decide)).trans (by decide)
  obtain ⟨respaced, _⟩ := tokens_respaced accepted
  obtain ⟨repeated, taken, same, found⟩ := respaced ⟨⟨0⟩, "a = \t1\n;", by decide⟩
    [[], [' '], [' ', '\t'], ['\n']] [] (by decide) (by decide) (by decide) (by decide) (by decide)
  exact ⟨_, _, rfl, rfl, _, repeated, accepted, taken, same, found⟩

end SourceText

end FrontEnd
