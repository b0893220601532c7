import FrontEnd.Proofs.Token.FirstOffence

/-! Which texts are accepted: those that can be laid out as lexemes with blanks between them.
A layout has the segments of its text, and can be found again from them, so a text has one
layout at most. -/

namespace FrontEnd

theorem leads_iff_of_isSpelledBy {kind : TokenKind} {segment rest : List Char}
    (spelled : kind.isSpelledBy segment = true) :
    Leads segment rest ↔ (kind.isWord && Layout.continuesWord rest) = false := by
  rcases TokenKind.isWord_cases spelled with ⟨word, letters⟩ | ⟨mark, character, rfl, separate⟩
  · obtain ⟨first, others, rfl⟩ : ∃ first others, segment = first :: others := by
      apply List.exists_cons_of_ne_nil
      rintro rfl
      cases kind <;> cases spelled
    rw [word, Bool.true_and]
    constructor
    · intro leads
      exact (leads.of_isWordCharacter (letters first List.mem_cons_self)).2
    · intro ends
      exact .word (List.cons_ne_nil _ _) letters ends
  · rw [mark, Bool.false_and]
    exact ⟨fun _ => rfl, fun _ => .single separate⟩

def blankSegments (blanks : List Char) : List (List Char) := blanks.map fun blank => [blank]

theorem segments_blanks_append {blanks : List Char} (blank : blanks.all isWhitespace = true)
    (rest : List Char) : segments (blanks ++ rest) = blankSegments blanks ++ segments rest := by
  induction blanks with
  | nil => rfl
  | cons first blanks ih =>
      rw [List.all_cons, Bool.and_eq_true] at blank
      have single : Leads [first] (blanks ++ rest) :=
        .single (isWordCharacter_eq_false_of_isWhitespace blank.1)
      rw [List.cons_append, ← List.singleton_append, single.segments_append, ih blank.2]
      rfl

theorem lexemeTokens_blanks_append {blanks : List Char} (blank : blanks.all isWhitespace = true)
    (path : PathId) (before : List Char) (rest : List (List Char)) :
    lexemeTokens path before (blankSegments blanks ++ rest)
      = lexemeTokens path (before ++ blanks) rest := by
  induction blanks generalizing before with
  | nil => rw [List.append_nil]; rfl
  | cons first blanks ih =>
      rw [List.all_cons, Bool.and_eq_true] at blank
      have later := ih blank.2 (before ++ [first])
      rw [List.append_assoc, List.singleton_append] at later
      rw [← later, blankSegments, List.map_cons, List.cons_append, lexemeTokens,
        (blank_of_isWhitespace blank.1).2]
      rfl

namespace Layout

def segmentsFrom (ending : List Char) : List Lexeme → List (List Char)
  | [] => blankSegments ending
  | lexeme :: rest => blankSegments lexeme.gap ++ lexeme.text :: segmentsFrom ending rest

def indent (blanks : List Char) : Layout → Layout
  | ⟨[], gap⟩ => ⟨[], blanks ++ gap⟩
  | ⟨lexeme :: rest, gap⟩ => ⟨⟨blanks ++ lexeme.gap, lexeme.kind, lexeme.text⟩ :: rest, gap⟩

def ofSegments : List (List Char) → Layout
  | [] => ⟨[], []⟩
  | segment :: rest =>
      match lexemeKind? segment with
      | some kind => ⟨⟨[], kind, segment⟩ :: (ofSegments rest).lexemes, (ofSegments rest).gap⟩
      | none => (ofSegments rest).indent segment

theorem indent_append (first second : List Char) (layout : Layout) :
    layout.indent (first ++ second) = (layout.indent second).indent first := by
  obtain ⟨lexemes, gap⟩ := layout
  cases lexemes <;> simp [indent]

theorem text_indent (blanks : List Char) (layout : Layout) :
    (layout.indent blanks).text = blanks ++ layout.text := by
  obtain ⟨lexemes, gap⟩ := layout
  cases lexemes <;> simp [indent, text, textFrom]

theorem isValid_indent {blanks : List Char} (blank : blanks.all isWhitespace = true)
    (layout : Layout) : (layout.indent blanks).isValid = layout.isValid := by
  obtain ⟨lexemes, gap⟩ := layout
  cases lexemes <;> simp only [indent, isValid, isValidFrom, List.all_append, blank, Bool.true_and]

theorem isValidFrom_cons {ending : List Char} {lexeme : Lexeme} {rest : List Lexeme}
    (valid : isValidFrom ending (lexeme :: rest) = true) :
    lexeme.gap.all isWhitespace = true ∧ lexemeKind? lexeme.text = some lexeme.kind ∧
      Leads lexeme.text (textFrom rest ending) ∧ isValidFrom ending rest = true := by
  simp only [isValidFrom, Bool.and_eq_true, Bool.not_eq_true'] at valid
  obtain ⟨⟨⟨blank, spelled⟩, ends⟩, later⟩ := valid
  exact ⟨blank, lexemeKind?_eq_some_iff.mpr spelled, (leads_iff_of_isSpelledBy spelled).mpr ends, later⟩

theorem segments_textFrom {ending : List Char} {lexemes : List Lexeme}
    (valid : isValidFrom ending lexemes = true) :
    segments (textFrom lexemes ending) = segmentsFrom ending lexemes := by
  induction lexemes with
  | nil =>
      have blanks := segments_blanks_append valid []
      rwa [segments_nil, List.append_nil, List.append_nil] at blanks
  | cons lexeme rest ih =>
      obtain ⟨blank, _, leads, later⟩ := isValidFrom_cons valid
      rw [textFrom, List.foldr_cons, segments_blanks_append blank]
      rw [← textFrom, leads.segments_append, ih later, segmentsFrom]

theorem ofSegments_blanks_append {blanks : List Char} (blank : blanks.all isWhitespace = true)
    (rest : List (List Char)) :
    ofSegments (blankSegments blanks ++ rest) = (ofSegments rest).indent blanks := by
  induction blanks with
  | nil =>
      rw [blankSegments, List.map_nil, List.nil_append]
      generalize ofSegments rest = layout
      obtain ⟨lexemes, gap⟩ := layout
      cases lexemes <;> rfl
  | cons first blanks ih =>
      rw [List.all_cons, Bool.and_eq_true] at blank
      have joined := indent_append [first] blanks (ofSegments rest)
      rw [List.singleton_append] at joined
      rw [joined, ← ih blank.2, blankSegments, List.map_cons, List.cons_append, ofSegments,
        (blank_of_isWhitespace blank.1).2]
      rfl

theorem ofSegments_segmentsFrom {ending : List Char} {lexemes : List Lexeme}
    (valid : isValidFrom ending lexemes = true) :
    ofSegments (segmentsFrom ending lexemes) = ⟨lexemes, ending⟩ := by
  induction lexemes with
  | nil =>
      have blanks := ofSegments_blanks_append valid []
      rw [List.append_nil] at blanks
      simpa [segmentsFrom, ofSegments, indent] using blanks
  | cons lexeme rest ih =>
      obtain ⟨blank, spelled, _, later⟩ := isValidFrom_cons valid
      rw [segmentsFrom, ofSegments_blanks_append blank, ofSegments, spelled, ih later]
      simp [indent]

theorem ofSegments_segments (text : List Char) (nowhere : leftmostOffence? text = none) :
    (ofSegments (segments text)).isValid = true ∧ (ofSegments (segments text)).text = text := by
  have harmless := leftmostOffence?_eq_none_iff.mp nowhere
  clear nowhere
  induction text using segmentwise with
  | nil =>
      rw [segments_nil]
      exact ⟨rfl, rfl⟩
  | segment segment rest leads ih =>
      rw [leads.segments_append] at harmless ⊢
      obtain ⟨valid, same⟩ := ih fun other listed => harmless other (List.mem_cons_of_mem _ listed)
      rw [ofSegments]
      rcases leads.trichotomy with ⟨character, rfl, blank⟩ | ⟨kind, found⟩ | ⟨kind, offends⟩
      · rw [(blank_of_isWhitespace blank).2]
        refine ⟨?_, ?_⟩
        · simpa [isValid_indent, blank] using valid
        · simp [text_indent, same]
      · have spelled := lexemeKind?_eq_some_iff.mp found
        have ends := (leads_iff_of_isSpelledBy spelled).mp leads
        rw [found]
        generalize ofSegments (segments rest) = layout at valid same
        subst same
        refine ⟨?_, by simp [text, textFrom]⟩
        simp only [isValid, isValidFrom, List.all_nil, spelled, Bool.true_and]
        rw [← text, ends, ← isValid, valid]
        rfl
      · rw [harmless segment List.mem_cons_self] at offends
        cases offends

theorem map_lexemeTokens_segmentsFrom {ending : List Char} {lexemes : List Lexeme}
    (valid : isValidFrom ending lexemes = true) (path : PathId) (before : List Char) :
    (lexemeTokens path before (segmentsFrom ending lexemes)).map
        (fun token => (token.kind, token.text))
      = lexemes.map fun lexeme => (lexeme.kind, String.ofList lexeme.text) := by
  induction lexemes generalizing before with
  | nil =>
      have blanks := lexemeTokens_blanks_append valid path before []
      rw [List.append_nil] at blanks
      rw [segmentsFrom, blanks]
      rfl
  | cons lexeme rest ih =>
      obtain ⟨blank, spelled, _, later⟩ := isValidFrom_cons valid
      rw [segmentsFrom, lexemeTokens_blanks_append blank, lexemeTokens, spelled]
      simp [ih later, tokenAt]

theorem leftmostOffence?_text {layout : Layout} (valid : layout.isValid = true) :
    leftmostOffence? layout.text = none := by
  rw [leftmostOffence?_eq_none_iff, text, segments_textFrom valid]
  rw [isValid] at valid
  have blank_harmless {blanks : List Char} (blank : blanks.all isWhitespace = true) :
      ∀ segment ∈ blankSegments blanks, offence? segment = none := by
    intro segment listed
    obtain ⟨character, member, rfl⟩ := List.mem_map.mp listed
    exact (blank_of_isWhitespace (List.all_eq_true.mp blank character member)).1
  generalize layout.lexemes = lexemes at valid
  induction lexemes with
  | nil => exact blank_harmless valid
  | cons lexeme rest ih =>
      obtain ⟨blank, spelled, _, later⟩ := isValidFrom_cons valid
      intro segment listed
      rw [segmentsFrom, List.mem_append, List.mem_cons] at listed
      rcases listed with skipped | rfl | later_listed
      · exact blank_harmless blank segment skipped
      · exact offence?_eq_none_of_lexemeKind? spelled
      · exact ih later segment later_listed

end Layout

theorem map_closingTokens (path : PathId) (lastKind : Option TokenKind) (text : List Char) :
    (closingTokens path lastKind text).map (fun token => (token.kind, token.text))
      = (if lastKind.any TokenKind.endsStatement then [(.semicolon, ";")] else [])
        ++ [(.endOfStream, "\x00")] := by
  rw [closingTokens]
  cases lastKind.any TokenKind.endsStatement <;> rfl

/-- A text is accepted exactly when it can be laid out as lexemes between blanks. There is one
such layout, and its lexemes and the closing tokens are what the source is read as. -/
theorem SourceText.tokens_eq_ok_iff_layout (source : SourceText) :
    ((∃ tokens, source.tokens = .ok tokens) ↔
      ∃ layout : Layout, layout.isValid = true ∧ layout.text = source.text.toList) ∧
    (∀ first second : Layout, first.isValid = true → first.text = source.text.toList →
      second.isValid = true → second.text = source.text.toList → first = second) ∧
    ∀ layout : Layout, layout.isValid = true → layout.text = source.text.toList →
      ∃ tokens, source.tokens = .ok tokens ∧
        tokens.map (fun token => (token.kind, token.text)) = layout.tokens := by
  refine ⟨?_, ?_, ?_⟩
  · constructor
    · rintro ⟨tokens, accepted⟩
      have nowhere : leftmostOffence? source.text.toList = none := by
        cases found : leftmostOffence? source.text.toList with
        | none => rfl
        | some offence =>
            obtain ⟨before, kind⟩ := offence
            rw [(tokens_of_offence found).1] at accepted
            cases accepted
      exact ⟨_, Layout.ofSegments_segments _ nowhere⟩
    · rintro ⟨layout, valid, same⟩
      exact ⟨_, tokens_of_harmless (same ▸ Layout.leftmostOffence?_text valid)⟩
  · intro first second firstValid firstText secondValid secondText
    have firstFound := Layout.ofSegments_segmentsFrom firstValid
    have secondFound := Layout.ofSegments_segmentsFrom secondValid
    rw [← Layout.segments_textFrom firstValid, ← Layout.text, firstText] at firstFound
    rw [← Layout.segments_textFrom secondValid, ← Layout.text, secondText] at secondFound
    exact firstFound.symm.trans secondFound
  · intro layout valid same
    refine ⟨_, tokens_of_harmless (same ▸ Layout.leftmostOffence?_text valid), ?_⟩
    have read := Layout.map_lexemeTokens_segmentsFrom valid source.path []
    rw [← Layout.segments_textFrom valid, ← Layout.text, same] at read
    have last := congrArg (fun pairs => pairs.getLast?.map Prod.fst) read
    simp only [List.getLast?_map, Option.map_map] at last
    change Option.map Token.kind _ = Option.map Lexeme.kind _ at last
    rw [List.map_append, read, map_closingTokens, last, Layout.tokens, Layout.wantsTerminator,
      Option.any_map, List.append_assoc]

theorem SourceText.tokens_of_open_statement :
    ∃ source : SourceText, source.text = "x = 0x1F\n" ∧ ∃ tokens, source.tokens = .ok tokens ∧
      tokens.map (fun token => (token.kind, token.text))
        = [(.identifier, "x"), (.equal, "="), (.integerLiteral, "0x1F"), (.semicolon, ";"),
          (.endOfStream, "\x00")] := by
  obtain ⟨_, _, read⟩ := tokens_eq_ok_iff_layout ⟨⟨0⟩, "x = 0x1F\n", by decide⟩
  exact ⟨_, rfl, read ⟨[⟨[], .identifier, ['x']⟩, ⟨[' '], .equal, ['=']⟩,
    ⟨[' '], .integerLiteral, ['0', 'x', '1', 'F']⟩], ['\n']⟩ (by decide) (by decide)⟩

end FrontEnd
