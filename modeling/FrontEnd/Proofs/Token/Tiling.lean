import FrontEnd.Proofs.Token.FirstOffence

/-! A source is covered by the tokens read from it. Their texts stand in its bytes one behind
the other, at the offsets of their locations, and only blanks lie between them. -/

namespace FrontEnd

def isBlankByte (byte : UInt8) : Bool :=
  byte == 0x20 || byte == 0x09 || byte == 0x0d || byte == 0x0a

def isBlank (bytes : ByteArray) : Bool := bytes.data.all isBlankByte

def BlankBetween (bytes : ByteArray) (start stop : Nat) : Prop :=
  start ≤ stop ∧ stop ≤ bytes.size ∧ isBlank (bytes.extract start stop) = true

namespace Token

def start (token : Token) : Nat := token.location.offset.toNat

def stop (token : Token) : Nat := token.start + token.text.utf8ByteSize

end Token

/-- From `start` up to `stop` the bytes are the texts of the tokens, each where its token is
located, and blanks before, between and behind them. -/
def Tiles (bytes : ByteArray) : Nat → List Token → Nat → Prop
  | start, [], stop => BlankBetween bytes start stop
  | start, token :: rest, stop =>
      BlankBetween bytes start token.start ∧ token.text ≠ "" ∧
        bytes.extract token.start token.stop = token.text.toUTF8 ∧
        Tiles bytes token.stop rest stop

def weave (pieces : List (ByteArray × Token)) (ending : ByteArray) : ByteArray :=
  pieces.foldr (fun piece rest => piece.1 ++ (piece.2.text.toUTF8 ++ rest)) ending

namespace BlankBetween

variable {bytes : ByteArray}

theorem refl {place : Nat} (inside : place ≤ bytes.size) : BlankBetween bytes place place := by
  refine ⟨Nat.le_refl _, inside, ?_⟩
  simp [isBlank]

theorem trans {start middle stop : Nat} (first : BlankBetween bytes start middle)
    (second : BlankBetween bytes middle stop) : BlankBetween bytes start stop := by
  refine ⟨Nat.le_trans first.1 second.1, second.2.1, ?_⟩
  rw [ByteArray.extract_eq_extract_append_extract middle first.1 second.1, isBlank,
    ByteArray.data_append, Array.all_append, Bool.and_eq_true]
  exact ⟨first.2.2, second.2.2⟩

end BlankBetween

namespace Tiles

variable {bytes : ByteArray} {start stop : Nat} {tokens : List Token}

theorem bounds (tiles : Tiles bytes start tokens stop) :
    start ≤ stop ∧ stop ≤ bytes.size := by
  induction tokens generalizing start with
  | nil => exact ⟨tiles.1, tiles.2.1⟩
  | cons token rest ih =>
      obtain ⟨gap, _, _, later⟩ := tiles
      have behind := ih later
      have before := gap.1
      rw [Token.stop] at behind
      omega

theorem start_le (tiles : Tiles bytes start tokens stop) :
    ∀ token ∈ tokens, start ≤ token.start := by
  induction tokens generalizing start with
  | nil => simp
  | cons token rest ih =>
      obtain ⟨gap, _, _, later⟩ := tiles
      intro other listed
      rcases List.mem_cons.mp listed with rfl | listed
      · exact gap.1
      · have behind := ih later other listed
        have before := gap.1
        rw [Token.stop] at behind
        omega

theorem start_lt (tiles : Tiles bytes start tokens stop) :
    ∀ token ∈ tokens, token.start < stop := by
  induction tokens generalizing start with
  | nil => simp
  | cons token rest ih =>
      obtain ⟨_, nonempty, _, later⟩ := tiles
      intro other listed
      rcases List.mem_cons.mp listed with rfl | listed
      · have positive : other.text.utf8ByteSize ≠ 0 := by simpa using nonempty
        have behind := (bounds later).1
        rw [Token.stop] at behind
        omega
      · exact ih later other listed

theorem pairwise (tiles : Tiles bytes start tokens stop) :
    tokens.Pairwise fun earlier later =>
      earlier.stop ≤ later.start ∧ earlier.start < later.start := by
  induction tokens generalizing start with
  | nil => exact .nil
  | cons token rest ih =>
      obtain ⟨_, nonempty, _, later⟩ := tiles
      refine .cons ?_ (ih later)
      intro other listed
      have behind := start_le later other listed
      have positive : token.text.utf8ByteSize ≠ 0 := by simpa using nonempty
      refine ⟨behind, ?_⟩
      rw [Token.stop] at behind
      omega

theorem weave_eq (tiles : Tiles bytes start tokens stop) :
    ∃ (gaps : List ByteArray) (ending : ByteArray), gaps.length = tokens.length ∧
      (∀ gap ∈ gaps, isBlank gap = true) ∧ isBlank ending = true ∧
        weave (gaps.zip tokens) ending = bytes.extract start stop := by
  induction tokens generalizing start with
  | nil => exact ⟨[], _, rfl, by simp, tiles.2.2, rfl⟩
  | cons token rest ih =>
      obtain ⟨gap, _, text, later⟩ := tiles
      obtain ⟨gaps, ending, length, blank, last, whole⟩ := ih later
      refine ⟨bytes.extract start token.start :: gaps, ending, by simp [length], ?_, last, ?_⟩
      · intro other listed
        rcases List.mem_cons.mp listed with rfl | listed
        · exact gap.2.2
        · exact blank other listed
      · have forward := (bounds later).1
        have within : token.start ≤ token.stop := Nat.le_add_right _ _
        rw [List.zip_cons_cons, weave, List.foldr_cons, ← weave, whole, ← text,
          ← ByteArray.extract_eq_extract_append_extract _ within forward,
          ← ByteArray.extract_eq_extract_append_extract _ gap.1 (Nat.le_trans within forward)]

end Tiles

/-! Where the tokens of a source stand. -/

namespace SourceText

variable {source : SourceText} {before rest : List Char}

theorem blankBetween_of_isWhitespace {character : Char} (blank : isWhitespace character = true)
    (whole : before ++ character :: rest = source.text.toList) :
    BlankBetween source.bytes before.utf8Encode.size (before ++ [character]).utf8Encode.size := by
  have inside := size_le_size_bytes
    (show (before ++ [character]) ++ rest = source.text.toList by simpa using whole)
  have one : isBlank [character].utf8Encode = true := by
    simp only [isWhitespace, Bool.or_eq_true, beq_iff_eq] at blank
    rcases blank with ((rfl | rfl) | rfl) | rfl <;> decide +kernel
  refine ⟨?_, inside, ?_⟩
  · rw [List.utf8Encode_append, ByteArray.size_append]
    exact Nat.le_add_right _ _
  · rw [source.bytes_eq, ← whole, ← List.singleton_append, Utf8.extract_utf8Encode]
    exact one

theorem start_tokenAt (whole : before ++ rest = source.text.toList) (kind : TokenKind)
    (segment : List Char) :
    (tokenAt source.path before kind segment).start = before.utf8Encode.size :=
  offset_after whole

theorem stop_tokenAt (whole : before ++ rest = source.text.toList) (kind : TokenKind)
    (segment : List Char) :
    (tokenAt source.path before kind segment).stop = (before ++ segment).utf8Encode.size := by
  rw [Token.stop, start_tokenAt whole, List.utf8Encode_append, ByteArray.size_append]
  rfl

theorem tiles_lexemeTokens (source : SourceText) (passed : List Char)
    (harmless : ∀ segment ∈ segments passed, offence? segment = none) :
    ∀ (before rest : List Char) (start : Nat),
      before ++ (passed ++ rest) = source.text.toList →
      BlankBetween source.bytes start before.utf8Encode.size →
        Tiles source.bytes start (lexemeTokens source.path before (segments passed))
          (before ++ passed).utf8Encode.size := by
  induction passed using segmentwise with
  | nil =>
      intro before rest start _ gap
      rwa [segments_nil, List.append_nil]
  | segment segment others leads ih =>
      intro before rest start whole gap
      rw [leads.segments_append] at harmless ⊢
      have later := ih (fun other listed => harmless other (List.mem_cons_of_mem _ listed))
        (before ++ segment) rest
      rw [List.append_assoc] at whole
      simp only [List.append_assoc] at later
      rw [lexemeTokens]
      rcases leads.trichotomy with ⟨character, rfl, blank⟩ | ⟨kind, found⟩ | ⟨kind, offends⟩
      · rw [(blank_of_isWhitespace blank).2]
        exact later start whole (gap.trans (blankBetween_of_isWhitespace blank whole))
      · rw [found]
        have start_eq := start_tokenAt whole kind segment
        have stop_eq := stop_tokenAt whole kind segment
        have inside := size_le_size_bytes
          (show (before ++ segment) ++ (others ++ rest) = source.text.toList by simpa using whole)
        refine ⟨by rwa [start_eq], ?_, ?_, ?_⟩
        · simpa [tokenAt] using leads.ne_nil
        · rw [start_eq, stop_eq, source.bytes_eq, ← whole, Utf8.extract_utf8Encode]
          rfl
        · rw [stop_eq]
          exact later _ whole (.refl inside)
      · rw [harmless segment List.mem_cons_self] at offends
        cases offends

end SourceText

def itemLocation : Except LexError Token → Location
  | .ok token => token.location
  | .error error => error.location

theorem exists_before_of_mem_readFrom {path : PathId} {item : Except LexError Token}
    {parts : List (List Char)} {lastKind : Option TokenKind} {before : List Char}
    (listed : item ∈ readFrom path lastKind before parts) :
    ∃ passed, passed <+: before ++ parts.flatten ∧ itemLocation item = Location.after path passed := by
  induction parts generalizing lastKind before with
  | nil =>
      obtain ⟨token, closing, rfl⟩ := List.mem_map.mp listed
      exact ⟨before, by simp, location_of_mem_closingTokens closing⟩
  | cons segment rest ih =>
      rw [List.flatten_cons, ← List.append_assoc]
      rw [readFrom] at listed
      cases offends : offence? segment with
      | some kind =>
          rw [offends] at listed
          rw [List.mem_singleton.mp listed]
          exact ⟨before, by simp, rfl⟩
      | none =>
          rw [offends] at listed
          cases found : lexemeKind? segment with
          | none =>
              rw [found] at listed
              exact ih listed
          | some kind =>
              rw [found] at listed
              rcases List.mem_cons.mp listed with rfl | later
              · exact ⟨before, by simp, rfl⟩
              · exact ih later

namespace SourceText

inductive EndsAt (source : SourceText) : List (Except LexError Token) → Nat → Prop
  | failed (error : LexError) : EndsAt source [.error error] error.location.offset.toNat
  | closed (added : List Token) :
      (added.map (fun token => (token.kind, token.text)) = [(.endOfStream, "\x00")] ∨
        added.map (fun token => (token.kind, token.text))
          = [(.semicolon, ";"), (.endOfStream, "\x00")]) →
      (∀ token ∈ added, token.start = source.length) →
      EndsAt source (added.map .ok) source.length

theorem endsAt_closingTokens (source : SourceText) (lastKind : Option TokenKind) :
    EndsAt source ((closingTokens source.path lastKind source.text.toList).map .ok)
      source.length := by
  have length : source.text.toList.utf8Encode.size = source.length := by
    rw [← source.bytes_eq]
    rfl
  apply EndsAt.closed
  · rw [closingTokens]
    cases lastKind.any TokenKind.endsStatement
    · exact .inl rfl
    · exact .inr rfl
  · intro token listed
    rw [Token.start, location_of_mem_closingTokens listed, offset_after (List.append_nil _), length]

theorem exists_tiles (source : SourceText) :
    ∃ scanned ending stop,
      (TokenStream.ofCursor source.cursor).items = scanned.map .ok ++ ending ∧
        EndsAt source ending stop ∧ Tiles source.bytes 0 scanned stop := by
  have divides := Cursor.divides_start source
  have start : BlankBetween source.bytes 0 ([] : List Char).utf8Encode.size :=
    .refl (Nat.zero_le _)
  cases found : leftmostOffence? source.text.toList with
  | none =>
      have tiles := source.tiles_lexemeTokens source.text.toList
        (leftmostOffence?_eq_none_iff.mp found) [] [] 0 (by simp) start
      have yielded := TokenStream.items_of_harmless divides found
      rw [List.map_append, List.nil_append] at yielded
      refine ⟨_, _, _, yielded, source.endsAt_closingTokens _, ?_⟩
      rwa [List.nil_append, ← source.bytes_eq] at tiles
  | some offence =>
      obtain ⟨passed, kind⟩ := offence
      obtain ⟨_, _, _, harmless, _⟩ := segments_of_leftmostOffence? found
      obtain ⟨rest, whole⟩ := prefix_of_leftmostOffence? found
      have tiles := source.tiles_lexemeTokens passed harmless [] rest 0 whole start
      refine ⟨_, _, _, TokenStream.items_of_offence divides found, .failed _, ?_⟩
      rw [List.nil_append] at tiles ⊢
      rwa [offset_after whole]

/-- The tokens scanned from a source tile it up to the error that ends the stream, or up to the
end of the source, and with the blanks between them give its bytes back. Every item has the
position of a cursor that has walked there from the start. -/
theorem items_tile (source : SourceText) :
    (∃ scanned ending stop,
      (TokenStream.ofCursor source.cursor).items = scanned.map .ok ++ ending ∧
        EndsAt source ending stop ∧ Tiles source.bytes 0 scanned stop ∧
        (scanned.Pairwise fun earlier later =>
          earlier.stop ≤ later.start ∧ earlier.start < later.start) ∧
        ∃ (gaps : List ByteArray) (last : ByteArray), gaps.length = scanned.length ∧
          (∀ gap ∈ gaps, isBlank gap = true) ∧ isBlank last = true ∧
            weave (gaps.zip scanned) last ++ source.bytes.extract stop source.length
              = source.bytes) ∧
    ∀ item ∈ (TokenStream.ofCursor source.cursor).items, ∃ steps,
      itemLocation item = (Cursor.advance^[steps] source.cursor).position ∧
        (itemLocation item).offset.toNat = (Cursor.advance^[steps] source.cursor).offset ∧
        (itemLocation item).path = source.path := by
  constructor
  · obtain ⟨scanned, ending, stop, yielded, ends, tiles⟩ := source.exists_tiles
    obtain ⟨gaps, last, length, blank, blank_last, whole⟩ := tiles.weave_eq
    refine ⟨scanned, ending, stop, yielded, ends, tiles, tiles.pairwise, gaps, last, length, blank,
      blank_last, ?_⟩
    have inside : stop ≤ source.length := tiles.bounds.2
    rw [whole, ← ByteArray.extract_eq_extract_append_extract stop (Nat.zero_le _) inside]
    exact ByteArray.extract_zero_size
  · intro item listed
    rw [TokenStream.ofCursor,
      TokenStream.items_eq_readFrom source _ [] _ none (Cursor.divides_start source)] at listed
    obtain ⟨passed, ⟨rest, whole⟩, location⟩ := exists_before_of_mem_readFrom listed
    rw [List.nil_append, segments_flatten] at whole
    have divides := Cursor.divides_iterate_advance source passed rest whole
    refine ⟨passed.length, ?_, ?_, ?_⟩
    · rw [location, divides.position_eq]
    · rw [location, divides.offset_eq, offset_after whole]
    · rw [location]
      rfl

theorem items_tile_two_lines :
    ∃ source : SourceText, source.text = "a\n b" ∧
      .ok ⟨.identifier, "b", ⟨source.path, 2, 2, 3⟩⟩ ∈ (TokenStream.ofCursor source.cursor).items ∧
      ∃ steps, (Cursor.advance^[steps] source.cursor).position = ⟨source.path, 2, 2, 3⟩ ∧
        (Cursor.advance^[steps] source.cursor).offset = 3 := by
  have listed : .ok ⟨.identifier, "b", ⟨⟨0⟩, 2, 2, 3⟩⟩ ∈
      (TokenStream.ofCursor (⟨⟨0⟩, "a\n b", by decide⟩ : SourceText).cursor).items := by
    rw [TokenStream.items_of_harmless (Cursor.divides_start _) (by decide)]
    decide
  obtain ⟨steps, position, offset, _⟩ := (items_tile ⟨⟨0⟩, "a\n b", by decide⟩).2 _ listed
  exact ⟨_, rfl, listed, steps, position.symm, offset.symm⟩

end SourceText

end FrontEnd
