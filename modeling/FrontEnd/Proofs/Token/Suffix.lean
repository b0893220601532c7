import FrontEnd.Proofs.Token.Joining
import FrontEnd.Proofs.Token.Protocol

/-! Streams that begin in the middle of a text, be it in a word, between blanks or behind the end.
Such a stream knows nothing of what is behind its cursor: it yields what the rest of the text yields
as a source of its own, at locations that follow the place where the rest begins. -/

namespace FrontEnd

def SourceText.rest (source : SourceText) (count : Nat) (path : PathId) : SourceText where
  path := path
  text := String.ofList (source.text.toList.drop count)
  size_le := by
    have whole := congrArg (fun text : List Char => text.utf8Encode.size)
      (source.text.toList.take_append_drop count)
    have limit : source.bytes.size ≤ sourceLimit := source.size_le
    rw [source.bytes_eq, ← whole] at limit
    rw [← String.size_toByteArray, String.toByteArray_ofList]
    simp only [List.utf8Encode_append, ByteArray.size_append] at limit
    omega

def itemFollowing (finish : Location) : Except LexError Token → Except LexError Token
  | .ok token => .ok (token.following finish)
  | .error error => .error (error.following finish)

def unplaced : Except LexError Token → Except LexErrorKind (TokenKind × String)
  | .ok token => .ok (token.kind, token.text)
  | .error error => .error error.kind

theorem unplaced_itemFollowing (finish : Location) (item : Except LexError Token) :
    unplaced (itemFollowing finish item) = unplaced item := by
  cases item <;> rfl

variable {before : List Char}

theorem closingTokens_following (path other : PathId) (first : List Char)
    (limit : before.length ≤ sourceLimit) (lastKind : Option TokenKind) :
    closingTokens path lastKind (first ++ before)
      = (closingTokens other lastKind before).map (·.following (Location.after path first)) := by
  rw [closingTokens, closingTokens, tokenAt_append path other first limit,
    tokenAt_append path other first limit, List.map_append]
  split <;> rfl

theorem readFrom_following (path other : PathId) (first : List Char) {parts : List (List Char)}
    (limit : (before ++ parts.flatten).length ≤ sourceLimit) (lastKind : Option TokenKind) :
    readFrom path lastKind (first ++ before) parts
      = (readFrom other lastKind before parts).map (itemFollowing (Location.after path first)) := by
  have short : before.length ≤ sourceLimit := by
    rw [List.length_append] at limit
    omega
  induction parts generalizing before lastKind with
  | nil =>
      rw [readFrom, readFrom, closingTokens_following path other first short, List.map_map,
        List.map_map]
      rfl
  | cons segment rest ih =>
      rw [List.flatten_cons, ← List.append_assoc] at limit
      have within : (before ++ segment).length ≤ sourceLimit := by
        rw [List.length_append] at limit
        omega
      have later (kind : Option TokenKind) := ih limit kind within
      simp only [← List.append_assoc] at later
      rw [readFrom, readFrom]
      cases offends : offence? segment with
      | some kind =>
          rw [Location.after_append path other first before short]
          rfl
      | none =>
          cases spelled : lexemeKind? segment with
          | none => exact later lastKind
          | some kind =>
              have here := tokenAt_append path other first short kind segment
              exact congrArg₂ List.cons (congrArg Except.ok here) (later (some kind))

namespace TokenStream

theorem items_iterate (source : SourceText) (count : Nat) (path : PathId) :
    (ofCursor (Cursor.advance^[count] source.cursor)).items
      = (ofCursor (source.rest count path).cursor).items.map
          (itemFollowing (Cursor.advance^[count] source.cursor).position) := by
  have here := Cursor.divides_iterate source count
  have start := Cursor.divides_start (source.rest count path)
  have text : (source.rest count path).text.toList = source.text.toList.drop count :=
    String.toList_ofList
  have limit : ([] ++ (segments (source.text.toList.drop count)).flatten).length ≤ sourceLimit := by
    rw [segments_flatten, ← text]
    exact SourceText.length_le (List.append_nil _)
  have moved := readFrom_following source.path path (source.text.toList.take count) limit none
  rw [List.append_nil] at moved
  rw [ofCursor, ofCursor, items_eq_readFrom _ _ _ _ _ here, items_eq_readFrom _ _ _ _ _ start,
    here.position_eq, text]
  exact moved

/-- A stream from a cursor that has been advanced answers every call, also behind its end, like the
stream of what is then left of the text, but for locations: they are moved by the lines and bytes
before the cursor, and on the first line that is left by its columns. -/
theorem ofCursor_iterate (source : SourceText) (count : Nat) (path : PathId) :
    (∀ index, (ofCursor (Cursor.advance^[count] source.cursor)).answer index
        = ((ofCursor (source.rest count path).cursor).answer index).map
            (itemFollowing (Cursor.advance^[count] source.cursor).position)) ∧
    (∀ calls, ((ofCursor (Cursor.advance^[count] source.cursor)).after calls).isFinished
        = ((ofCursor (source.rest count path).cursor).after calls).isFinished) ∧
    (∀ location : Location, location.following (Cursor.advance^[count] source.cursor).position
        = ⟨source.path,
          location.line + ((source.text.toList.take count).count '\n').toUInt32,
          if location.line = 1 then location.column
            + ((source.text.toList.take count).reverse.takeWhile (· ≠ '\n')).length.toUInt32
          else location.column,
          location.offset + ((source.text.toList.take count).map Char.utf8Size).sum.toUInt32⟩) ∧
    ∀ (other : SourceText) (passed : Nat),
      other.text.toList.drop passed = source.text.toList.drop count → ∀ index,
        ((ofCursor (Cursor.advance^[passed] other.cursor)).answer index).map unplaced
          = ((ofCursor (Cursor.advance^[count] source.cursor)).answer index).map unplaced := by
  have answers (source : SourceText) (count index : Nat) :
      (ofCursor (Cursor.advance^[count] source.cursor)).answer index
        = ((ofCursor (source.rest count path).cursor).answer index).map
            (itemFollowing (Cursor.advance^[count] source.cursor).position) := by
    rw [answer_eq, answer_eq, items_iterate source count path, List.getElem?_map]
  refine ⟨answers source count, ?_, ?_, ?_⟩
  · intro calls
    rw [Bool.eq_iff_iff, isFinished_after_iff, isFinished_after_iff, items_iterate source count path,
      List.length_map]
  · intro location
    rw [(Cursor.divides_iterate source count).position_eq, Location.following_after]
  · intro other passed same index
    have rest : other.rest passed path = source.rest count path := by
      simp only [SourceText.rest, same]
    have placeless (finish : Location) (item : Option (Except LexError Token)) :
        (item.map (itemFollowing finish)).map unplaced = item.map unplaced := by
      rw [Option.map_map, show unplaced ∘ itemFollowing finish = unplaced from
        funext (unplaced_itemFollowing finish)]
    rw [answers, answers, rest, placeless, placeless]

theorem ofCursor_iterate_inside_word :
    ∃ source other : SourceText, source.text = "é\n ab\n0x" ∧ other.text = "b\n0x" ∧
      (ofCursor (Cursor.advance^[4] source.cursor)).answer 0
        = some (.ok ⟨.identifier, "b", ⟨source.path, 2, 3, 5⟩⟩) ∧
      (ofCursor (Cursor.advance^[4] source.cursor)).answer 1
        = some (.error ⟨.invalidLiteral "0x", ⟨source.path, 3, 1, 7⟩⟩) ∧
      ((ofCursor other.cursor).answer 1).map unplaced
        = ((ofCursor (Cursor.advance^[4] source.cursor)).answer 1).map unplaced := by
  let source : SourceText := ⟨⟨1⟩, "é\n ab\n0x", by decide⟩
  obtain ⟨answers, _, _, alone⟩ := ofCursor_iterate source 4 ⟨2⟩
  have same := alone ⟨⟨3⟩, "b\n0x", by decide⟩ 0 (by decide) 1
  have found : leftmostOffence? (source.rest 4 ⟨2⟩).text.toList
      = some (['b', '\n'], .invalidLiteral "0x") := by decide
  have items := items_of_offence (Cursor.divides_start (source.rest 4 ⟨2⟩)) found
  have here : (Cursor.advance^[4] source.cursor).position = ⟨⟨1⟩, 2, 3, 5⟩ := by
    rw [(Cursor.divides_iterate source 4).position_eq]
    decide
  have answer (index : Nat) : (ofCursor (Cursor.advance^[4] source.cursor)).answer index
      = ((ofCursor (source.rest 4 ⟨2⟩).cursor).items.map (itemFollowing ⟨⟨1⟩, 2, 3, 5⟩))[index]? := by
    rw [answers, answer_eq, here, List.getElem?_map]
  refine ⟨source, ⟨⟨3⟩, "b\n0x", by decide⟩, rfl, rfl, ?_, ?_, same⟩
  · rw [answer, items]
    decide
  · rw [answer, items]
    decide

end TokenStream

end FrontEnd
