import FrontEnd.Proofs.Source.Order
import FrontEnd.Proofs.Token.Tiling

/-! The order of what a stream yields. Every item stands at a place of the source behind those of
the items before it, but for the two tokens that may be added at its end. -/

namespace FrontEnd

namespace SourceText

variable {source : SourceText} {cursor : Cursor} {before ahead rest : List Char}

def Closes (source : SourceText) (earlier later : Except LexError Token) : Prop :=
  ∃ place, source.Visits place ∧ place.isAtEnd = true ∧
    earlier = .ok (TokenStream.terminator place) ∧ later = .ok (TokenStream.endToken place)

theorem pairwise_closingTokens (source : SourceText) (lastKind : Option TokenKind) :
    ((closingTokens source.path lastKind source.text.toList).map .ok).Pairwise source.Closes := by
  have ends := Cursor.divides_iterate_advance source source.text.toList [] (List.append_nil _)
  rw [closingTokens, ← TokenStream.terminator_eq ends, ← TokenStream.endToken_eq ends]
  cases lastKind.any TokenKind.endsStatement with
  | false => exact List.pairwise_singleton _ _
  | true =>
      refine List.pairwise_pair.mpr ⟨_, source.visits_iterate _, ?_, rfl, rfl⟩
      rw [ends.isAtEnd_eq]
      rfl

theorem tiles_of_divides (divides : cursor.Divides source before (ahead ++ rest))
    (harmless : ∀ segment ∈ segments ahead, offence? segment = none) :
    Tiles source.bytes cursor.offset (lexemeTokens source.path before (segments ahead))
      (before ++ ahead).utf8Encode.size := by
  refine source.tiles_lexemeTokens ahead harmless before rest _ divides.whole ?_
  rw [divides.offset_eq]
  exact .refl (size_le_size_bytes divides.whole)

theorem pairwise_append_of_tiles {start stop : Nat} {scanned : List Token}
    {ending : List (Except LexError Token)} (tiles : Tiles source.bytes start scanned stop)
    (place : ∀ item ∈ ending, (itemLocation item).offset.toNat = stop)
    (closing : ending.Pairwise source.Closes) :
    (scanned.map Except.ok ++ ending).Pairwise fun earlier later =>
      (itemLocation earlier).offset.toNat < (itemLocation later).offset.toNat ∨
        source.Closes earlier later := by
  rw [List.pairwise_append]
  refine ⟨?_, closing.imp .inr, ?_⟩
  · exact List.pairwise_map.mpr (tiles.pairwise.imp fun order => .inl order.2)
  · intro earlier listed later added
    obtain ⟨token, inside, rfl⟩ := List.mem_map.mp listed
    rw [place later added]
    exact .inl (tiles.start_lt token inside)

end SourceText

namespace TokenStream

variable {source : SourceText} {cursor : Cursor} {before ahead : List Char}

theorem pairwise_items (divides : cursor.Divides source before ahead) :
    (ofCursor cursor).items.Pairwise fun earlier later =>
      (itemLocation earlier).offset.toNat < (itemLocation later).offset.toNat ∨
        source.Closes earlier later := by
  cases found : leftmostOffence? ahead with
  | none =>
      have before_end : cursor.Divides source before (ahead ++ []) := by rwa [List.append_nil]
      have tiles := SourceText.tiles_of_divides before_end (leftmostOffence?_eq_none_iff.mp found)
      rw [items_of_harmless divides found, List.map_append, divides.whole]
      refine SourceText.pairwise_append_of_tiles tiles ?_ (source.pairwise_closingTokens _)
      intro item listed
      obtain ⟨token, closing, rfl⟩ := List.mem_map.mp listed
      rw [itemLocation, location_of_mem_closingTokens closing,
        SourceText.offset_after (List.append_nil _), divides.whole]
  | some offence =>
      obtain ⟨passed, kind⟩ := offence
      obtain ⟨_, _, _, harmless, _⟩ := segments_of_leftmostOffence? found
      obtain ⟨rest, rfl⟩ := prefix_of_leftmostOffence? found
      have whole : (before ++ passed) ++ rest = source.text.toList := by
        rw [List.append_assoc, divides.whole]
      rw [items_of_offence divides found]
      refine SourceText.pairwise_append_of_tiles (SourceText.tiles_of_divides divides harmless) ?_
        (List.pairwise_singleton _ _)
      intro item listed
      obtain rfl := List.mem_singleton.mp listed
      exact SourceText.offset_after whole

theorem exists_place_of_error (divides : cursor.Divides source before ahead) {error : LexError}
    (listed : .error error ∈ (ofCursor cursor).items) :
    ∃ place, source.Visits place ∧ error.location = place.position ∧ place.isAtEnd = false := by
  cases found : leftmostOffence? ahead with
  | none => simp [items_of_harmless divides found] at listed
  | some offence =>
      obtain ⟨passed, kind⟩ := offence
      obtain ⟨rest, rfl⟩ := prefix_of_leftmostOffence? found
      have there := divides.iterate passed.length
      rw [List.take_left, List.drop_left] at there
      obtain rfl : error = ⟨kind, Location.after source.path (before ++ passed)⟩ := by
        simpa [items_of_offence divides found] using listed
      refine ⟨_, SourceText.visits_iff_exists_divides.mpr ⟨_, _, there⟩, there.position_eq.symm, ?_⟩
      rw [there.isAtEnd_eq, List.isEmpty_eq_false_iff]
      exact ne_nil_of_leftmostOffence? found

theorem exists_place_of_item (divides : cursor.Divides source before ahead)
    {item : Except LexError Token} (listed : item ∈ (ofCursor cursor).items) :
    ∃ place, source.Visits place ∧ itemLocation item = place.position := by
  rw [ofCursor, items_eq_readFrom source ahead before cursor none divides] at listed
  obtain ⟨passed, ⟨rest, whole⟩, location⟩ := exists_before_of_mem_readFrom listed
  rw [segments_flatten, divides.whole] at whole
  have there := Cursor.divides_iterate_advance source passed rest whole
  exact ⟨_, source.visits_iterate _, location.trans there.position_eq.symm⟩

end TokenStream

namespace SourceText

/-- Line and column order the places of a source as their offsets do, so that they name a place
as the offset does, and so does what is printed of them. What a stream yields is in that order,
and only a semicolon and an end token that are added at the end of the source share a place. -/
theorem comparePlace_exact (source : SourceText) (short : source.length < sourceLimit) :
    (∀ first second, source.Visits first → source.Visits second →
      first.position.comparePlace second.position = compare first.offset second.offset ∧
      first.position.comparePlace second.position
        = compare first.position.offset second.position.offset ∧
      (first.position.line = second.position.line ∧ first.position.column = second.position.column ↔
        first.position.offset = second.position.offset) ∧
      (first.position.display = second.position.display → first = second)) ∧
    ∀ cursor, source.Visits cursor →
      ((TokenStream.ofCursor cursor).items.Pairwise fun earlier later =>
        (itemLocation earlier).comparePlace (itemLocation later) = .lt ∨
          (itemLocation earlier).comparePlace (itemLocation later) = .eq ∧
            source.Closes earlier later) ∧
      (∀ item ∈ (TokenStream.ofCursor cursor).items, ∃ place, source.Visits place ∧
        itemLocation item = place.position ∧
        ∀ other, source.Visits other →
          other.position.display = (itemLocation item).display → other = place) ∧
      ∀ error, .error error ∈ (TokenStream.ofCursor cursor).items →
        ∃ place, source.Visits place ∧ error.location = place.position ∧ place.isAtEnd = false := by
  refine ⟨?_, ?_⟩
  · intro first second earlier later
    have places := earlier.comparePlace_eq later short
    refine ⟨places, ?_, earlier.line_column_eq_iff later short, earlier.eq_of_display_eq later short⟩
    rw [places, earlier.compare_offset_position later]
  · intro cursor visited
    obtain ⟨before, ahead, divides⟩ := visits_iff_exists_divides.mp visited
    refine ⟨?_, ?_, fun error => TokenStream.exists_place_of_error divides⟩
    · refine (TokenStream.pairwise_items divides).imp_of_mem ?_
      intro earlier later listed behind order
      obtain ⟨first, here, earlier_eq⟩ := TokenStream.exists_place_of_item divides listed
      obtain ⟨second, there, later_eq⟩ := TokenStream.exists_place_of_item divides behind
      rcases order with closer | closes
      · rw [earlier_eq, later_eq, here.offset_position, there.offset_position] at closer
        rw [earlier_eq, later_eq]
        exact .inl (here.comparePlace_of_offset_lt there short closer)
      · refine .inr ⟨?_, closes⟩
        obtain ⟨place, _, _, rfl, rfl⟩ := closes
        exact Location.comparePlace_eq_eq_iff.mpr ⟨rfl, rfl⟩
    · intro item listed
      obtain ⟨place, here, location⟩ := TokenStream.exists_place_of_item divides listed
      refine ⟨place, here, location, ?_⟩
      intro other there same
      rw [location] at same
      exact there.eq_of_display_eq here short same

theorem comparePlace_exact_behind_newline :
    ∃ source : SourceText, source.text = "y\né" ∧ source.length < sourceLimit ∧
      (Cursor.advance^[2] source.cursor).position = ⟨source.path, 2, 1, 2⟩ ∧
      (Location.startOf source.path).comparePlace ⟨source.path, 2, 1, 2⟩ = compare 0 2 ∧
      (∀ other, source.Visits other →
        other.position.display = "2:1" → other = Cursor.advance^[2] source.cursor) ∧
      ∃ place, source.Visits place ∧ ⟨source.path, 2, 1, 2⟩ = place.position ∧
        place.isAtEnd = false := by
  let source : SourceText := ⟨⟨0⟩, "y\né", by decide⟩
  obtain ⟨places, streams⟩ := comparePlace_exact source (by decide)
  have visited : ∀ count, source.Visits (Cursor.advance^[count] source.cursor) :=
    source.visits_iterate
  have start : (Cursor.advance^[0] source.cursor).position = Location.startOf source.path := rfl
  have behind : (Cursor.advance^[2] source.cursor).position = ⟨source.path, 2, 1, 2⟩ := by
    decide +kernel
  have order := (places _ _ (visited 0) (visited 2)).1
  have offset : (Cursor.advance^[2] source.cursor).offset = 2 := by decide +kernel
  rw [start, behind, offset] at order
  have stops : .error ⟨.unexpectedCharacter 'é', ⟨source.path, 2, 1, 2⟩⟩ ∈
      (TokenStream.ofCursor source.cursor).items := by
    rw [TokenStream.items_of_offence (Cursor.divides_start source)
      (show leftmostOffence? source.text.toList = some (['y', '\n'], .unexpectedCharacter 'é') by
        decide)]
    decide
  refine ⟨source, rfl, by decide, behind, order, ?_, (streams _ (visited 0)).2.2 _ stops⟩
  intro other there same
  have shown : (Cursor.advance^[2] source.cursor).position.display = "2:1" := by
    rw [behind]
    decide
  exact (places _ _ there (visited 2)).2.2.2 (same.trans shown.symm)

end SourceText

end FrontEnd
