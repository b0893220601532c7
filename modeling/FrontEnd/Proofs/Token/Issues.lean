import FrontEnd.Proofs.Source.Issues
import FrontEnd.Proofs.Token.Joining
import FrontEnd.Proofs.Token.Reception
import Mathlib

/-! A source with an encoding issue is refused. The character that the first issue is about belongs
to no lexeme, so that the tokens end before it. A null character within a source is refused like any
other that begins nothing, and is not taken for the end. -/

namespace FrontEnd

/-! A character that begins nothing ends the lexemes of a text, unless they ended before. -/

theorem leftmostOffence?_append_left {first second passed : List Char} {kind : LexErrorKind}
    (found : leftmostOffence? first = some (passed, kind))
    (apart : ∀ left ∈ first.getLast?, ∀ right ∈ second.head?,
      (isWordCharacter left && isWordCharacter right) = false) :
    leftmostOffence? (first ++ second) = some (passed, kind) := by
  obtain ⟨segment, rest, split, harmless, offends⟩ := segments_of_leftmostOffence? found
  rw [leftmostOffence?, segments_append_of_apart apart, split, List.append_assoc,
    firstOffence?_append _ harmless, segments_flatten, List.nil_append, List.cons_append,
    firstOffence?, offends]

theorem size_lt_of_leftmostOffence? {text passed : List Char} {kind : LexErrorKind}
    (found : leftmostOffence? text = some (passed, kind)) :
    passed.utf8Encode.size < text.utf8Encode.size := by
  obtain ⟨tail, rfl⟩ := prefix_of_leftmostOffence? found
  have positive := List.length_pos_of_ne_nil (ne_nil_of_leftmostOffence? found)
  have size := length_le_size_utf8Encode tail
  rw [List.utf8Encode_append, ByteArray.size_append]
  omega

theorem leftmostOffence?_of_foreign {character : Char} {kind : LexErrorKind}
    (separate : isWordCharacter character = false) (offends : offence? [character] = some kind)
    (before rest : List Char) :
    leftmostOffence? (before ++ character :: rest) = some (before, kind) ∨
      ∃ passed earlier, leftmostOffence? (before ++ character :: rest) = some (passed, earlier) ∧
        passed.utf8Encode.size < before.utf8Encode.size := by
  have apart : ∀ left ∈ before.getLast?, ∀ right ∈ (character :: rest).head?,
      (isWordCharacter left && isWordCharacter right) = false := by
    rintro left _ right ⟨⟩
    rw [separate, Bool.and_false]
  cases found : leftmostOffence? before with
  | none =>
      have here : leftmostOffence? (character :: rest) = some ([], kind) := by
        have parts : segments (character :: rest) = [character] :: segments rest :=
          (Leads.single separate).segments_append
        rw [leftmostOffence?, parts, firstOffence?, offends]
      refine .inl ?_
      rw [leftmostOffence?_append found apart, here, Option.map_some, List.append_nil]
  | some offence =>
      exact .inr ⟨_, _, leftmostOffence?_append_left found apart, size_lt_of_leftmostOffence? found⟩

namespace Receiver

variable {σ ε : Type} {receiver : Receiver σ ε} {state : σ} {tokens : List Token}

theorem Refuses.isPrefix {given : List Token} {refused : σ} {error : ε}
    (refuses : receiver.Refuses state tokens given refused error) : given <+: tokens := by
  cases refuses with
  | @mk before _ token later => exact ⟨later, by rw [List.append_assoc]; rfl⟩

theorem givenFrom_isPrefix {cursor : Cursor} {last : Except LexError Token}
    (reads : (TokenStream.ofCursor cursor).Reads tokens last) (receiver : Receiver σ ε) (state : σ) :
    receiver.givenFrom cursor state <+: allTokens tokens last := by
  rcases receiver.takes_or_refuses state (allTokens tokens last) with
    ⟨final, takes⟩ | ⟨given, refused, error, refuses⟩
  · have whole : receiver.givenFrom cursor state = allTokens tokens last :=
      congrArg Prod.snd (Cursor.tokenize_of_takes reads (takes.recorded [])).1
    exact ⟨[], (List.append_nil _).trans whole⟩
  · have part : receiver.givenFrom cursor state = given :=
      congrArg Prod.snd (Cursor.tokenize_of_refuses reads refuses.recorded).1
    rw [part]
    exact refuses.isPrefix

end Receiver

theorem Tiles.written {bytes : ByteArray} {start stop : Nat} {tokens : List Token}
    (tiles : Tiles bytes start tokens stop) :
    ∀ token ∈ tokens, token.text ≠ "" ∧
      bytes.extract token.start token.stop = token.text.toUTF8 ∧ token.stop ≤ stop := by
  induction tokens generalizing start with
  | nil => simp
  | cons token rest ih =>
      obtain ⟨_, nonempty, text, later⟩ := tiles
      intro other listed
      rcases List.mem_cons.mp listed with rfl | listed
      · exact ⟨nonempty, text, later.bounds.1⟩
      · exact ih later other listed

theorem EncodingIssueKind.foreign (kind : EncodingIssueKind) :
    isWordCharacter kind.character = false ∧
      offence? [kind.character] = some (.unexpectedCharacter kind.character) := by
  cases kind <;> decide

namespace SourceText

variable {source : SourceText}

theorem leftmostOffence?_of_mem_issues {issue : EncodingIssue} (listed : issue ∈ source.issues) :
    ∃ passed kind, leftmostOffence? source.text.toList = some (passed, kind) ∧
      passed.utf8Encode.size ≤ issue.position ∧
      (passed.utf8Encode.size = issue.position →
        kind = .unexpectedCharacter issue.kind.character) := by
  obtain ⟨before, rest, whole, place⟩ := exists_append_of_mem_issues listed
  obtain ⟨separate, offends⟩ := issue.kind.foreign
  rw [whole, ← place]
  rcases leftmostOffence?_of_foreign separate offends before rest with
    found | ⟨passed, kind, found, earlier⟩
  · exact ⟨before, _, found, Nat.le_refl _, fun _ => rfl⟩
  · exact ⟨passed, kind, found, Nat.le_of_lt earlier,
      fun same => absurd same (Nat.ne_of_lt earlier)⟩

theorem position_lt_of_mem_issues {issue : EncodingIssue} (listed : issue ∈ source.issues) :
    issue.position < source.length := by
  obtain ⟨before, rest, whole, place⟩ := exists_append_of_mem_issues listed
  have inside := size_le_size_bytes
    (show (before ++ [issue.kind.character]) ++ rest = source.text.toList by simpa using whole.symm)
  have width := length_le_size_utf8Encode [issue.kind.character]
  have length : source.bytes.size = source.length := rfl
  rw [List.utf8Encode_append, ByteArray.size_append] at inside
  rw [List.length_singleton] at width
  omega

theorem tiles_of_offence {passed : List Char} {kind : LexErrorKind}
    (found : leftmostOffence? source.text.toList = some (passed, kind)) :
    Tiles source.bytes 0 (lexemeTokens source.path [] (segments passed)) passed.utf8Encode.size := by
  obtain ⟨_, _, _, harmless, _⟩ := segments_of_leftmostOffence? found
  obtain ⟨rest, whole⟩ := prefix_of_leftmostOffence? found
  exact source.tiles_lexemeTokens passed harmless [] rest 0 whole (.refl (Nat.zero_le _))

/-- A source with an encoding issue is refused at the first issue or before it, and at the issue
for its character. The tokens until then are those written in the source, and no receiver is
given an end token or a terminator that was left out. -/
theorem tokens_of_issues (source : SourceText) :
    (source.issues ≠ [] ↔
      (∃ rest, source.text.toList = '\uFEFF' :: rest) ∨ '\x00' ∈ source.text.toList) ∧
    ∀ first later, source.issues = first :: later →
      (∀ issue ∈ later, first.position < issue.position) ∧
      ∃ tokens error, source.tokens = .error error ∧
        (TokenStream.ofCursor source.cursor).items = tokens.map .ok ++ [.error error] ∧
        (∀ {σ ε : Type} (receiver : Receiver σ ε) (state : σ),
          receiver.givenFrom source.cursor state <+: tokens) ∧
        (∀ token ∈ tokens, token.kind ≠ .endOfStream ∧ token.text ≠ "" ∧
          source.bytes.extract token.start token.stop = token.text.toUTF8 ∧
          token.stop ≤ error.location.offset.toNat) ∧
        error.location.offset.toNat ≤ first.position ∧ first.position < source.length ∧
        (error.location.offset.toNat = first.position →
          error.kind = .unexpectedCharacter first.kind.character) := by
  refine ⟨issues_ne_nil_iff, ?_⟩
  intro first later listed
  have ordered := source.pairwise_issues
  have here : first ∈ source.issues := by simp [listed]
  rw [listed, List.pairwise_cons] at ordered
  obtain ⟨passed, kind, found, within, atIssue⟩ := leftmostOffence?_of_mem_issues here
  obtain ⟨rest, whole⟩ := prefix_of_leftmostOffence? found
  obtain ⟨tokens, last, reads⟩ :=
    TokenStream.exists_reads (TokenStream.ofCursor source.cursor) StreamPhase.noConfusion
  obtain ⟨rfl, rfl⟩ := reads.eq_of_offence found
  have offset : (Location.after source.path passed).offset.toNat = passed.utf8Encode.size :=
    offset_after whole
  refine ⟨ordered.1, _, _, (tokens_of_offence found).1, reads.items, ?_, ?_, ?_, ?_, ?_⟩
  · exact fun receiver state => receiver.givenFrom_isPrefix reads state
  · intro token member
    have written := (tiles_of_offence found).written token member
    rw [← offset] at written
    exact ⟨reads.inner token member, written⟩
  · exact offset ▸ within
  · exact position_lt_of_mem_issues here
  · exact fun same => atIssue (offset ▸ same)

theorem tokens_of_null_behind_digit :
    ∃ source : SourceText, source.text = "a 7\x00;" ∧ source.issues = [⟨.interiorNull, 3, 1⟩] ∧
      source.tokens = .error ⟨.unexpectedCharacter '\x00', ⟨source.path, 1, 4, 3⟩⟩ ∧
      ∀ {σ ε : Type} (receiver : Receiver σ ε) (state : σ),
        receiver.givenFrom source.cursor state
          <+: [⟨.identifier, "a", ⟨source.path, 1, 1, 0⟩⟩,
            ⟨.integerLiteral, "7", ⟨source.path, 1, 3, 2⟩⟩] := by
  let source : SourceText := ⟨⟨0⟩, "a 7\x00;", by decide⟩
  have listed : source.issues = [⟨.interiorNull, 3, 1⟩] := by cbv
  obtain ⟨_, tokens, error, refused, items, given, _⟩ := source.tokens_of_issues.2 _ _ listed
  have found : leftmostOffence? source.text.toList
      = some ("a 7".toList, .unexpectedCharacter '\x00') := by decide
  have yielded := items.symm.trans (TokenStream.items_of_offence (Cursor.divides_start _) found)
  obtain ⟨same, ending⟩ := List.append_inj' yielded rfl
  obtain rfl := List.map_injective_iff.mpr (fun _ _ => Except.ok.inj) same
  obtain rfl : error = _ := Except.error.inj (List.singleton_injective ending)
  exact ⟨source, rfl, listed, refused.trans (by decide), given⟩

end SourceText

end FrontEnd
