import FrontEnd.Proofs.Command.Printing
import FrontEnd.Proofs.Source.Order

/-! Printed tokens read back. No text between the quotes has a blank or a line break, so the line
of a token can be taken apart at its blanks, and the output at its line breaks. -/

namespace FrontEnd

theorem TokenKind.ofName?_name (kind : TokenKind) : ofName? kind.name = some kind := by
  cases kind <;> decide

theorem TokenKind.blank_lt_of_mem_name (kind : TokenKind) :
    ∀ character ∈ kind.name.toList, ' ' < character := by
  cases kind <;> simp [name]

namespace TokenRow

def read? (entry : List Char) : Option TokenRow :=
  match entry.splitOn ' ' with
  | [place, name, quoted] =>
      match place.splitOn ':' with
      | [line, column] =>
          (TokenKind.ofName? (String.ofList name)).map fun kind =>
            ⟨Nat.ofDigitChars 10 line 0, Nat.ofDigitChars 10 column 0, kind,
              if kind = .endOfStream then "\x00" else String.ofList quoted.tail.dropLast⟩
      | _ => none
  | _ => none

def readAll? (output : String) : Option (List TokenRow) :=
  (output.toList.splitOn '\n').dropLast.mapM read?

variable {row : TokenRow}

def place (row : TokenRow) : List Char :=
  Nat.toDigits 10 row.line ++ ':' :: Nat.toDigits 10 row.column

theorem toList_entry (row : TokenRow) :
    row.entry.toList
      = row.place ++ ' ' :: (row.kind.name.toList ++ ' ' :: ('"' :: row.shown.toList ++ ['"'])) := by
  simp [entry, place, Nat.toList_repr]

theorem blank_lt_of_mem_toDigits {number : Nat} {digit : Char}
    (listed : digit ∈ Nat.toDigits 10 number) : ' ' < digit := by
  have isDigit := Nat.isDigit_of_mem_toDigits (by decide) (by decide) listed
  have word : isWordCharacter digit = true := by simp [isWordCharacter, Char.isAlphanum, isDigit]
  exact (isPlain_of_isWordCharacter word).low

theorem blank_lt_of_mem_place {character : Char} (listed : character ∈ row.place) :
    ' ' < character := by
  rw [place, List.mem_append, List.mem_cons] at listed
  rcases listed with line | rfl | column
  · exact blank_lt_of_mem_toDigits line
  · decide
  · exact blank_lt_of_mem_toDigits column

theorem splitOn_place (row : TokenRow) :
    row.place.splitOn ':' = [Nat.toDigits 10 row.line, Nat.toDigits 10 row.column] := by
  rw [place, List.splitOn_append_cons_self_of_not_mem (Location.colon_notMem_toDigits _),
    List.splitOn_eq_singleton (Location.colon_notMem_toDigits _)]

namespace IsLegible

theorem of_mem_shown (legible : row.IsLegible) {character : Char}
    (listed : character ∈ row.shown.toList) : ' ' < character ∧ character ≠ '"' := by
  by_cases last : row.kind = .endOfStream
  · rw [shown, if_pos last] at listed
    simp at listed
    rcases listed with rfl | rfl <;> decide
  · rw [shown, if_neg last] at listed
    exact ⟨(legible.plain last _ listed).low, (legible.plain last _ listed).unquoted⟩

theorem blank_lt_of_mem_quoted (legible : row.IsLegible) {character : Char}
    (listed : character ∈ '"' :: row.shown.toList ++ ['"']) : ' ' < character := by
  rw [List.mem_append, List.mem_cons, List.mem_singleton] at listed
  rcases listed with (rfl | inside) | rfl
  · decide
  · exact (legible.of_mem_shown inside).1
  · decide

theorem newline_notMem_entry (legible : row.IsLegible) : '\n' ∉ row.entry.toList := by
  rw [toList_entry, List.mem_append, List.mem_cons, List.mem_append, List.mem_cons]
  rintro (inside | impossible | inside | impossible | inside)
  · exact absurd (blank_lt_of_mem_place inside) (by decide)
  · exact absurd impossible (by decide)
  · exact absurd (row.kind.blank_lt_of_mem_name _ inside) (by decide)
  · exact absurd impossible (by decide)
  · exact absurd (legible.blank_lt_of_mem_quoted inside) (by decide)

theorem splitOn_entry (legible : row.IsLegible) :
    row.entry.toList.splitOn ' '
      = [row.place, row.kind.name.toList, '"' :: row.shown.toList ++ ['"']] := by
  have place : ' ' ∉ row.place := fun inside => absurd (blank_lt_of_mem_place inside) (by decide)
  have name : ' ' ∉ row.kind.name.toList := fun inside =>
    absurd (row.kind.blank_lt_of_mem_name _ inside) (by decide)
  have quoted : ' ' ∉ '"' :: row.shown.toList ++ ['"'] := fun inside =>
    absurd (legible.blank_lt_of_mem_quoted inside) (by decide)
  rw [toList_entry, List.splitOn_append_cons_self_of_not_mem place,
    List.splitOn_append_cons_self_of_not_mem name, List.splitOn_eq_singleton quoted]

theorem read?_entry (legible : row.IsLegible) : read? row.entry.toList = some row := by
  have text : (if row.kind = .endOfStream then "\x00" else row.shown) = row.text := by
    by_cases last : row.kind = .endOfStream
    · rw [if_pos last, legible.ending last]
    · rw [if_neg last, shown, if_neg last]
  simp only [read?, legible.splitOn_entry, splitOn_place, String.ofList_toList,
    TokenKind.ofName?_name, Option.map_some, Nat.ofDigitChars_ten_toDigits]
  simp [text]

end IsLegible

def listing (rows : List TokenRow) : String := String.join (rows.map fun row => row.entry ++ "\n")

theorem splitOn_listing {rows : List TokenRow} (legible : ∀ row ∈ rows, row.IsLegible) :
    (listing rows).toList.splitOn '\n' = rows.map (fun row => row.entry.toList) ++ [[]] := by
  induction rows with
  | nil => rfl
  | cons row rest ih =>
      have later := ih fun other listed => legible other (List.mem_cons_of_mem _ listed)
      have unbroken := (legible row List.mem_cons_self).newline_notMem_entry
      have split : (listing (row :: rest)).toList
          = row.entry.toList ++ '\n' :: (listing rest).toList := by
        simp [listing]
      rw [split, List.splitOn_append_cons_self_of_not_mem unbroken, later]
      rfl

theorem readAll?_listing {rows : List TokenRow} (legible : ∀ row ∈ rows, row.IsLegible) :
    readAll? (listing rows) = some rows := by
  rw [readAll?, splitOn_listing legible, List.dropLast_concat]
  induction rows with
  | nil => rfl
  | cons row rest ih =>
      have later := ih fun other listed => legible other (List.mem_cons_of_mem _ listed)
      rw [List.map_cons, List.mapM_cons, (legible row List.mem_cons_self).read?_entry, later]
      rfl

end TokenRow

theorem Receiver.written_of_takes_printer {sink final : Sink} {tokens : List Token}
    (takes : printer.Takes sink tokens final) :
    final.written = sink.written ++ String.join (tokens.map Token.line) := by
  induction takes with
  | nil => simp
  | @cons sink next final token rest received _ ih =>
      have first : next.written = sink.written ++ token.line := by
        simp only [printer, Sink.write] at received
        split at received
        · cases received
          rfl
        · split at received
          · cases received
            rfl
          · cases received
      rw [ih, first, List.map_cons, String.join_cons, String.append_assoc]

theorem SourceText.isLegible_of_tokens {source : SourceText} {tokens : List Token}
    (accepted : source.tokens = .ok tokens) {token : Token} (listed : token ∈ tokens) :
    token.row.IsLegible := by
  have harmless := leftmostOffence?_of_tokens accepted
  have yielded := TokenStream.items_of_harmless (Cursor.divides_start source) harmless
  rw [tokens_of_harmless harmless, Except.ok.injEq] at accepted
  subst accepted
  exact isLegible_of_mem_items (yielded ▸ List.mem_map_of_mem listed)

theorem SourceText.tokens_of_printed {source : SourceText} {sink : Sink}
    (printed : (source.cursor.tokenize Receiver.printer sink).result = .ok ()) :
    ∃ tokens, source.tokens = .ok tokens ∧
      (source.cursor.tokenize Receiver.printer sink).state.written
        = sink.written ++ TokenRow.listing (tokens.map Token.row) := by
  obtain ⟨tokens, last, reads⟩ :=
    TokenStream.exists_reads (TokenStream.ofCursor source.cursor) StreamPhase.noConfusion
  rcases Receiver.printer.takes_or_refuses sink (allTokens tokens last) with
    ⟨final, takes⟩ | ⟨given, refused, error, refuses⟩
  · obtain ⟨state, result⟩ := Cursor.tokenize_of_takes reads takes
    cases last with
    | error error =>
        rw [result] at printed
        cases printed
    | ok token =>
        have accepted : source.tokens = .ok (allTokens tokens (.ok token)) := by
          refine tokens_of_items ?_
          rw [reads.items]
          simp [allTokens]
        refine ⟨_, accepted, ?_⟩
        rw [state, Receiver.written_of_takes_printer takes, TokenRow.listing, List.map_map]
        refine congrArg (fun lines => sink.written ++ String.join lines) (List.map_congr_left ?_)
        exact fun token listed => Token.line_eq (isLegible_of_tokens accepted listed)
  · rw [(Cursor.tokenize_of_refuses reads refuses).2] at printed
    cases printed

theorem SourceText.printed_of_harmless {source : SourceText}
    (nowhere : leftmostOffence? source.text.toList = none) (written : String) :
    (source.cursor.tokenize Receiver.printer ⟨written, none⟩).result = .ok () := by
  have delivered := source.cursor.tokenize_eq_receiveAll Receiver.printer ⟨written, none⟩
  rw [TokenStream.items_of_harmless (Cursor.divides_start source) nowhere,
    ← List.append_nil (List.map _ _), (Receiver.takes_printer written _).receiveAll_append,
    Receiver.receiveAll, Prod.mk.injEq] at delivered
  exact delivered.2

section Runs

variable {σ η : Type} {disk : Disk σ η} {world : σ} {arguments : LexArguments} {sink : Sink}

def LexArguments.openedPath (arguments : LexArguments) : Path :=
  (PathTable.empty.intern arguments.path).2.displayPath (PathTable.empty.intern arguments.path).1

theorem SourceText.bytes_of_sourceOf {id : PathId} {path : Path} {source : SourceText}
    {contents : Except FileError ByteArray}
    (read : ByteSource.sourceOf id path contents = .ok source) : contents = .ok source.bytes := by
  cases contents with
  | error error => cases read
  | ok content =>
      by_cases valid : ∃ text : String, text.toUTF8 = content
      · obtain ⟨text, rfl⟩ := valid
        rw [ByteSource.sourceOf, ofBytes_toUTF8, ofText] at read
        split at read
        · cases read
          rfl
        · cases read
      · rw [ByteSource.sourceOf, ofBytes_of_invalid _ fun text same => valid ⟨text, same⟩] at read
        cases read

theorem lexFile_succeeded (succeeded : (lexFile disk world arguments sink).result = .ok ()) :
    ∃ source tokens, arguments.loaded disk world = .ok source ∧ source.tokens = .ok tokens ∧
      (lexFile disk world arguments sink).sink.written
        = sink.written ++ TokenRow.listing (tokens.map Token.row) := by
  have outcome := outcome_lexFile disk world arguments sink
  rw [LexRun.outcome, succeeded] at outcome
  cases loaded : arguments.loaded disk world with
  | error error =>
      rw [loaded] at outcome
      cases outcome
  | ok source =>
      rw [loaded, Prod.mk.injEq] at outcome
      obtain ⟨result, written⟩ := outcome
      obtain ⟨tokens, accepted, printed⟩ := SourceText.tokens_of_printed result.symm
      exact ⟨source, tokens, rfl, accepted, by rw [written, printed]⟩

theorem readAll?_of_succeeded {room : Option Nat} {source : SourceText} {tokens : List Token}
    (succeeded : (lexFile disk world arguments (Sink.ofRoom room)).result = .ok ())
    (loaded : arguments.loaded disk world = .ok source) (accepted : source.tokens = .ok tokens) :
    TokenRow.readAll? (lexFile disk world arguments (Sink.ofRoom room)).sink.written
      = some (tokens.map Token.row) := by
  obtain ⟨read, yielded, loadedAs, acceptedAs, written⟩ := lexFile_succeeded succeeded
  cases loaded.symm.trans loadedAs
  cases accepted.symm.trans acceptedAs
  have legible : ∀ row ∈ tokens.map Token.row, row.IsLegible := by
    intro row listed
    obtain ⟨token, member, rfl⟩ := List.mem_map.mp listed
    exact SourceText.isLegible_of_tokens accepted member
  rw [written, Sink.ofRoom, String.empty_append, TokenRow.readAll?_listing legible]

theorem contents_eq_of_loaded {source : SourceText}
    (loaded : arguments.loaded disk world = .ok source) {contents : Except FileError ByteArray}
    (holds : disk.Holds world arguments.openedPath contents) : contents = .ok source.bytes := by
  have resolved := PathTable.resolve?_intern_empty arguments.path
  have same : arguments.openedPath = if Path.memory.agrees arguments.path then Path.memory
      else arguments.path := by
    rw [LexArguments.openedPath, PathTable.displayPath, resolved]
    rfl
  rw [same] at holds
  rw [loaded_eq resolved holds rfl] at loaded
  exact SourceText.bytes_of_sourceOf loaded

end Runs

/-- The output of a run that succeeds is a line for each token of the file, and no line has a line
break inside. Between the quotes stands the text of the token, except for the end token. A reader
of the output can tell the place, the kind and the text of all tokens, so two files with the same
output have the same tokens at the same places. -/
theorem lexFile_readable {σ η : Type} (disk : Disk σ η) (world : σ) (arguments : LexArguments)
    (room : Option Nat)
    (succeeded : (lexFile disk world arguments (Sink.ofRoom room)).result = .ok ()) :
    ∃ source tokens, arguments.loaded disk world = .ok source ∧ source.tokens = .ok tokens ∧
      (∀ contents, disk.Holds world arguments.openedPath contents → contents = .ok source.bytes) ∧
      (lexFile disk world arguments (Sink.ofRoom room)).sink.written
        = String.join (tokens.map fun token => token.row.entry ++ "\n") ∧
      (∀ token ∈ tokens, '\n' ∉ token.row.entry.toList ∧ '"' ∉ token.row.shown.toList ∧
        (token.kind ≠ .endOfStream → token.row.shown = token.text) ∧
        (token.kind = .endOfStream → token.row.shown = "\\0" ∧ token.text = "\x00")) ∧
      TokenRow.readAll? (lexFile disk world arguments (Sink.ofRoom room)).sink.written
        = some (tokens.map Token.row) ∧
      ∀ {τ θ : Type} (otherDisk : Disk τ θ) (otherWorld : τ) (otherArguments : LexArguments)
        (otherRoom : Option Nat) (otherSource : SourceText) (otherTokens : List Token),
        (lexFile otherDisk otherWorld otherArguments (Sink.ofRoom otherRoom)).result = .ok () →
        otherArguments.loaded otherDisk otherWorld = .ok otherSource →
        otherSource.tokens = .ok otherTokens →
        (lexFile otherDisk otherWorld otherArguments (Sink.ofRoom otherRoom)).sink.written
          = (lexFile disk world arguments (Sink.ofRoom room)).sink.written →
        otherTokens.map Token.row = tokens.map Token.row := by
  obtain ⟨source, tokens, loaded, accepted, written⟩ := lexFile_succeeded succeeded
  have read := readAll?_of_succeeded succeeded loaded accepted
  refine ⟨source, tokens, loaded, accepted, fun _ holds => contents_eq_of_loaded loaded holds, ?_,
    ?_, read, ?_⟩
  · rw [written, TokenRow.listing, List.map_map, Sink.ofRoom, String.empty_append]
    rfl
  · intro token listed
    have legible := SourceText.isLegible_of_tokens accepted listed
    refine ⟨legible.newline_notMem_entry, fun inside => (legible.of_mem_shown inside).2 rfl, ?_, ?_⟩
    · exact fun other => if_neg other
    · exact fun last => ⟨if_pos last, legible.ending last⟩
  · intro _ _ _ _ _ _ _ _ otherSucceeded otherLoaded otherAccepted same
    have other := readAll?_of_succeeded otherSucceeded otherLoaded otherAccepted
    rw [same, read] at other
    exact (Option.some.inj other).symm

theorem lexFile_readable_one_line :
    ∃ system : FileSystem, system.contentAt (Path.ofString "a") = .ok "x\n".toUTF8 ∧
      let run :=
        lexFile FileSystem.disk system ⟨Path.ofString "a", ChunkSize.ofNat 3⟩ (Sink.ofRoom none)
      run.result = .ok () ∧ TokenRow.readAll? run.sink.written
        = some [⟨1, 1, .identifier, "x"⟩, ⟨2, 1, .semicolon, ";"⟩, ⟨2, 1, .endOfStream, "\x00"⟩] := by
  let system : FileSystem :=
    ⟨#[.directory 0 [], .directory 0 [([0x61], 2)], .file "x\n".toUTF8], #[]⟩
  let arguments : LexArguments := ⟨Path.ofString "a", ChunkSize.ofNat 3⟩
  let source : SourceText := ⟨⟨1⟩, "x\n", by decide⟩
  have contents : system.contentAt (Path.ofString "a") = .ok "x\n".toUTF8 := by cbv
  have sized (content : ByteArray) (found : system.contentAt (Path.ofString "a") = .ok content) :
      content.size ≤ FileSystem.largestPosition := by
    cases contents.symm.trans found
    decide
  have holds := FileSystem.holds_contentAt system (Path.ofString "a") sized
  have interned : PathTable.empty.intern arguments.path = (⟨1⟩,
      ⟨[(Path.ofString "a", ⟨1⟩), (Path.memory, ⟨0⟩)], #[Path.memory, Path.ofString "a"]⟩) := by
    cbv
  have loaded : arguments.loaded FileSystem.disk system = .ok source :=
    (loaded_eq rfl (contents ▸ holds) interned).trans (by cbv)
  have nowhere : leftmostOffence? source.text.toList = none := by decide
  have succeeded : (lexFile FileSystem.disk system arguments (Sink.ofRoom none)).result = .ok () := by
    have outcome := outcome_lexFile FileSystem.disk system arguments (Sink.ofRoom none)
    rw [loaded] at outcome
    exact (congrArg Prod.fst outcome).trans (SourceText.printed_of_harmless nowhere "")
  obtain ⟨read, tokens, loadedAs, accepted, _, _, _, rows, _⟩ := lexFile_readable _ _ _ _ succeeded
  cases loaded.symm.trans loadedAs
  rw [SourceText.tokens_of_harmless nowhere, Except.ok.injEq] at accepted
  refine ⟨system, contents, succeeded, rows.trans ?_⟩
  rw [← accepted]
  decide

end FrontEnd
