import FrontEnd.Proofs.Source.Counting
import Mathlib.Data.List.Forall2

/-! Sessions with a cursor: requests in any order, among them to keep a clone and to go back to
one. A cursor over bytes answers every session as a zipper over characters does, and wherever a
session leaves it, what it shows and counts is told by the characters before it and ahead. -/

namespace FrontEnd

/-- What may be asked of something that walks over a text. Clones are numbered in the order in
which they were made, and stay when the session goes back to one. -/
inductive Request where
  | peek
  | peekNext
  | isAtEnd
  | offset
  | position
  | advance
  | eatWhile (accepts : Char → Bool)
  | eatWhitespace
  | clone
  | goBack (index : Nat)

inductive Answer where
  | nothing
  | character (value : Char)
  | truth (value : Bool)
  | number (value : Nat)
  | location (value : Location)
  deriving DecidableEq

structure Walker (κ : Type) where
  peek : κ → Char
  peekNext : κ → Char
  isAtEnd : κ → Bool
  offset : κ → Nat
  position : κ → Location
  advance : κ → κ
  eatWhile : (Char → Bool) → κ → κ
  eatWhitespace : κ → κ

def Cursor.walker : Walker Cursor where
  peek := peek
  peekNext := peekNext
  isAtEnd := isAtEnd
  offset := offset
  position := position
  advance := advance
  eatWhile := eatWhile
  eatWhitespace := eatWhitespace

namespace Zipper

/-- The location of the current character, in 32 bits as a cursor gives it. -/
def position (path : PathId) (zipper : Zipper) : Location :=
  ⟨path, zipper.line.toUInt32, zipper.column.toUInt32, zipper.offset.toUInt32⟩

def walker (path : PathId) : Walker Zipper where
  peek := peek
  peekNext := peekNext
  isAtEnd := isAtEnd
  offset := offset
  position := position path
  advance := advance
  eatWhile := eatWhile
  eatWhitespace := eatWhile isWhitespace

end Zipper

structure Session (κ : Type) where
  current : κ
  clones : List κ

namespace Walker

variable {κ : Type}

def respond (walker : Walker κ) (session : Session κ) : Request → Answer × Session κ
  | .peek => (.character (walker.peek session.current), session)
  | .peekNext => (.character (walker.peekNext session.current), session)
  | .isAtEnd => (.truth (walker.isAtEnd session.current), session)
  | .offset => (.number (walker.offset session.current), session)
  | .position => (.location (walker.position session.current), session)
  | .advance =>
      let moved := walker.advance session.current
      (.character (walker.peek moved), { session with current := moved })
  | .eatWhile accepts =>
      (.nothing, { session with current := walker.eatWhile accepts session.current })
  | .eatWhitespace =>
      (.nothing, { session with current := walker.eatWhitespace session.current })
  | .clone => (.nothing, { session with clones := session.clones ++ [session.current] })
  | .goBack index =>
      match session.clones[index]? with
      | some kept => (.truth true, { session with current := kept })
      | none => (.truth false, session)

def run (walker : Walker κ) (session : Session κ) : List Request → List Answer × Session κ
  | [] => ([], session)
  | request :: rest =>
      let (answer, next) := walker.respond session request
      let (answers, last) := walker.run next rest
      (answer :: answers, last)

end Walker

theorem Cursor.Shows.position_eq {cursor : Cursor} {source : SourceText} {zipper : Zipper}
    (shown : cursor.Shows source zipper) : cursor.position = zipper.position source.path := by
  rw [Cursor.position, Zipper.position, shown.path, shown.line, shown.column, shown.offset]

namespace Session

structure Shows (bytes : Session Cursor) (source : SourceText) (characters : Session Zipper) :
    Prop where
  current : bytes.current.Shows source characters.current
  clones : List.Forall₂ (fun cursor zipper => cursor.Shows source zipper) bytes.clones
    characters.clones

namespace Shows

variable {bytes : Session Cursor} {source : SourceText} {characters : Session Zipper}

theorem goBack (shown : bytes.Shows source characters) (index : Nat) :
    (bytes.clones[index]? = none ∧ characters.clones[index]? = none) ∨
      ∃ cursor zipper, bytes.clones[index]? = some cursor ∧
        characters.clones[index]? = some zipper ∧ cursor.Shows source zipper := by
  have length := shown.clones.length_eq
  by_cases inside : index < bytes.clones.length
  · have within : index < characters.clones.length := by omega
    exact .inr ⟨_, _, List.getElem?_eq_getElem inside, List.getElem?_eq_getElem within,
      shown.clones.get inside within⟩
  · exact .inl ⟨List.getElem?_eq_none (by omega), List.getElem?_eq_none (by omega)⟩

theorem respond (shown : bytes.Shows source characters) (request : Request) :
    (Cursor.walker.respond bytes request).1
        = ((Zipper.walker source.path).respond characters request).1 ∧
      (Cursor.walker.respond bytes request).2.Shows source
        ((Zipper.walker source.path).respond characters request).2 := by
  cases request with
  | peek => exact ⟨congrArg Answer.character shown.current.peek_eq, shown⟩
  | peekNext => exact ⟨congrArg Answer.character shown.current.peekNext_eq, shown⟩
  | isAtEnd => exact ⟨congrArg Answer.truth shown.current.isAtEnd_eq, shown⟩
  | offset => exact ⟨congrArg Answer.number shown.current.offset, shown⟩
  | position => exact ⟨congrArg Answer.location shown.current.position_eq, shown⟩
  | advance =>
      have moved := shown.current.advance
      exact ⟨congrArg Answer.character moved.peek_eq, moved, shown.clones⟩
  | eatWhile accepts => exact ⟨rfl, shown.current.eatWhile accepts, shown.clones⟩
  | eatWhitespace => exact ⟨rfl, shown.current.eatWhile isWhitespace, shown.clones⟩
  | clone =>
      exact ⟨rfl, shown.current, List.rel_append shown.clones (.cons shown.current .nil)⟩
  | goBack index =>
      rcases shown.goBack index with ⟨nowhere, missing⟩ | ⟨cursor, zipper, kept, counterpart, same⟩
      · simp only [Walker.respond, nowhere, missing]
        exact ⟨trivial, shown⟩
      · simp only [Walker.respond, kept, counterpart]
        exact ⟨trivial, same, shown.clones⟩

theorem run (shown : bytes.Shows source characters) (requests : List Request) :
    (Cursor.walker.run bytes requests).1
        = ((Zipper.walker source.path).run characters requests).1 ∧
      (Cursor.walker.run bytes requests).2.Shows source
        ((Zipper.walker source.path).run characters requests).2 := by
  induction requests generalizing bytes characters with
  | nil => exact ⟨rfl, shown⟩
  | cons request rest ih =>
      obtain ⟨answer, next⟩ := shown.respond request
      obtain ⟨answers, last⟩ := ih next
      exact ⟨congrArg₂ List.cons answer answers, last⟩

end Shows

end Session

namespace Cursor

/-- What a cursor shows, counts and moves over between the characters `consumed` and `remaining`
of a source. The line and the column of its position are the numbers of these characters, but for
the end of a source that has as many newlines, or as long a line, as it may have bytes. -/
structure Tells (cursor : Cursor) (source : SourceText) (consumed remaining : List Char) : Prop where
  peek : cursor.peek = remaining.headD '\x00'
  peekNext : cursor.peekNext = remaining.tail.headD '\x00'
  isAtEnd : cursor.isAtEnd = true ↔ remaining = []
  offset : cursor.offset = (consumed.map Char.utf8Size).sum
  offset_le : cursor.offset ≤ source.length
  boundary : Utf8.isBoundary source.bytes cursor.offset = true
  position : cursor.position = Location.after source.path consumed
  position_offset : cursor.position.offset.toNat = cursor.offset
  position_line : cursor.position.line.toNat = consumed.count '\n' + 1
    ↔ ¬(remaining = [] ∧ source.IsFullOfNewlines)
  position_column :
    cursor.position.column.toNat = (consumed.reverse.takeWhile (· ≠ '\n')).length + 1
      ↔ ¬(remaining = [] ∧ source.IsFullLine)
  advance : cursor.advance.Divides source (consumed ++ remaining.take 1) (remaining.drop 1)
  advance_at_end : remaining = [] → cursor.advance = cursor
  eatWhile : ∀ accepts : Char → Bool, ∃ passed rest, remaining = passed ++ rest ∧
    (∀ character ∈ passed, accepts character = true) ∧
    (∀ character ∈ rest.head?, accepts character = false) ∧
    (cursor.eatWhile accepts).Divides source (consumed ++ passed) rest

namespace Divides

variable {cursor : Cursor} {source : SourceText} {consumed remaining : List Char}

theorem boundary (divides : cursor.Divides source consumed remaining) :
    Utf8.isBoundary source.bytes cursor.offset = true := by
  rw [source.bytes_eq, ← divides.whole, divides.offset_eq]
  exact Utf8.isBoundary_utf8Encode consumed remaining

theorem eatWhile_longest (divides : cursor.Divides source consumed remaining)
    (accepts : Char → Bool) :
    ∃ passed rest, remaining = passed ++ rest ∧
      (∀ character ∈ passed, accepts character = true) ∧
      (∀ character ∈ rest.head?, accepts character = false) ∧
      (cursor.eatWhile accepts).Divides source (consumed ++ passed) rest := by
  refine ⟨_, _, List.takeWhile_append_dropWhile.symm, ?_, ?_, divides.eatWhile accepts⟩
  · exact fun character listed => List.mem_takeWhile_imp listed
  · intro character first
    have stopped := List.head?_dropWhile_not accepts remaining
    rw [Option.mem_def.mp first] at stopped
    simpa using stopped

theorem tells (divides : cursor.Divides source consumed remaining) :
    cursor.Tells source consumed remaining where
  peek := divides.peek_eq
  peekNext := divides.peekNext_eq
  isAtEnd := by rw [divides.isAtEnd_eq, List.isEmpty_iff]
  offset := divides.offset_eq_sum
  offset_le := divides.offset_le
  boundary := divides.boundary
  position := divides.position_eq
  position_offset := divides.position_offset
  position_line := divides.line_position_iff
  position_column := divides.column_position_iff
  advance := divides.advance_take
  advance_at_end := by
    rintro rfl
    have ended : cursor.isAtEnd = true := divides.isAtEnd_eq
    rw [Cursor.advance, if_pos ended]
  eatWhile := divides.eatWhile_longest

end Divides

end Cursor

/-- Whatever is asked of a cursor and in whatever order, with clones kept and gone back to, it
answers as a zipper over the characters of its source, and stands where the zipper stands. The
numbers of a position are exact, but for the line or the column at the end of a full source. -/
theorem Session.run_mirrors_zipper (source : SourceText) (requests : List Request) :
    ∃ consumed remaining,
      (Cursor.walker.run ⟨source.cursor, []⟩ requests).1
        = ((Zipper.walker source.path).run ⟨Zipper.ofText source.text, []⟩ requests).1 ∧
      ((Zipper.walker source.path).run ⟨Zipper.ofText source.text, []⟩ requests).2.current
        = ⟨consumed.reverse, remaining⟩ ∧
      consumed ++ remaining = source.text.toList ∧
      (Cursor.walker.run ⟨source.cursor, []⟩ requests).2.current.Tells source consumed remaining := by
  have start : Session.Shows ⟨source.cursor, []⟩ source ⟨Zipper.ofText source.text, []⟩ :=
    ⟨Cursor.shows_ofText source, .nil⟩
  obtain ⟨answers, last⟩ := start.run requests
  generalize ((Zipper.walker source.path).run ⟨Zipper.ofText source.text, []⟩ requests).2 = ended
    at last
  obtain ⟨⟨behind, ahead⟩, clones⟩ := ended
  have divides : (Cursor.walker.run ⟨source.cursor, []⟩ requests).2.current.Divides source
      behind.reverse ahead := by
    rw [Cursor.Divides, List.reverse_reverse]
    exact last.current
  exact ⟨behind.reverse, ahead, answers, by rw [List.reverse_reverse], divides.whole, divides.tells⟩

theorem Session.run_over_null :
    let source : SourceText := ⟨⟨0⟩, "\x00 \t\r\nλb", by decide⟩
    let requests : List Request := [.peek, .peekNext, .isAtEnd, .clone, .advance, .eatWhitespace,
      .peek, .peekNext, .offset, .position, .eatWhile fun _ => true, .isAtEnd, .peek, .peekNext,
      .position, .goBack 0, .position]
    (Cursor.walker.run ⟨source.cursor, []⟩ requests).1
      = [.character '\x00', .character ' ', .truth false, .nothing, .character ' ', .nothing,
        .character 'λ', .character 'b', .number 5, .location ⟨⟨0⟩, 2, 1, 5⟩, .nothing, .truth true,
        .character '\x00', .character '\x00', .location ⟨⟨0⟩, 2, 3, 8⟩, .truth true,
        .location ⟨⟨0⟩, 1, 1, 0⟩] := by
  intro source requests
  obtain ⟨_, _, answers, _⟩ := run_mirrors_zipper source requests
  exact answers.trans (by decide)

theorem Session.run_past_full_line :
    let source := SourceText.blanks ⟨0⟩ sourceLimit le_rfl
    (Cursor.walker.run ⟨source.cursor, []⟩ [.eatWhitespace, .position]).1
        = [.nothing, .location ⟨⟨0⟩, 1, 0, 4294967295⟩] ∧
      (source.text.toList.reverse.takeWhile (· ≠ '\n')).length + 1 = 4294967296 := by
  intro source
  have full : source.IsFullLine := SourceText.isFullLine_blanks ⟨0⟩
  have blank : ∀ character ∈ source.text.toList, isWhitespace character = true := by
    intro character listed
    rw [SourceText.toList_blanks] at listed
    rw [List.eq_of_mem_replicate listed]
    rfl
  have ends : (source.cursor.eatWhile isWhitespace).Divides source source.text.toList [] := by
    have eaten := (Cursor.divides_start source).eatWhile isWhitespace
    rwa [List.takeWhile_eq_self_iff.mpr blank, List.dropWhile_eq_nil_iff.mpr blank,
      List.nil_append] at eaten
  obtain ⟨-, column, position⟩ := ends.position_of_isFullLine full
  rw [ends.column_eq] at column
  have answers : (Cursor.walker.run ⟨source.cursor, []⟩ [.eatWhitespace, .position]).1
      = [.nothing, .location (source.cursor.eatWhile isWhitespace).position] := rfl
  exact ⟨by rw [answers, position]; rfl, column⟩

end FrontEnd
