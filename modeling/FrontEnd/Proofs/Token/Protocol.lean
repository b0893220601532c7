import FrontEnd.Proofs.Token.Delivery

/-! The calls that read a stream, from whatever cursor it begins. The answers are tokens, then
the end token or an error, then nothing; every token but a semicolon that was added has been
taken out of the source, so that the end comes after as many calls as there are characters,
and two more. -/

namespace FrontEnd

namespace Cursor

theorem reaches_scanNumber (start : Cursor) : start.Reaches start.scanNumber.2 := by
  simp only [scanNumber]
  generalize Radix.announced start.peek start.peekNext = radix
  have behind : start.Reaches (if radix = .decimal then start else start.advance.advance) := by
    split
    · exact .refl start
    · exact (Reaches.refl start).advance.advance
  generalize (if radix = .decimal then start else start.advance.advance) = digits at *
  split
  · exact (behind.eatWhile _).eatWhile _
  · exact behind.eatWhile _

theorem reaches_scanToken (start : Cursor) : start.Reaches start.scanToken.2 := by
  simp only [scanToken]
  split
  · exact start.reaches_scanNumber
  · split
    · exact (Reaches.refl start).eatWhile _
    · split
      · exact (Reaches.refl start).advance
      · exact .refl start

theorem scanNumber_kind {start stop : Cursor} {token : Token}
    (scanned : start.scanNumber = (.ok token, stop)) : token.kind = .integerLiteral := by
  simp only [scanNumber] at scanned
  generalize (if Radix.announced start.peek start.peekNext = .decimal then start
    else start.advance.advance) = digits at scanned
  split at scanned
  · cases scanned
  · cases scanned
    rfl

theorem scanToken_kind_ne_endOfStream {start stop : Cursor} {token : Token}
    (scanned : start.scanToken = (.ok token, stop)) : token.kind ≠ .endOfStream := by
  simp only [scanToken] at scanned
  split at scanned
  · rw [scanNumber_kind scanned]
    exact TokenKind.noConfusion
  · split at scanned
    · cases scanned
      exact TokenKind.noConfusion
    · split at scanned
      · rename_i found
        cases scanned
        exact (TokenKind.ofPunctuation?_eq_some found).2.2.2.2
      · cases scanned

end Cursor

namespace TokenStream

def Consumes (stream after : TokenStream) : Prop :=
  after.cursor.charactersLeft < stream.cursor.eatWhitespace.charactersLeft

/-- What a call may yield, and what it leaves. -/
inductive Yields : TokenStream → Except LexError Token → TokenStream → Prop
  | scanned {cursor stop lastKind token} : token.kind ≠ .endOfStream →
      Consumes ⟨cursor, .scanning, lastKind⟩ ⟨stop, .scanning, some token.kind⟩ →
      Yields ⟨cursor, .scanning, lastKind⟩ (.ok token) ⟨stop, .scanning, some token.kind⟩
  | failed {cursor stop lastKind error} :
      Yields ⟨cursor, .scanning, lastKind⟩ (.error error) ⟨stop, .done, lastKind⟩
  | terminated {cursor place lastKind} : place.isAtEnd = true →
      Yields ⟨cursor, .scanning, lastKind⟩ (.ok (terminator place)) ⟨place, .ending, some .semicolon⟩
  | ended {stream place} : stream.phase ≠ .done →
      Yields stream (.ok (endToken place)) ⟨place, .done, some .endOfStream⟩

theorem yields_of_next? {stream after : TokenStream} {item : Except LexError Token}
    (yielded : stream.next? = some (item, after)) : Yields stream item after := by
  obtain ⟨cursor, phase, lastKind⟩ := stream
  cases phase with
  | done => cases yielded
  | ending =>
      cases yielded
      exact .ended StreamPhase.noConfusion
  | scanning =>
      simp only [next?] at yielded
      split at yielded
      · rename_i ended
        split at yielded
        · cases yielded
          exact .terminated ended
        · cases yielded
          exact .ended StreamPhase.noConfusion
      · rename_i inside
        have walks := cursor.eatWhitespace.reaches_scanToken
        split at yielded
        · rename_i token stop scanned
          cases yielded
          rw [scanned] at walks
          exact .scanned (Cursor.scanToken_kind_ne_endOfStream scanned)
            (walks.charactersLeft_lt (Cursor.remaining_scanToken_lt (by simpa using inside) scanned))
        · cases yielded
          exact .failed

theorem next?_eq_none_iff {stream : TokenStream} : stream.next? = none ↔ stream.phase = .done := by
  obtain ⟨cursor, phase, lastKind⟩ := stream
  cases phase with
  | done => simp [next?]
  | ending => simp [next?]
  | scanning =>
      simp only [next?]
      split
      · split <;> simp
      · split <;> simp

theorem items_eq_nil_iff {stream : TokenStream} : stream.items = [] ↔ stream.phase = .done := by
  rw [← next?_eq_none_iff, items_eq]
  split <;> simp_all

def call (stream : TokenStream) : Option (Except LexError Token) × TokenStream :=
  match stream.next? with
  | none => (none, stream)
  | some (item, after) => (some item, after)

def after (stream : TokenStream) : Nat → TokenStream
  | 0 => stream
  | calls + 1 => stream.call.2.after calls

def answer (stream : TokenStream) (index : Nat) : Option (Except LexError Token) :=
  (stream.after index).call.1

theorem call_of_none {stream : TokenStream} (finished : stream.next? = none) :
    stream.call = (none, stream) := by
  rw [call, finished]

theorem call_of_some {stream next : TokenStream} {item : Except LexError Token}
    (yielded : stream.next? = some (item, next)) : stream.call = (some item, next) := by
  rw [call, yielded]

theorem after_of_isFinished {stream : TokenStream} (finished : stream.isFinished = true) (calls : Nat) :
    stream.after calls = stream := by
  have nothing : stream.next? = none := next?_eq_none_iff.mpr (by simpa [isFinished] using finished)
  induction calls with
  | zero => rfl
  | succ calls ih => rw [after, call_of_none nothing, ih]

theorem answer_eq (stream : TokenStream) (index : Nat) :
    stream.answer index = stream.items[index]? := by
  induction index generalizing stream with
  | zero =>
      rw [answer, after, items_eq]
      cases yielded : stream.next? with
      | none => rw [call_of_none yielded]; rfl
      | some pair => rw [call_of_some yielded]; rfl
  | succ index ih =>
      rw [answer, after, ← answer, ih]
      cases yielded : stream.next? with
      | none =>
          rw [call_of_none yielded, items_done (next?_eq_none_iff.mp yielded)]
          rfl
      | some pair =>
          rw [call_of_some yielded, items_eq stream, yielded]
          rfl

theorem isFinished_after_iff (stream : TokenStream) (calls : Nat) :
    (stream.after calls).isFinished = true ↔ stream.items.length ≤ calls := by
  induction calls generalizing stream with
  | zero =>
      rw [after, Nat.le_zero, List.length_eq_zero_iff, items_eq_nil_iff]
      simp [isFinished]
  | succ calls ih =>
      rw [after, ih]
      cases yielded : stream.next? with
      | none =>
          rw [call_of_none yielded, items_done (next?_eq_none_iff.mp yielded)]
          simp
      | some pair =>
          rw [call_of_some yielded, items_eq stream, yielded]
          exact Nat.succ_le_succ_iff.symm

theorem after_of_le {stream : TokenStream} {first second : Nat} (later : first ≤ second)
    (finished : (stream.after first).isFinished = true) :
    stream.after second = stream.after first := by
  induction first generalizing stream second with
  | zero => exact after_of_isFinished finished second
  | succ first ih =>
      cases second with
      | zero => omega
      | succ second => exact ih (by omega) finished

def callsLeft (stream : TokenStream) : Nat :=
  match stream.phase with
  | .scanning => stream.cursor.charactersLeft + 2
  | .ending => 1
  | .done => 0

theorem Yields.callsLeft_lt {stream after : TokenStream} {item : Except LexError Token}
    (yields : Yields stream item after) : after.callsLeft < stream.callsLeft := by
  cases yields with
  | @scanned cursor stop lastKind token _ consumes =>
      have skipped := ((Cursor.Reaches.refl cursor).eatWhile isWhitespace).charactersLeft_le
      simp only [Consumes, Cursor.eatWhitespace] at consumes
      simp only [callsLeft]
      omega
  | failed => simp [callsLeft]
  | terminated _ => simp [callsLeft]
  | ended unfinished =>
      obtain ⟨_, phase, _⟩ := stream
      cases phase with
      | done => exact absurd rfl unfinished
      | ending => simp [callsLeft]
      | scanning => simp [callsLeft]

theorem length_items_le (stream : TokenStream) : stream.items.length ≤ stream.callsLeft := by
  fun_induction items stream with
  | case1 => exact Nat.zero_le _
  | case2 stream item after yielded _ ih =>
      have fewer := (yields_of_next? yielded).callsLeft_lt
      rw [List.length_cons]
      omega

/-- How a stream is read to its end: how each of its tokens came about, and that the last item
is the end token or an error. -/
structure Reads (stream : TokenStream) (tokens : List Token) (last : Except LexError Token) : Prop where
  items : stream.items = tokens.map .ok ++ [last]
  inner : ∀ token ∈ tokens, token.kind ≠ .endOfStream
  ends : ∀ token, last = .ok token → token.kind = .endOfStream
  consumes : ∀ index < tokens.length,
    Consumes (stream.after index) (stream.after (index + 1)) ∨
      (index + 1 = tokens.length ∧ (∃ token, last = .ok token) ∧
        ∃ place : Cursor, place.isAtEnd = true ∧ tokens[index]? = some (terminator place))

theorem Reads.single {stream next : TokenStream} {last : Except LexError Token}
    (yielded : stream.next? = some (last, next)) (done : next.phase = .done)
    (ends : ∀ token, last = .ok token → token.kind = .endOfStream) : stream.Reads [] last := by
  refine ⟨?_, by simp, ends, by simp⟩
  rw [items_eq, yielded]
  simp [items_done done]

theorem Reads.cons {stream next : TokenStream} {token : Token} {tokens : List Token}
    {last : Except LexError Token} (yielded : stream.next? = some (.ok token, next))
    (kind : token.kind ≠ .endOfStream)
    (first : Consumes stream next ∨ (tokens = [] ∧ (∃ final, last = .ok final) ∧
      ∃ place : Cursor, place.isAtEnd = true ∧ token = terminator place))
    (reads : next.Reads tokens last) : stream.Reads (token :: tokens) last := by
  have moved (calls : Nat) : stream.after (calls + 1) = next.after calls := by
    rw [after, call_of_some yielded]
  refine ⟨?_, ?_, reads.ends, ?_⟩
  · rw [items_eq, yielded]
    exact congrArg _ reads.items
  · intro other listed
    rcases List.mem_cons.mp listed with rfl | later
    · exact kind
    · exact reads.inner other later
  · intro index inside
    cases index with
    | zero =>
        rcases first with consumes | ⟨rfl, final, place, ended, rfl⟩
        · exact .inl (by rwa [moved])
        · exact .inr ⟨rfl, final, place, ended, rfl⟩
    | succ index =>
        rw [moved, moved, List.length_cons, Nat.succ_inj, List.getElem?_cons_succ]
        exact reads.consumes index (Nat.lt_of_succ_lt_succ inside)

theorem exists_reads_of_ending {stream : TokenStream} (ending : stream.phase = .ending) :
    ∃ token, stream.Reads [] (.ok token) := by
  have yielded : stream.next?
      = some (.ok (endToken stream.cursor), ⟨stream.cursor, .done, some .endOfStream⟩) := by
    rw [next?, ending]
  refine ⟨_, .single yielded rfl ?_⟩
  rintro _ ⟨⟩
  rfl

theorem exists_reads (stream : TokenStream) (unfinished : stream.phase ≠ .done) :
    ∃ tokens last, stream.Reads tokens last := by
  fun_induction TokenStream.items stream with
  | case1 stream finished => exact absurd (next?_eq_none_iff.mp finished) unfinished
  | case2 stream item after yielded _ ih =>
      cases yields_of_next? yielded with
      | scanned kind consumes =>
          obtain ⟨tokens, last, reads⟩ := ih StreamPhase.noConfusion
          exact ⟨_, _, .cons yielded kind (.inl consumes) reads⟩
      | failed => exact ⟨_, _, .single yielded rfl (by simp)⟩
      | @terminated cursor place lastKind ended =>
          obtain ⟨final, reads⟩ : ∃ token, Reads ⟨place, .ending, some .semicolon⟩ [] (.ok token) :=
            exists_reads_of_ending rfl
          exact ⟨_, _, .cons yielded TokenKind.noConfusion
            (.inr ⟨rfl, ⟨final, rfl⟩, place, ended, rfl⟩) reads⟩
      | ended _ =>
          refine ⟨_, _, .single yielded rfl ?_⟩
          rintro _ ⟨⟩
          rfl

/-- From any cursor a stream yields tokens and then an end token or an error, and is finished
from then on; it gets there in as many calls as there are characters left, and two more. Only a
semicolon right before the end token may be yielded without taking it out of the source. -/
theorem ofCursor_reads (cursor : Cursor) :
    ∃ tokens last, (ofCursor cursor).Reads tokens last ∧
      (∀ index, (ofCursor cursor).answer index = (tokens.map .ok ++ [last])[index]?) ∧
      (∀ calls, ((ofCursor cursor).after calls).isFinished = true ↔ tokens.length < calls) ∧
      (∀ calls, tokens.length < calls →
        (ofCursor cursor).after calls = (ofCursor cursor).after (tokens.length + 1)) ∧
      tokens.length + 1 ≤ cursor.charactersLeft + 2 ∧
      (∀ source before ahead, cursor.Divides source before ahead →
        cursor.charactersLeft = ahead.length) ∧
      ∀ {σ ε : Type} (receiver : Receiver σ ε) (state : σ),
        ((cursor.tokenize receiver state).state, (cursor.tokenize receiver state).result)
          = receiver.receiveAll state (tokens.map .ok ++ [last]) := by
  obtain ⟨tokens, last, reads⟩ := exists_reads (ofCursor cursor) StreamPhase.noConfusion
  have length : (ofCursor cursor).items.length = tokens.length + 1 := by simp [reads.items]
  have finished (calls : Nat) :
      ((ofCursor cursor).after calls).isFinished = true ↔ tokens.length < calls := by
    rw [isFinished_after_iff, length]
    exact Nat.succ_le_iff
  refine ⟨tokens, last, reads, ?_, finished, ?_, ?_, fun _ _ _ => Cursor.Divides.charactersLeft_eq, ?_⟩
  · intro index
    rw [answer_eq, reads.items]
  · exact fun calls later => after_of_le later ((finished _).mpr (Nat.lt_succ_self _))
  · rw [← length]
    exact length_items_le _
  · intro σ ε receiver state
    rw [cursor.tokenize_eq_receiveAll, reads.items]

theorem ofCursor_reads_one_character :
    ∃ source : SourceText, source.text = "x" ∧ ∃ tokens last,
      (ofCursor source.cursor).Reads tokens last ∧ tokens.length + 1 ≤ 3 ∧
        ((ofCursor source.cursor).after 3).isFinished = true ∧
        (ofCursor source.cursor).after 4 = (ofCursor source.cursor).after (tokens.length + 1) := by
  obtain ⟨tokens, last, reads, _, finished, stays, bound, left, _⟩ :=
    ofCursor_reads (⟨⟨0⟩, "x", by decide⟩ : SourceText).cursor
  have single := left _ _ _ (Cursor.divides_start _)
  rw [single] at bound
  have within : tokens.length + 1 ≤ 3 := bound
  exact ⟨_, rfl, tokens, last, reads, within, (finished 3).mpr within, stays 4 (by omega)⟩

end TokenStream

end FrontEnd
