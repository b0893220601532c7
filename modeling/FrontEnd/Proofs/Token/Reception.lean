import FrontEnd.Proofs.Token.Protocol

/-! What a receiver has been given when a delivery is over: the tokens of the stream in order, up
to the first one that it refuses. Its refusal comes before every error further on in the source. -/

namespace FrontEnd

namespace Receiver

variable {σ ε : Type} {receiver : Receiver σ ε} {state final : σ} {tokens : List Token}

/-- The receiver refuses one of these tokens, after it has taken those before it. The token that
it refuses is the last one it has been given. -/
inductive Refuses (receiver : Receiver σ ε) (state : σ) :
    List Token → List Token → σ → ε → Prop
  | mk {before middle token later refused error} : receiver.Takes state before middle →
      receiver.receive middle token = (refused, .error error) →
      receiver.Refuses state (before ++ token :: later) (before ++ [token]) refused error

theorem takes_or_refuses (receiver : Receiver σ ε) (state : σ) (tokens : List Token) :
    (∃ final, receiver.Takes state tokens final) ∨
      ∃ given refused error, receiver.Refuses state tokens given refused error := by
  induction tokens generalizing state with
  | nil => exact .inl ⟨state, .nil⟩
  | cons token rest ih =>
      rcases received : receiver.receive state token with ⟨next, answer⟩
      cases answer with
      | error error =>
          have refuses : receiver.Refuses state ([] ++ token :: rest) ([] ++ [token]) next error :=
            .mk .nil received
          exact .inr ⟨_, _, _, refuses⟩
      | ok _ =>
          rcases ih next with ⟨final, takes⟩ | ⟨given, refused, error, refuses⟩
          · exact .inl ⟨final, .cons received takes⟩
          · cases refuses with
            | mk takes last => exact .inr ⟨_, refused, error, .mk (.cons received takes) last⟩

theorem Refuses.receiveAll_append {given : List Token} {refused : σ} {error : ε}
    (refuses : receiver.Refuses state tokens given refused error)
    (rest : List (Except LexError Token)) :
    receiver.receiveAll state (tokens.map .ok ++ rest) = (refused, .error error) := by
  cases refuses with
  | mk takes last =>
      rw [List.map_append, List.append_assoc, takes.receiveAll_append, List.map_cons,
        List.cons_append, receiveAll, last]

/-! A receiver that keeps a record of what it is given behaves as it does without. -/

def recorded (receiver : Receiver σ ε) : Receiver (σ × List Token) ε where
  receive state token :=
    let (next, answer) := receiver.receive state.1 token
    ((next, state.2 ++ [token]), answer)
  ofLexError := receiver.ofLexError

def givenFrom (receiver : Receiver σ ε) (cursor : Cursor) (state : σ) : List Token :=
  (cursor.tokenize receiver.recorded (state, [])).state.2

theorem Takes.recorded (takes : receiver.Takes state tokens final) (record : List Token) :
    receiver.recorded.Takes (state, record) tokens (final, record ++ tokens) := by
  induction takes generalizing record with
  | nil =>
      rw [List.append_nil]
      exact .nil
  | @cons state next final token rest received _ ih =>
      have first : receiver.recorded.receive (state, record) token
          = ((next, record ++ [token]), .ok ()) := by
        simp [Receiver.recorded, received]
      have later := ih (record ++ [token])
      rw [List.append_assoc, List.singleton_append] at later
      exact .cons first later

theorem Refuses.recorded {given : List Token} {refused : σ} {error : ε}
    (refuses : receiver.Refuses state tokens given refused error) :
    receiver.recorded.Refuses (state, []) tokens given (refused, given) error := by
  cases refuses with
  | mk takes last =>
      refine .mk (takes.recorded []) ?_
      simp [Receiver.recorded, last]

/-! A receiver with room for so many tokens. -/

inductive Overrun where
  | tooMany
  | lex (error : LexError)
  deriving DecidableEq

def limited (limit : Nat) : Receiver (List Token) Overrun where
  receive kept token :=
    if kept.length = limit then (kept, .error .tooMany) else (kept ++ [token], .ok ())
  ofLexError := .lex

theorem takes_limited {limit : Nat} {kept : List Token}
    (room : kept.length + tokens.length ≤ limit) :
    (limited limit).Takes kept tokens (kept ++ tokens) := by
  induction tokens generalizing kept with
  | nil =>
      rw [List.append_nil]
      exact .nil
  | cons token rest ih =>
      rw [List.length_cons] at room
      have first : (limited limit).receive kept token = (kept ++ [token], .ok ()) :=
        if_neg (by omega)
      have fewer : (kept ++ [token]).length + rest.length ≤ limit := by
        rw [List.length_append, List.length_singleton]
        omega
      have later := ih fewer
      rw [List.append_assoc, List.singleton_append] at later
      exact .cons first later

theorem refuses_limited {limit : Nat} (more : limit < tokens.length) :
    (limited limit).Refuses [] tokens (tokens.take (limit + 1)) (tokens.take limit) .tooMany := by
  have length : (tokens.take limit).length = limit := by
    rw [List.length_take]
    omega
  have takes : (limited limit).Takes [] (tokens.take limit) (tokens.take limit) :=
    takes_limited (by rw [length, List.length_nil, Nat.zero_add])
  have last : (limited limit).receive (tokens.take limit) tokens[limit]
      = (tokens.take limit, .error .tooMany) :=
    if_pos length
  have split : tokens.take limit ++ tokens[limit] :: tokens.drop (limit + 1) = tokens := by
    rw [← List.drop_eq_getElem_cons more, List.take_append_drop]
  have refuses :
      (limited limit).Refuses [] (tokens.take limit ++ tokens[limit] :: tokens.drop (limit + 1))
        (tokens.take limit ++ [tokens[limit]]) (tokens.take limit) .tooMany := .mk takes last
  rwa [split, List.take_append_getElem more] at refuses

end Receiver

def allTokens (tokens : List Token) : Except LexError Token → List Token
  | .ok token => tokens ++ [token]
  | .error _ => tokens

theorem exists_ending (tokens : List Token) (last : Except LexError Token) :
    ∃ ending, tokens.map .ok ++ [last] = (allTokens tokens last).map .ok ++ ending ∧
      ∀ {σ ε : Type} (receiver : Receiver σ ε) (state : σ), receiver.receiveAll state ending
        = (state, (last.map fun _ => ()).mapError receiver.ofLexError) := by
  cases last with
  | ok token => exact ⟨[], by simp [allTokens], fun _ _ => rfl⟩
  | error error => exact ⟨[.error error], rfl, fun _ _ => rfl⟩

theorem TokenStream.Reads.eq_of_offence {source : SourceText} {tokens : List Token}
    {last : Except LexError Token} {before : List Char} {kind : LexErrorKind}
    (reads : (ofCursor source.cursor).Reads tokens last)
    (found : leftmostOffence? source.text.toList = some (before, kind)) :
    tokens = lexemeTokens source.path [] (segments before) ∧
      last = .error ⟨kind, Location.after source.path before⟩ := by
  have yielded := reads.items.symm.trans (items_of_offence (Cursor.divides_start source) found)
  obtain ⟨same, ending⟩ := List.append_inj' yielded rfl
  exact ⟨List.map_injective_iff.mpr (fun _ _ => Except.ok.inj) same, List.singleton_injective ending⟩

namespace Cursor

variable {cursor : Cursor} {tokens : List Token} {last : Except LexError Token}
variable {σ ε : Type} {receiver : Receiver σ ε} {state : σ}

theorem tokenize_of_takes {final : σ} (reads : (TokenStream.ofCursor cursor).Reads tokens last)
    (takes : receiver.Takes state (allTokens tokens last) final) :
    (cursor.tokenize receiver state).state = final ∧
      (cursor.tokenize receiver state).result
        = (last.map fun _ => ()).mapError receiver.ofLexError := by
  obtain ⟨ending, split, ended⟩ := exists_ending tokens last
  have delivered := cursor.tokenize_eq_receiveAll receiver state
  rwa [reads.items, split, takes.receiveAll_append, ended, Prod.mk.injEq] at delivered

theorem tokenize_of_refuses {given : List Token} {refused : σ} {error : ε}
    (reads : (TokenStream.ofCursor cursor).Reads tokens last)
    (refuses : receiver.Refuses state (allTokens tokens last) given refused error) :
    (cursor.tokenize receiver state).state = refused ∧
      (cursor.tokenize receiver state).result = .error error := by
  obtain ⟨ending, split, _⟩ := exists_ending tokens last
  have delivered := cursor.tokenize_eq_receiveAll receiver state
  rwa [reads.items, split, refuses.receiveAll_append, Prod.mk.injEq] at delivered

theorem tokenize_recorded (cursor : Cursor) (receiver : Receiver σ ε) (state : σ) :
    (cursor.tokenize receiver.recorded (state, [])).state.1 = (cursor.tokenize receiver state).state ∧
      (cursor.tokenize receiver.recorded (state, [])).result
        = (cursor.tokenize receiver state).result := by
  obtain ⟨tokens, last, reads⟩ :=
    TokenStream.exists_reads (TokenStream.ofCursor cursor) StreamPhase.noConfusion
  rcases receiver.takes_or_refuses state (allTokens tokens last) with
    ⟨final, takes⟩ | ⟨given, refused, error, refuses⟩
  · have plain := tokenize_of_takes reads takes
    have kept := tokenize_of_takes reads (takes.recorded [])
    exact ⟨(congrArg Prod.fst kept.1).trans plain.1.symm, kept.2.trans plain.2.symm⟩
  · have plain := tokenize_of_refuses reads refuses
    have kept := tokenize_of_refuses reads refuses.recorded
    exact ⟨(congrArg Prod.fst kept.1).trans plain.1.symm, kept.2.trans plain.2.symm⟩

theorem tokenize_limited (reads : (TokenStream.ofCursor cursor).Reads tokens last) (limit : Nat) :
    (cursor.tokenize (Receiver.limited limit) []).state = (allTokens tokens last).take limit := by
  by_cases room : (allTokens tokens last).length ≤ limit
  · have takes :
        (Receiver.limited limit).Takes [] (allTokens tokens last) ([] ++ allTokens tokens last) :=
      Receiver.takes_limited (by rwa [List.length_nil, Nat.zero_add])
    rw [(tokenize_of_takes reads takes).1, List.take_of_length_le room]
    rfl
  · exact (tokenize_of_refuses reads (Receiver.refuses_limited (by omega))).1

/-- Pushing tokens to a receiver comes to the same as pulling them and handing them over. A
receiver is given the tokens of the stream in order, each once, until it refuses one; then its
error is the result, and otherwise the result is how the stream ended. -/
theorem tokenize_receives (cursor : Cursor) :
    ∃ tokens last, (TokenStream.ofCursor cursor).Reads tokens last ∧
      (∀ index, (TokenStream.ofCursor cursor).answer index = (tokens.map .ok ++ [last])[index]?) ∧
      (∀ {σ ε : Type} (receiver : Receiver σ ε) (state : σ),
        ((∃ final, receiver.Takes state (allTokens tokens last) final) ∨
          ∃ given refused error,
            receiver.Refuses state (allTokens tokens last) given refused error) ∧
        (∀ final, receiver.Takes state (allTokens tokens last) final →
          receiver.givenFrom cursor state = allTokens tokens last ∧
            (cursor.tokenize receiver state).state = final ∧
            (cursor.tokenize receiver state).result
              = (last.map fun _ => ()).mapError receiver.ofLexError) ∧
        (∀ given refused error,
          receiver.Refuses state (allTokens tokens last) given refused error →
            receiver.givenFrom cursor state = given ∧
              (cursor.tokenize receiver state).state = refused ∧
              (cursor.tokenize receiver state).result = .error error) ∧
        (cursor.tokenize receiver.recorded (state, [])).state.1
          = (cursor.tokenize receiver state).state) ∧
      (∀ limit, (cursor.tokenize (Receiver.limited limit) []).state
        = (allTokens tokens last).take (min limit (allTokens tokens last).length)) ∧
      ∀ source : SourceText, source.cursor = cursor →
        source.tokens = last.map fun _ => allTokens tokens last := by
  obtain ⟨tokens, last, reads⟩ :=
    TokenStream.exists_reads (TokenStream.ofCursor cursor) StreamPhase.noConfusion
  refine ⟨tokens, last, reads, ?_, ?_, ?_, ?_⟩
  · intro index
    rw [TokenStream.answer_eq, reads.items]
  · intro σ ε receiver state
    refine ⟨receiver.takes_or_refuses state _, ?_, ?_, (cursor.tokenize_recorded receiver state).1⟩
    · intro final takes
      exact ⟨congrArg Prod.snd (tokenize_of_takes reads (takes.recorded [])).1,
        tokenize_of_takes reads takes⟩
    · intro given refused error refuses
      exact ⟨congrArg Prod.snd (tokenize_of_refuses reads refuses.recorded).1,
        tokenize_of_refuses reads refuses⟩
  · intro limit
    rw [tokenize_limited reads, List.take_eq_take_min]
  · rintro source rfl
    cases last with
    | ok token =>
        refine SourceText.tokens_of_items ?_
        rw [reads.items]
        simp [allTokens]
    | error error => exact (SourceText.tokens_of_items_error reads.items).1

theorem tokenize_receives_two_tokens :
    ∃ source : SourceText, source.text = "a b 0x" ∧
      (source.cursor.tokenize (Receiver.limited 1) []).state
        = [⟨.identifier, "a", ⟨source.path, 1, 1, 0⟩⟩] ∧
      (source.cursor.tokenize (Receiver.limited 1) []).result = .error .tooMany ∧
      (Receiver.limited 1).givenFrom source.cursor []
        = [⟨.identifier, "a", ⟨source.path, 1, 1, 0⟩⟩, ⟨.identifier, "b", ⟨source.path, 1, 3, 2⟩⟩] := by
  obtain ⟨tokens, last, reads, _, delivers, _⟩ :=
    tokenize_receives (⟨⟨0⟩, "a b 0x", by decide⟩ : SourceText).cursor
  have found : leftmostOffence? "a b 0x".toList = some ("a b ".toList, .invalidLiteral "0x") := by
    decide
  obtain ⟨rfl, rfl⟩ := reads.eq_of_offence found
  have more : 1 < (lexemeTokens ⟨0⟩ [] (segments "a b ".toList)).length := by decide
  obtain ⟨given, state, result⟩ :=
    (delivers (Receiver.limited 1) []).2.2.1 _ _ _ (Receiver.refuses_limited more)
  exact ⟨_, rfl, state.trans (by decide), result, given.trans (by decide)⟩

end Cursor

end FrontEnd
