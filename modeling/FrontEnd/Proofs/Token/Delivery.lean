import FrontEnd.Proofs.Token.Reading
import FrontEnd.Token.Delivery

/-! A delivery hands the items of a stream to the receiver, one after the other. -/

namespace FrontEnd

theorem TokenStream.deliverFrom_eq_receiveAll {σ ε : Type} (receiver : Receiver σ ε)
    (stream : TokenStream) (state : σ) (count : Nat) (events : Array Event) :
    ((stream.deliverFrom receiver state count events).state,
        (stream.deliverFrom receiver state count events).result)
      = receiver.receiveAll state stream.items := by
  fun_induction deliverFrom receiver stream state count events with
  | case1 stream state count events finished =>
      rw [items_eq, finished]
      rfl
  | case2 stream state count events error after yielded =>
      rw [items_eq, yielded]
      rfl
  | case3 stream state count events token after yielded _ _ next received ih =>
      rw [items_eq, yielded, ih]
      simp [Receiver.receiveAll, received]
  | case4 stream state count events token after yielded _ _ next error received =>
      rw [items_eq, yielded]
      simp [Receiver.receiveAll, received]

theorem Cursor.tokenize_eq_receiveAll {σ ε : Type} (cursor : Cursor) (receiver : Receiver σ ε)
    (state : σ) :
    ((cursor.tokenize receiver state).state, (cursor.tokenize receiver state).result)
      = receiver.receiveAll state (TokenStream.ofCursor cursor).items :=
  TokenStream.deliverFrom_eq_receiveAll receiver _ state 0 #[]

namespace Receiver

/-- The receiver takes these tokens one after the other, and refuses none. -/
inductive Takes {σ ε : Type} (receiver : Receiver σ ε) : σ → List Token → σ → Prop
  | nil {state} : receiver.Takes state [] state
  | cons {state next final token rest} : receiver.receive state token = (next, .ok ()) →
      receiver.Takes next rest final → receiver.Takes state (token :: rest) final

theorem Takes.receiveAll_append {σ ε : Type} {receiver : Receiver σ ε} {state final : σ}
    {tokens : List Token} (takes : receiver.Takes state tokens final)
    (rest : List (Except LexError Token)) :
    receiver.receiveAll state (tokens.map .ok ++ rest) = receiver.receiveAll final rest := by
  induction takes with
  | nil => rfl
  | cons received _ ih =>
      rw [List.map_cons, List.cons_append, receiveAll, received]
      exact ih

theorem takes_collector (kept : Array Token) (tokens : List Token) :
    collector.Takes kept tokens (kept ++ tokens.toArray) := by
  induction tokens generalizing kept with
  | nil =>
      rw [Array.append_empty]
      exact .nil
  | cons token tokens ih =>
      have joined : kept.push token ++ tokens.toArray = kept ++ (token :: tokens).toArray := by simp
      rw [← joined]
      exact .cons rfl (ih _)

end Receiver

namespace SourceText

variable {source : SourceText} {tokens : List Token}

theorem tokens_of_items (yielded : (TokenStream.ofCursor source.cursor).items = tokens.map .ok) :
    source.tokens = .ok tokens := by
  have delivered := source.cursor.tokenize_eq_receiveAll Receiver.collector #[]
  rw [yielded, ← List.append_nil (tokens.map _),
    (Receiver.takes_collector _ tokens).receiveAll_append, Receiver.receiveAll, Prod.mk.injEq]
    at delivered
  simp [SourceText.tokens, delivered, Except.map]

theorem tokens_of_items_error {error : LexError}
    (yielded : (TokenStream.ofCursor source.cursor).items = tokens.map .ok ++ [.error error]) :
    source.tokens = .error error ∧
      (source.cursor.tokenize Receiver.collector #[]).state.toList = tokens := by
  have delivered := source.cursor.tokenize_eq_receiveAll Receiver.collector #[]
  rw [yielded, (Receiver.takes_collector _ tokens).receiveAll_append, Receiver.receiveAll,
    Prod.mk.injEq] at delivered
  constructor
  · simp only [SourceText.tokens, delivered, Except.map]
    rfl
  · simp [delivered]

end SourceText

end FrontEnd
