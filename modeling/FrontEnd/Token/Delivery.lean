import FrontEnd.Token.Stream

/-! Delivery of a token stream to a receiver. The receiver is any state with a step for each
token; it gets the tokens in order until it refuses one or the stream ends. -/

namespace FrontEnd

structure Receiver (σ ε : Type) where
  receive : σ → Token → σ × Except ε Unit
  ofLexError : LexError → ε

/-- Hands over items one by one, up to the first token that is refused or the first error. -/
def Receiver.receiveAll {σ ε : Type} (receiver : Receiver σ ε) (state : σ) :
    List (Except LexError Token) → σ × Except ε Unit
  | [] => (state, .ok ())
  | .error error :: _ => (state, .error (receiver.ofLexError error))
  | .ok token :: rest =>
      match receiver.receive state token with
      | (state, .ok ()) => receiver.receiveAll state rest
      | (state, .error error) => (state, .error error)

structure Delivery (σ ε : Type) where
  state : σ
  result : Except ε Unit
  events : Array Event

namespace TokenStream

def deliverFrom {σ ε : Type} (receiver : Receiver σ ε) (stream : TokenStream) (state : σ)
    (count : Nat) (events : Array Event) : Delivery σ ε :=
  match yielded : stream.next? with
  | none => ⟨state, .ok (), events.push (.finishedTokenizing count)⟩
  | some (.error error, after) =>
      ⟨state, .error (receiver.ofLexError error), events ++ stream.events (.error error) after⟩
  | some (.ok token, after) =>
      have := measure_next?_lt yielded
      let events := events ++ stream.events (.ok token) after
      match receiver.receive state token with
      | (state, .ok ()) => deliverFrom receiver after state (count + 1) events
      | (state, .error error) => ⟨state, .error error, events⟩
termination_by stream.measure

end TokenStream

def Cursor.tokenize {σ ε : Type} (cursor : Cursor) (receiver : Receiver σ ε) (state : σ) :
    Delivery σ ε :=
  (TokenStream.ofCursor cursor).deliverFrom receiver state 0 #[]

def Receiver.collector : Receiver (Array Token) LexError where
  receive tokens token := (tokens.push token, .ok ())
  ofLexError error := error

def SourceText.tokens (source : SourceText) : Except LexError (List Token) :=
  let delivery := source.cursor.tokenize Receiver.collector #[]
  delivery.result.map fun _ => delivery.state.toList

def Cursor.tokenizeSpan (cursor : Cursor) : Span := .tokenize cursor.path cursor.length

end FrontEnd
