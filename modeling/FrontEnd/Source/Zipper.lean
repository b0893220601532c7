import FrontEnd.Source.Cursor
import Mathlib.Algebra.GroupWithZero.Nat

/-! A source as its characters: those already passed, the nearest first, and those from the
current one on. Every operation of a cursor has a plain counterpart here. -/

namespace FrontEnd

structure Zipper where
  behind : List Char
  ahead : List Char
  deriving DecidableEq

namespace Zipper

def ofText (text : String) : Zipper := ⟨[], text.toList⟩

def isAtEnd (zipper : Zipper) : Bool := zipper.ahead.isEmpty

def peek (zipper : Zipper) : Char := zipper.ahead.headD Cursor.sentinel

def peekNext (zipper : Zipper) : Char := zipper.ahead.tail.headD Cursor.sentinel

def advance (zipper : Zipper) : Zipper :=
  match zipper.ahead with
  | [] => zipper
  | character :: rest => ⟨character :: zipper.behind, rest⟩

def eatWhile (accepts : Char → Bool) (zipper : Zipper) : Zipper :=
  ⟨(zipper.ahead.takeWhile accepts).reverse ++ zipper.behind, zipper.ahead.dropWhile accepts⟩

theorem eatWhile_eq_self {accepts : Char → Bool} {zipper : Zipper}
    (none : zipper.ahead.takeWhile accepts = []) : zipper.eatWhile accepts = zipper := by
  have whole := List.takeWhile_append_dropWhile (p := accepts) (l := zipper.ahead)
  rw [none, List.nil_append] at whole
  simp [eatWhile, none, whole]

def offset (zipper : Zipper) : Nat := (zipper.behind.map Char.utf8Size).sum

def line (zipper : Zipper) : Nat := zipper.behind.count '\n' + 1

def column (zipper : Zipper) : Nat := (zipper.behind.takeWhile (· ≠ '\n')).length + 1

end Zipper

end FrontEnd
