import FrontEnd.Tree

/-! Visitors. A visitor has a method for every kind of node. A method gets the node and the
walk over the parts of the node, and decides whether and when to take it; unless it is
overridden it only walks on. -/

namespace FrontEnd

structure Visitor (σ : Type) where
  visitUnit : TranslationUnit → (σ → σ) → σ → σ := fun _ walk => walk
  visitTopNode : TopNode → (σ → σ) → σ → σ := fun _ walk => walk
  visitLibrary : Library → (σ → σ) → σ → σ := fun _ walk => walk
  visitDeclaration : LibraryDeclaration → σ → σ := fun _ state => state

namespace Visitor

variable {σ : Type}

def walkLibrary (visitor : Visitor σ) (library : Library) (state : σ) : σ :=
  match library.declaration with
  | some declaration => visitor.visitDeclaration declaration state
  | none => state

def walkTopNode (visitor : Visitor σ) (node : TopNode) (state : σ) : σ :=
  match node.kind with
  | .library library => visitor.visitLibrary library (visitor.walkLibrary library) state

def walkUnit (visitor : Visitor σ) (unit : TranslationUnit) (state : σ) : σ :=
  unit.items.foldl (fun state node => visitor.visitTopNode node (visitor.walkTopNode node) state) state

def visit (visitor : Visitor σ) (unit : TranslationUnit) (state : σ) : σ :=
  visitor.visitUnit unit (visitor.walkUnit unit) state

end Visitor

end FrontEnd
