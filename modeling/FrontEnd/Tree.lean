import FrontEnd.Location
import FrontEnd.Text.Quoted

/-! The tree of one source file: its top-level nodes in source order. The only top-level
construct is a library, whose declaration is absent until its body has been parsed. -/

namespace FrontEnd

structure LibraryDeclaration where
  location : Location
  name : String
  deriving DecidableEq

structure Library where
  declaration : Option LibraryDeclaration
  deriving DecidableEq

inductive TopNodeKind where
  | library (library : Library)
  deriving DecidableEq

structure TopNode where
  location : Location
  kind : TopNodeKind
  deriving DecidableEq

structure TranslationUnit where
  path : PathId
  items : Array TopNode
  deriving DecidableEq

namespace LibraryDeclaration

def detailed (declaration : LibraryDeclaration) : String :=
  "LibraryDeclarationNode \x7b location: " ++ declaration.location.detailed ++ ", name: "
    ++ Text.quoteString declaration.name ++ " \x7d"

end LibraryDeclaration

namespace Library

def empty : Library := ⟨none⟩

def isPopulated (library : Library) : Bool := library.declaration.isSome

def set (library : Library) (declaration : LibraryDeclaration) : Option LibraryDeclaration × Library :=
  (library.declaration, ⟨some declaration⟩)

def take (library : Library) : Option LibraryDeclaration × Library := (library.declaration, empty)

def detailed (library : Library) : String :=
  let declaration :=
    match library.declaration with
    | some declaration => "Some(" ++ declaration.detailed ++ ")"
    | none => "None"
  "LibraryNode \x7b declaration: " ++ declaration ++ " \x7d"

end Library

namespace TopNode

def library (location : Location) : TopNode := ⟨location, .library Library.empty⟩

def library? (node : TopNode) : Option Library :=
  match node.kind with
  | .library library => some library

def modifyLibrary {α : Type} (node : TopNode) (change : Library → α × Library) : α × TopNode :=
  match node.kind with
  | .library library =>
      let (result, changed) := change library
      (result, { node with kind := .library changed })

def detailed (node : TopNode) : String :=
  let kind :=
    match node.kind with
    | .library library => "Library(" ++ library.detailed ++ ")"
  "TopNode \x7b location: " ++ node.location.detailed ++ ", kind: " ++ kind ++ " \x7d"

end TopNode

namespace TranslationUnit

def empty (path : PathId) : TranslationUnit := ⟨path, #[]⟩

def push (unit : TranslationUnit) (node : TopNode) : TranslationUnit :=
  { unit with items := unit.items.push node }

def size (unit : TranslationUnit) : Nat := unit.items.size

def isEmpty (unit : TranslationUnit) : Bool := unit.items.isEmpty

def libraries (unit : TranslationUnit) : List Library := unit.items.toList.filterMap TopNode.library?

def detailed (unit : TranslationUnit) : String :=
  "TranslationUnit \x7b path: " ++ unit.path.detailed ++ ", items: ["
    ++ ", ".intercalate (unit.items.toList.map TopNode.detailed) ++ "] \x7d"

end TranslationUnit

end FrontEnd
