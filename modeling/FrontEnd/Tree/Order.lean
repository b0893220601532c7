import FrontEnd.Tree

/-! The nodes of a tree in source order, each before the nodes below it. -/

namespace FrontEnd

inductive TreeNode where
  | unit (unit : TranslationUnit)
  | topNode (node : TopNode)
  | library (library : Library)
  | declaration (declaration : LibraryDeclaration)
  deriving DecidableEq

inductive TreeLevel where
  | unit
  | topNode
  | library
  | declaration
  deriving DecidableEq

namespace TreeNode

def level : TreeNode → TreeLevel
  | .unit _ => .unit
  | .topNode _ => .topNode
  | .library _ => .library
  | .declaration _ => .declaration

end TreeNode

/-- A library and what is below it; nothing is below a node of a closed level. -/
def Library.inOrder (closed : TreeLevel → Bool) (library : Library) : List TreeNode :=
  .library library ::
    if closed .library then [] else library.declaration.toList.map TreeNode.declaration

def TopNode.inOrder (closed : TreeLevel → Bool) (node : TopNode) : List TreeNode :=
  .topNode node ::
    if closed .topNode then [] else node.library?.toList.flatMap (Library.inOrder closed)

def TranslationUnit.inOrder (closed : TreeLevel → Bool) (unit : TranslationUnit) : List TreeNode :=
  .unit unit ::
    if closed .unit then [] else unit.items.toList.flatMap (TopNode.inOrder closed)

def TranslationUnit.declarations (unit : TranslationUnit) : List LibraryDeclaration :=
  unit.libraries.filterMap Library.declaration

end FrontEnd
