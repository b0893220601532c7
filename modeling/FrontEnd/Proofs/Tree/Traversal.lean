import FrontEnd.Tree.Order
import FrontEnd.Tree.Visitor
import Mathlib.Data.List.Basic

/-! What the methods of a visitor are called with, and in which order. A visitor is compared with
the same visitor that also keeps a list of the calls. -/

namespace FrontEnd

abbrev PlacedNode := List TreeNode × TreeNode

def Library.placed (above : List TreeNode) (library : Library) : List PlacedNode :=
  (above, .library library) ::
    library.declaration.toList.map fun declaration =>
      (.library library :: above, .declaration declaration)

def TopNode.placed (above : List TreeNode) (node : TopNode) : List PlacedNode :=
  (above, .topNode node) :: node.library?.toList.flatMap (Library.placed (.topNode node :: above))

def TranslationUnit.placed (unit : TranslationUnit) : List PlacedNode :=
  ([], .unit unit) :: unit.items.toList.flatMap (TopNode.placed [.unit unit])

def opens (closed : TreeLevel → Bool) (above : List TreeNode) : Bool :=
  above.all fun node => !closed node.level

def reached (closed : TreeLevel → Bool) (placed : List PlacedNode) : List TreeNode :=
  (placed.filter fun (above, _) => opens closed above).map Prod.snd

namespace Visitor

variable {σ : Type}

def method (act : σ → σ × Bool) (walk : σ → σ) (state : σ) : σ :=
  let (next, walksOn) := act state
  if walksOn then walk next else next

def overriding (overrides : TreeLevel → Bool) (act : TreeNode → σ → σ × Bool) : Visitor σ where
  visitUnit :=
    if overrides .unit then fun unit => method (act (.unit unit))
    else ({} : Visitor σ).visitUnit
  visitTopNode :=
    if overrides .topNode then fun node => method (act (.topNode node))
    else ({} : Visitor σ).visitTopNode
  visitLibrary :=
    if overrides .library then fun library => method (act (.library library))
    else ({} : Visitor σ).visitLibrary
  visitDeclaration :=
    if overrides .declaration then fun declaration state => (act (.declaration declaration) state).1
    else ({} : Visitor σ).visitDeclaration

def inForce (overrides : TreeLevel → Bool) (act : TreeNode → σ → σ × Bool) (node : TreeNode)
    (state : σ) : σ × Bool :=
  if overrides node.level then act node state else (state, true)

def recorded (act : TreeNode → σ → σ × Bool) (node : TreeNode) (state : σ × List TreeNode) :
    (σ × List TreeNode) × Bool :=
  let (next, walksOn) := act node state.1
  ((next, state.2 ++ [node]), walksOn)

def recording (overrides : TreeLevel → Bool) (act : TreeNode → σ → σ × Bool) :
    Visitor (σ × List TreeNode) :=
  overriding (fun _ => true) (recorded (inForce overrides act))

def calls (overrides : TreeLevel → Bool) (act : TreeNode → σ → σ × Bool) (unit : TranslationUnit)
    (state : σ) : List TreeNode :=
  ((recording overrides act).visit unit (state, [])).2

variable {overrides : TreeLevel → Bool} {act : TreeNode → σ → σ × Bool}

theorem visitUnit_overriding (unit : TranslationUnit) :
    (overriding overrides act).visitUnit unit = method (inForce overrides act (.unit unit)) := by
  funext walk state
  by_cases overridden : overrides .unit <;>
    simp [overriding, inForce, method, TreeNode.level, overridden]

theorem visitTopNode_overriding (node : TopNode) :
    (overriding overrides act).visitTopNode node
      = method (inForce overrides act (.topNode node)) := by
  funext walk state
  by_cases overridden : overrides .topNode <;>
    simp [overriding, inForce, method, TreeNode.level, overridden]

theorem visitLibrary_overriding (library : Library) :
    (overriding overrides act).visitLibrary library
      = method (inForce overrides act (.library library)) := by
  funext walk state
  by_cases overridden : overrides .library <;>
    simp [overriding, inForce, method, TreeNode.level, overridden]

theorem visitDeclaration_overriding (declaration : LibraryDeclaration) (state : σ) :
    (overriding overrides act).visitDeclaration declaration state
      = (inForce overrides act (.declaration declaration) state).1 := by
  by_cases overridden : overrides .declaration <;>
    simp [overriding, inForce, TreeNode.level, overridden]

/-- From this state the walk makes these calls: they account for all that it does with the state,
and the same walk with a list of calls adds them to the list. -/
structure Makes (act : TreeNode → σ → σ × Bool) (walk : σ → σ)
    (listed : σ × List TreeNode → σ × List TreeNode) (state : σ) (made : List TreeNode) : Prop where
  folded : walk state = made.foldl (fun state node => (act node state).1) state
  listed : ∀ earlier, listed (state, earlier) = (walk state, earlier ++ made)

def Follows (closed : TreeLevel → Bool) (act : TreeNode → σ → σ × Bool) : Prop :=
  ∀ node state, node.level ≠ .declaration → (act node state).2 = !closed node.level

/-- Calls are made in the order of the nodes, and where the actions follow closed levels, exactly
those for the nodes that are left. -/
structure Selects (act : TreeNode → σ → σ × Bool) (made : List TreeNode)
    (order : (TreeLevel → Bool) → List TreeNode) : Prop where
  ordered : made.Sublist (order fun _ => false)
  exact : ∀ closed, Follows closed act → made = order closed

theorem Selects.append {made later : List TreeNode}
    {order rest : (TreeLevel → Bool) → List TreeNode} (first : Selects act made order)
    (second : Selects act later rest) :
    Selects act (made ++ later) fun closed => order closed ++ rest closed where
  ordered := first.ordered.append second.ordered
  exact closed follows := by rw [first.exact closed follows, second.exact closed follows]

theorem Selects.cons {node : TreeNode} {state : σ} {made : List TreeNode}
    {order : (TreeLevel → Bool) → List TreeNode} (inner : node.level ≠ .declaration)
    (below : Selects act made order) :
    Selects act (node :: if (act node state).2 then made else [])
      fun closed => node :: if closed node.level then [] else order closed where
  ordered := by
    refine List.Sublist.cons_cons node ?_
    split
    · simpa using below.ordered
    · exact List.nil_sublist _
  exact closed follows := by
    rw [follows node state inner, below.exact closed follows]
    cases closed node.level <;> rfl

namespace Makes

variable {walk : σ → σ} {listed : σ × List TreeNode → σ × List TreeNode} {state : σ}
variable {made : List TreeNode}

theorem nothing (state : σ) : Makes act id id state [] where
  folded := rfl
  listed earlier := by rw [List.append_nil]; rfl

theorem method {node : TreeNode} (below : Makes act walk listed (act node state).1 made) :
    Makes act (Visitor.method (act node) walk) (Visitor.method (recorded act node) listed) state
      (node :: if (act node state).2 then made else []) := by
  cases walksOn : (act node state).2 with
  | false =>
      constructor
      · simp [Visitor.method, walksOn]
      · simp [Visitor.method, recorded, walksOn]
  | true =>
      constructor
      · simpa [Visitor.method, walksOn] using below.folded
      · simp [Visitor.method, recorded, walksOn, below.listed]

theorem foldl {α : Type} {step : α → σ → σ}
    {listedStep : α → σ × List TreeNode → σ × List TreeNode}
    {order : α → (TreeLevel → Bool) → List TreeNode}
    (each : ∀ item state, ∃ made, Makes act (step item) (listedStep item) state made ∧
      Selects act made (order item)) (items : List α) (state : σ) :
    ∃ made, Makes act (fun state => items.foldl (fun state item => step item state) state)
        (fun pair => items.foldl (fun pair item => listedStep item pair) pair) state made ∧
      Selects act made fun closed => items.flatMap fun item => order item closed := by
  induction items generalizing state with
  | nil => exact ⟨[], ⟨rfl, by simp⟩, ⟨List.Sublist.refl _, fun _ _ => rfl⟩⟩
  | cons item rest ih =>
      -- the calls for the rest depend on the state that the first item leaves behind
      obtain ⟨first, makes, selects⟩ := each item state
      obtain ⟨later, makesLater, selectsLater⟩ := ih (step item state)
      refine ⟨first ++ later, ⟨?_, ?_⟩, selects.append selectsLater⟩
      · rw [List.foldl_append, ← makes.folded]
        exact makesLater.folded
      · intro earlier
        have after := makesLater.listed (earlier ++ first)
        rw [List.append_assoc] at after
        rw [List.foldl_cons, makes.listed]
        exact after

end Makes

variable (overrides act)

theorem exists_makes_declaration (library : Library) (state : σ) :
    ∃ made, Makes (inForce overrides act) ((overriding overrides act).walkLibrary library)
        ((recording overrides act).walkLibrary library) state made ∧
      Selects (inForce overrides act) made fun _ =>
        library.declaration.toList.map TreeNode.declaration := by
  refine ⟨library.declaration.toList.map .declaration, ?_, ⟨List.Sublist.refl _, fun _ _ => rfl⟩⟩
  rcases library with ⟨_ | declaration⟩
  · exact .nothing state
  · have folded : (overriding overrides act).walkLibrary ⟨some declaration⟩ state
        = (inForce overrides act (.declaration declaration) state).1 :=
      visitDeclaration_overriding declaration state
    refine ⟨folded, fun earlier => ?_⟩
    rw [folded]
    rfl

theorem exists_makes_library (library : Library) (state : σ) :
    ∃ made, Makes (inForce overrides act)
        ((overriding overrides act).visitLibrary library
          ((overriding overrides act).walkLibrary library))
        ((recording overrides act).visitLibrary library
          ((recording overrides act).walkLibrary library)) state made ∧
      Selects (inForce overrides act) made fun closed => library.inOrder closed := by
  obtain ⟨made, makes, selects⟩ := exists_makes_declaration overrides act library
    (inForce overrides act (.library library) state).1
  rw [visitLibrary_overriding]
  exact ⟨_, makes.method, selects.cons TreeLevel.noConfusion⟩

theorem exists_makes_topNode (node : TopNode) (state : σ) :
    ∃ made, Makes (inForce overrides act)
        ((overriding overrides act).visitTopNode node ((overriding overrides act).walkTopNode node))
        ((recording overrides act).visitTopNode node ((recording overrides act).walkTopNode node))
        state made ∧
      Selects (inForce overrides act) made fun closed => node.inOrder closed := by
  rcases node with ⟨location, ⟨library⟩⟩
  obtain ⟨made, makes, selects⟩ := exists_makes_library overrides act library
    (inForce overrides act (.topNode ⟨location, .library library⟩) state).1
  have below (closed : TreeLevel → Bool) : library.inOrder closed
      = (TopNode.library? ⟨location, .library library⟩).toList.flatMap
          (Library.inOrder closed) := by
    simp [TopNode.library?]
  simp only [below] at selects
  rw [visitTopNode_overriding]
  exact ⟨_, makes.method, selects.cons TreeLevel.noConfusion⟩

theorem exists_makes_unit (unit : TranslationUnit) (state : σ) :
    ∃ made, Makes (inForce overrides act) ((overriding overrides act).visit unit)
        ((recording overrides act).visit unit) state made ∧
      Selects (inForce overrides act) made fun closed => unit.inOrder closed := by
  obtain ⟨made, makes, selects⟩ := Makes.foldl (exists_makes_topNode overrides act)
    unit.items.toList (inForce overrides act (.unit unit) state).1
  have walks : Makes (inForce overrides act) ((overriding overrides act).walkUnit unit)
      ((recording overrides act).walkUnit unit) (inForce overrides act (.unit unit) state).1 made := by
    refine ⟨?_, fun earlier => ?_⟩
    · rw [walkUnit, ← Array.foldl_toList]
      exact makes.folded
    · rw [walkUnit, walkUnit, ← Array.foldl_toList, ← Array.foldl_toList]
      exact makes.listed earlier
  have visits : (overriding overrides act).visit unit
      = method (inForce overrides act (.unit unit)) ((overriding overrides act).walkUnit unit) := by
    funext state
    rw [visit, visitUnit_overriding]
  rw [visits]
  exact ⟨_, walks.method, selects.cons TreeLevel.noConfusion⟩

end Visitor

/-! The nodes that are below no node of a closed level. -/

section Reached

variable (closed : TreeLevel → Bool)

theorem reached_cons (above : List TreeNode) (node : TreeNode) (below : List PlacedNode) :
    reached closed ((above, node) :: below)
      = if opens closed above then node :: reached closed below else reached closed below := by
  by_cases open_ : opens closed above <;> simp [reached, open_]

theorem reached_flatMap {α : Type} (placed : α → List PlacedNode) (items : List α) :
    reached closed (items.flatMap placed)
      = items.flatMap fun item => reached closed (placed item) := by
  simp [reached, List.filter_flatMap, List.map_flatMap]

variable {closed}

theorem reached_cons_of_below {above : List TreeNode} {node : TreeNode} {below : List PlacedNode}
    {order : List TreeNode}
    (reaches : reached closed below = if opens closed (node :: above) then order else []) :
    reached closed ((above, node) :: below)
      = if opens closed above then node :: (if closed node.level then [] else order) else [] := by
  have next : opens closed (node :: above) = (!closed node.level && opens closed above) := rfl
  rw [reached_cons, reaches, next]
  cases opens closed above <;> cases closed node.level <;> rfl

variable (closed)

theorem reached_library (above : List TreeNode) (library : Library) :
    reached closed (library.placed above)
      = if opens closed above then library.inOrder closed else [] := by
  refine reached_cons_of_below ?_
  cases library.declaration with
  | none => simp [reached]
  | some declaration =>
      rw [Option.toList_some, List.map_singleton, List.map_singleton, reached_cons]
      rfl

theorem reached_topNode (above : List TreeNode) (node : TopNode) :
    reached closed (node.placed above) = if opens closed above then node.inOrder closed else [] := by
  refine reached_cons_of_below ?_
  rw [reached_flatMap]
  simp only [reached_library]
  split <;> simp

theorem reached_unit (unit : TranslationUnit) :
    reached closed unit.placed = unit.inOrder closed := by
  refine (reached_cons_of_below ?_).trans (if_pos rfl)
  rw [reached_flatMap]
  simp only [reached_topNode]
  split <;> simp

end Reached

def TreeNode.declaration? : TreeNode → Option LibraryDeclaration
  | .declaration found => some found
  | _ => none

theorem TranslationUnit.inOrder_eq (unit : TranslationUnit) :
    (unit.inOrder fun _ => false) = .unit unit :: unit.items.toList.flatMap fun node =>
      match node.kind with
      | .library library =>
          .topNode node :: .library library :: library.declaration.toList.map .declaration := by
  refine congrArg _ (congrArg (fun nodes => List.flatMap nodes unit.items.toList) ?_)
  funext node
  rcases node with ⟨location, ⟨library⟩⟩
  simp [TopNode.inOrder, Library.inOrder, TopNode.library?]

theorem TranslationUnit.filterMap_declaration?_inOrder (unit : TranslationUnit) :
    (unit.inOrder fun _ => false).filterMap TreeNode.declaration? = unit.declarations := by
  have each (node : TopNode) : (node.inOrder fun _ => false).filterMap TreeNode.declaration?
      = (node.library?.bind Library.declaration).toList := by
    rcases node with ⟨location, ⟨⟨_ | declaration⟩⟩⟩ <;> rfl
  have items : ((unit.items.toList.flatMap (TopNode.inOrder fun _ => false)).filterMap
      TreeNode.declaration?) = unit.declarations := by
    rw [List.filterMap_flatMap, declarations, libraries, List.filterMap_filterMap,
      List.filterMap_eq_flatMap_toList]
    simp only [each]
  exact items

namespace Visitor

variable {σ : Type}

theorem calls_spec (overrides : TreeLevel → Bool) (act : TreeNode → σ → σ × Bool)
    (unit : TranslationUnit) (state : σ) :
    Makes (inForce overrides act) ((overriding overrides act).visit unit)
        ((recording overrides act).visit unit) state (calls overrides act unit state) ∧
      Selects (inForce overrides act) (calls overrides act unit state) fun closed =>
        unit.inOrder closed := by
  obtain ⟨made, makes, selects⟩ := exists_makes_unit overrides act unit state
  have same : calls overrides act unit state = made := by
    rw [calls, makes.listed, List.nil_append]
  rw [same]
  exact ⟨makes, selects⟩

theorem visit_declarations (see : LibraryDeclaration → σ → σ) (unit : TranslationUnit) (state : σ) :
    ({ visitDeclaration := see } : Visitor σ).visit unit state
      = unit.declarations.foldl (fun state declaration => see declaration state) state := by
  -- the same visitor as one of those that override some methods; the others only walk on
  let act (node : TreeNode) (state : σ) : σ × Bool :=
    (node.declaration?.elim state fun declaration => see declaration state, true)
  have same : ({ visitDeclaration := see } : Visitor σ)
      = overriding (fun level => level == .declaration) act := rfl
  have follows : Follows (fun _ => false) (inForce (fun level => level == .declaration) act) := by
    intro node state inner
    rw [inForce]
    split <;> rfl
  obtain ⟨makes, selects⟩ := calls_spec (fun level => level == .declaration) act unit state
  rw [same, makes.folded, selects.exact _ follows, ← unit.filterMap_declaration?_inOrder,
    List.foldl_filterMap]
  congr 1
  funext state node
  cases node <;> rfl

/-- The calls that a visitor gets account for all that it does with its state, whichever methods
it overrides. If all of them walk on, it is called once with the unit, and then for each item with
the top node, with its library and with the declaration if there is one, which are the declarations
of the libraries in their order. Where the methods of some levels do not walk on, the calls for
what is below the nodes of these levels are left out, and the others stay as they are. -/
theorem visit_calls (overrides : TreeLevel → Bool) (act : TreeNode → σ → σ × Bool)
    (unit : TranslationUnit) (state : σ) :
    ((recording overrides act).visit unit (state, []))
        = ((overriding overrides act).visit unit state, calls overrides act unit state) ∧
      (overriding overrides act).visit unit state
        = (calls overrides act unit state).foldl
            (fun state node => (inForce overrides act node state).1) state ∧
      (calls overrides act unit state).Sublist (unit.placed.map Prod.snd) ∧
      (unit.placed.map Prod.snd = .unit unit :: unit.items.toList.flatMap fun node =>
        match node.kind with
        | .library library =>
            .topNode node :: .library library :: library.declaration.toList.map .declaration) ∧
      (Follows (fun _ => false) (inForce overrides act) →
        calls overrides act unit state = unit.placed.map Prod.snd ∧
          (calls overrides act unit state).filterMap TreeNode.declaration? = unit.declarations) ∧
      (∀ closed, Follows closed (inForce overrides act) →
        calls overrides act unit state = reached closed unit.placed) ∧
      ∀ see : LibraryDeclaration → σ → σ,
        ({ visitDeclaration := see } : Visitor σ).visit unit state
          = unit.declarations.foldl (fun state declaration => see declaration state) state := by
  obtain ⟨makes, selects⟩ := calls_spec overrides act unit state
  have whole : unit.placed.map Prod.snd = unit.inOrder fun _ => false := by
    have everywhere :
        (fun placed : PlacedNode => opens (fun _ => false) placed.1) = fun _ => true := by
      funext placed
      simp [opens]
    rw [← reached_unit, reached, everywhere, List.filter_true]
  rw [whole]
  refine ⟨?_, makes.folded, selects.ordered, unit.inOrder_eq, ?_, ?_, ?_⟩
  · rw [makes.listed, List.nil_append]
  · intro follows
    have all := selects.exact _ follows
    exact ⟨all, by rw [all, unit.filterMap_declaration?_inOrder]⟩
  · intro closed follows
    rw [reached_unit]
    exact selects.exact closed follows
  · exact fun see => visit_declarations see unit state

theorem visit_calls_two_items :
    ∃ first second declaration,
      let unit : TranslationUnit := ⟨⟨0⟩, #[⟨Location.startOf ⟨0⟩, .library first⟩,
        ⟨Location.startOf ⟨0⟩, .library second⟩]⟩
      let act : TreeNode → Nat → Nat × Bool := fun node count => (count + 1, node.level != .library)
      first.declaration = some declaration ∧ Follows (fun level => level == .library) act ∧
        calls (fun _ => true) act unit 0
          = [.unit unit, .topNode ⟨Location.startOf ⟨0⟩, .library first⟩, .library first,
            .topNode ⟨Location.startOf ⟨0⟩, .library second⟩, .library second] := by
  have follows : Follows (fun level => level == .library)
      (inForce (fun _ => true) fun (node : TreeNode) (count : Nat) =>
        (count + 1, node.level != .library)) := fun _ _ _ => rfl
  refine ⟨⟨some ⟨Location.startOf ⟨0⟩, "io"⟩⟩, ⟨none⟩, _, rfl, follows, ?_⟩
  obtain ⟨_, _, _, _, _, skips, _⟩ := visit_calls (fun _ => true)
    (fun (node : TreeNode) (count : Nat) => (count + 1, node.level != .library))
    ⟨⟨0⟩, #[⟨Location.startOf ⟨0⟩, .library ⟨some ⟨Location.startOf ⟨0⟩, "io"⟩⟩⟩,
      ⟨Location.startOf ⟨0⟩, .library ⟨none⟩⟩]⟩ 0
  exact (skips _ follows).trans rfl

end Visitor

end FrontEnd
