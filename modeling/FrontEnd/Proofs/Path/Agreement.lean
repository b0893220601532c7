import FrontEnd.Path

/-! Agreement of paths. Two spellings agree when both are absolute or neither is, both begin with a
single dot or neither does, and their other parts are the same. Of several spellings the first
stands for all that agree with it. -/

namespace FrontEnd

namespace Path

theorem agrees_iff_components {left right : Path} :
    left.agrees right = true ↔ left.components = right.components :=
  beq_iff_eq

theorem agrees_refl (path : Path) : path.agrees path = true :=
  agrees_iff_components.mpr rfl

theorem agrees_symm {left right : Path} (same : left.agrees right = true) :
    right.agrees left = true :=
  agrees_iff_components.mpr (agrees_iff_components.mp same).symm

theorem agrees_trans {left middle right : Path} (first : left.agrees middle = true)
    (second : middle.agrees right = true) : left.agrees right = true :=
  agrees_iff_components.mpr
    ((agrees_iff_components.mp first).trans (agrees_iff_components.mp second))

/-! What counts in a spelling. -/

def countsAsPart (part : List UInt8) : Bool := part != [] && part != [0x2e]

/-- The parts of a path that are neither empty nor a single dot. -/
def countedParts (path : Path) : List (List UInt8) :=
  (splitSlashes path.bytes.toList).filter countsAsPart

def beginsHere (path : Path) : Bool :=
  !path.isAbsolute && (splitSlashes path.bytes.toList).head? == some [0x2e]

def Component.ofCountedPart (part : List UInt8) : Component :=
  if part = [0x2e, 0x2e] then .parent else .name part

theorem Component.ofCountedPart_injective : Function.Injective ofCountedPart := by
  intro left right same
  rw [ofCountedPart, ofCountedPart] at same
  by_cases leftParent : left = [0x2e, 0x2e] <;> by_cases rightParent : right = [0x2e, 0x2e] <;>
    simp_all

theorem Component.ofPart?_eq (part : List UInt8) :
    ofPart? part = if countsAsPart part then some (ofCountedPart part) else none := by
  unfold ofPart?
  split <;> simp_all [countsAsPart, ofCountedPart]

def named (path : Path) : List Component :=
  (splitSlashes path.bytes.toList).filterMap Component.ofPart?

theorem named_eq (path : Path) : path.named = path.countedParts.map Component.ofCountedPart := by
  rw [named, countedParts]
  induction splitSlashes path.bytes.toList with
  | nil => rfl
  | cons part rest ih =>
      rw [List.filterMap_cons, Component.ofPart?_eq, List.filter_cons, ih]
      cases countsAsPart part <;> rfl

theorem named_eq_iff {left right : Path} :
    left.named = right.named ↔ left.countedParts = right.countedParts := by
  rw [named_eq, named_eq, List.map_inj_right Component.ofCountedPart_injective]

theorem ne_of_mem_named {path : Path} {component : Component} (listed : component ∈ path.named) :
    component ≠ .root ∧ component ≠ .here := by
  rw [named_eq] at listed
  obtain ⟨part, _, rfl⟩ := List.mem_map.mp listed
  rw [Component.ofCountedPart]
  split <;> simp

def origin (path : Path) : Option Component :=
  if path.isAbsolute then some .root else if path.beginsHere then some .here else none

theorem components_eq (path : Path) : path.components = path.origin.toList ++ path.named := by
  rw [components, origin, beginsHere, named]
  by_cases absolute : path.isAbsolute = true
  · simp [absolute]
  · by_cases here : (splitSlashes path.bytes.toList).head? = some [0x2e] <;> simp [absolute, here]

theorem origin_eq_head? (path : Path) :
    path.origin
      = path.components.head?.filter fun component => component == .root || component == .here := by
  rw [components_eq]
  cases begins : path.origin with
  | some component =>
      rw [origin] at begins
      split at begins
      · cases begins
        rfl
      · split at begins <;> cases begins
        rfl
  | none =>
      cases first : path.named with
      | nil => rfl
      | cons component rest =>
          have other : component ≠ .root ∧ component ≠ .here := ne_of_mem_named (by rw [first]; simp)
          simp [Option.filter, other]

theorem beginsHere_of_isAbsolute (path : Path) (absolute : path.isAbsolute = true) :
    path.beginsHere = false := by
  rw [beginsHere, absolute]
  rfl

theorem origin_eq_iff {left right : Path} :
    left.origin = right.origin ↔
      left.isAbsolute = right.isAbsolute ∧ left.beginsHere = right.beginsHere := by
  have leftHere := left.beginsHere_of_isAbsolute
  have rightHere := right.beginsHere_of_isAbsolute
  rw [origin, origin]
  cases leftAbsolute : left.isAbsolute <;> cases rightAbsolute : right.isAbsolute <;>
    cases leftBegins : left.beginsHere <;> cases rightBegins : right.beginsHere <;> simp_all

theorem agrees_iff {left right : Path} :
    left.agrees right = true ↔ left.isAbsolute = right.isAbsolute ∧
      left.beginsHere = right.beginsHere ∧ left.countedParts = right.countedParts := by
  rw [agrees_iff_components, ← and_assoc, ← origin_eq_iff, ← named_eq_iff]
  constructor
  · intro same
    have begins : left.origin = right.origin := by rw [origin_eq_head?, origin_eq_head?, same]
    rw [components_eq, components_eq, begins] at same
    exact ⟨begins, List.append_cancel_left same⟩
  · rintro ⟨begins, parts⟩
    rw [components_eq, components_eq, begins, parts]

/-! The first of several spellings. -/

/-- The paths that agree with none before them. -/
def firstSpellings : List Path → List Path
  | [] => []
  | path :: rest => path :: (firstSpellings rest).filter fun later => !path.agrees later

theorem pairwise_firstSpellings (paths : List Path) :
    (firstSpellings paths).Pairwise fun earlier later => earlier.agrees later = false := by
  induction paths with
  | nil => exact .nil
  | cons path rest ih =>
      refine .cons ?_ (ih.filter _)
      intro later listed
      simpa using (List.mem_filter.mp listed).2

theorem mem_of_mem_firstSpellings {paths : List Path} {path : Path}
    (listed : path ∈ firstSpellings paths) : path ∈ paths := by
  induction paths with
  | nil => cases listed
  | cons first rest ih =>
      rcases List.mem_cons.mp listed with rfl | later
      · exact List.mem_cons_self
      · exact List.mem_cons_of_mem _ (ih (List.mem_filter.mp later).1)

theorem find?_firstSpellings (paths : List Path) (path : Path) :
    (firstSpellings paths).find? (·.agrees path) = paths.find? (·.agrees path) := by
  induction paths with
  | nil => rfl
  | cons first rest ih =>
      rw [firstSpellings, List.find?_cons, List.find?_cons]
      cases same : first.agrees path with
      | true => rfl
      | false =>
          -- what agrees with `first` does not agree with `path`
          have kept (later : Path) : decide ((!first.agrees later) = true ∧ later.agrees path = true)
              = later.agrees path := by
            cases agree : later.agrees path with
            | false => simp
            | true =>
                have apart : first.agrees later = false := by
                  rw [Bool.eq_false_iff]
                  intro joined
                  rw [agrees_trans joined agree] at same
                  cases same
                simp [apart]
          simp only [List.find?_filter, kept, ih]

theorem any_firstSpellings (paths : List Path) (path : Path) :
    (firstSpellings paths).any (·.agrees path) = paths.any (·.agrees path) := by
  rw [Bool.eq_iff_iff, List.any_eq_true, List.any_eq_true, ← List.find?_isSome, ← List.find?_isSome,
    find?_firstSpellings]

theorem find?_of_mem_firstSpellings {paths : List Path} {spelling path : Path}
    (listed : spelling ∈ firstSpellings paths) (agree : spelling.agrees path = true) :
    paths.find? (·.agrees path) = some spelling := by
  obtain ⟨earlier, later, split⟩ := List.append_of_mem listed
  have apart := pairwise_firstSpellings paths
  rw [split, List.pairwise_append] at apart
  rw [← find?_firstSpellings, List.find?_eq_some_iff_append]
  refine ⟨agree, earlier, later, split, ?_⟩
  intro other before
  have different := apart.2.2 other before spelling List.mem_cons_self
  rw [Bool.not_eq_true', Bool.eq_false_iff]
  intro same
  rw [agrees_trans same (agrees_symm agree)] at different
  cases different

theorem firstSpellings_append_singleton (paths : List Path) (path : Path) :
    firstSpellings (paths ++ [path])
      = firstSpellings paths ++ if paths.any (·.agrees path) then [] else [path] := by
  induction paths with
  | nil => rfl
  | cons first rest ih =>
      rw [List.cons_append, firstSpellings, firstSpellings, ih, List.filter_append, List.any_cons,
        List.cons_append]
      cases same : first.agrees path <;> cases rest.any (·.agrees path) <;> simp [same]

end Path

end FrontEnd
