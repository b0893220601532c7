import FrontEnd.Storage.FileSystem

/-! What others may do to a file system while files are open: write into a file, put another file in
its place, remove its name, make directories, pipes and links. No open file is closed or given to
another node, and only a write changes what a file contains. -/

namespace FrontEnd.FileSystem

inductive Change where
  | write (path : Path) (content : ByteArray)
  | replace (path : Path) (content : ByteArray)
  | remove (path : Path)
  | makeDirectory (path : Path)
  | create (path : Path) (node : Node)

def Change.apply : Change → FileSystem → FileSystem
  | .write path content, system => system.write path content
  | .replace path content, system => system.replace path content
  | .remove path, system => system.remove path
  | .makeDirectory path, system => system.makeDirectory path
  | .create path node, system => system.create path node

def nodeAt? (system : FileSystem) (path : Path) : Option Nat :=
  match system.find path with
  | .ok (.node id) => some id
  | _ => none

def Change.written? (system : FileSystem) (id : Nat) : Change → Option ByteArray
  | .write path content => if system.nodeAt? path = some id then some content else none
  | _ => none

/-- Every open file stays as it is, and every file keeps its content. -/
structure Spares (system other : FileSystem) : Prop where
  openFiles : other.openFiles = system.openFiles
  files : ∀ {id : Nat} {content : ByteArray}, system.nodes[id]? = some (.file content) →
    other.nodes[id]? = some (.file content)

variable {system middle other : FileSystem}

theorem Spares.refl (system : FileSystem) : Spares system system := ⟨rfl, fun present => present⟩

theorem Spares.trans (first : Spares system middle) (second : Spares middle other) :
    Spares system other :=
  ⟨second.openFiles.trans first.openFiles, fun present => second.files (first.files present)⟩

theorem spares_setEntry (system : FileSystem) (directory : Nat) (name : List UInt8)
    (child : Option Nat) : Spares system (system.setEntry directory name child) := by
  rw [setEntry]
  split
  · rename_i parent entries found
    refine ⟨rfl, fun {id content} present => ?_⟩
    have apart : directory ≠ id := by
      rintro rfl
      simp [found] at present
    exact (Array.getElem?_setIfInBounds_ne apart).trans present
  · exact .refl system

theorem spares_addNode (system : FileSystem) (directory : Nat) (name : List UInt8) (node : Node) :
    Spares system (system.addNode directory name node) := by
  have pushed : Spares system { system with nodes := system.nodes.push node } := by
    refine ⟨rfl, fun {id content} present => ?_⟩
    obtain ⟨inside, found⟩ := Array.getElem?_eq_some_iff.mp present
    rw [Array.getElem?_push_lt inside, found]
  exact pushed.trans (spares_setEntry _ directory name _)

theorem spares_ensureDirectory (system : FileSystem) (here : Nat) (parts : List (List UInt8)) :
    Spares system (system.ensureDirectory here parts).1 := by
  fun_induction ensureDirectory system here parts with
  | case1 system here => exact .refl system
  | case2 system here part rest child found ih => exact ih
  | case3 system here part rest directory name found ih => exact (spares_addNode _ _ _ _).trans ih
  | case4 system here part rest cause found => exact .refl system

theorem spares_replace (system : FileSystem) (path : Path) (content : ByteArray) :
    Spares system (system.replace path content) := by
  rw [replace]
  split
  · exact spares_addNode _ _ _ _
  · exact .refl system

theorem spares_remove (system : FileSystem) (path : Path) : Spares system (system.remove path) := by
  rw [remove]
  split
  · exact spares_setEntry _ _ _ _
  · exact .refl system

theorem spares_create (system : FileSystem) (path : Path) (node : Node) :
    Spares system (system.create path node) :=
  (spares_ensureDirectory system _ _).trans (spares_addNode _ _ _ _)

theorem write_eq_or_spares (system : FileSystem) (path : Path) (content : ByteArray) :
    (∃ id, system.nodeAt? path = some id ∧
      system.write path content = system.setNode id (.file content)) ∨
    Spares system (system.write path content) ∧
      ∀ id old, system.nodeAt? path = some id → system.nodes[id]? ≠ some (.file old) := by
  rw [write, nodeAt?]
  cases found : system.find path with
  | error cause => exact .inr ⟨.refl system, nofun⟩
  | ok place =>
      cases place with
      | missing directory name => exact .inr ⟨spares_addNode _ _ _ _, nofun⟩
      | node id =>
          dsimp only
          split
          · exact .inl ⟨id, rfl, rfl⟩
          · rename_i other
            refine .inr ⟨.refl system, ?_⟩
            rintro _ old ⟨⟩ present
            exact other old present

theorem Change.openFiles_apply (change : Change) (system : FileSystem) :
    (change.apply system).openFiles = system.openFiles := by
  cases change with
  | write path content =>
      rcases write_eq_or_spares system path content with ⟨id, _, written⟩ | ⟨spares, _⟩
      · rw [apply, written]
        rfl
      · exact spares.openFiles
  | replace path content => exact (spares_replace system path content).openFiles
  | remove path => exact (spares_remove system path).openFiles
  | makeDirectory path => exact (spares_ensureDirectory system _ _).openFiles
  | create path node => exact (spares_create system path node).openFiles

theorem Change.nodes_apply (change : Change) {id : Nat} {content : ByteArray}
    (present : system.nodes[id]? = some (.file content)) :
    (change.apply system).nodes[id]? = some (.file ((change.written? system id).getD content)) := by
  cases change with
  | write path new =>
      rw [written?]
      rcases write_eq_or_spares system path new with ⟨target, found, written⟩ | ⟨spares, unwritten⟩
      · have changed : (apply (.write path new) system).nodes
            = system.nodes.setIfInBounds target (.file new) := congrArg FileSystem.nodes written
        rw [found, changed]
        by_cases same : target = id
        · subst same
          have inside := (Array.getElem?_eq_some_iff.mp present).1
          rw [if_pos rfl, Array.getElem?_setIfInBounds_self_of_lt inside]
          rfl
        · have apart : ¬some target = some id := fun equal => same (Option.some.inj equal)
          rw [if_neg apart, Array.getElem?_setIfInBounds_ne same, present]
          rfl
      · have apart : ¬system.nodeAt? path = some id := fun found => unwritten id content found present
        rw [if_neg apart]
        exact spares.files present
  | replace path new => exact (spares_replace system path new).files present
  | remove path => exact (spares_remove system path).files present
  | makeDirectory path => exact (spares_ensureDirectory system _ _).files present
  | create path node => exact (spares_create system path node).files present

end FrontEnd.FileSystem
