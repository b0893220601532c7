import FrontEnd.Proofs.Storage.Agreement
import FrontEnd.Proofs.Storage.Changes
import FrontEnd.Proofs.Storage.History

/-! What an open reader is bound to. The file that its path leads to when it is opened stays the file
that it reads until it is closed, whatever becomes of the name. -/

namespace FrontEnd

namespace FileSystem

def nodeOf? (system : FileSystem) (handle : Nat) : Option Nat :=
  (system.openFiles[handle]?.join).map OpenFile.node

inductive Binds (system : FileSystem) : Option Nat → Option Nat → Prop
  | closed : Binds system none none
  | opened {handle id} : system.nodeOf? handle = some id → Binds system (some handle) (some id)

/-- The node that serves a reader: the one it is bound to, or else the one its path leads to. -/
def nodeFor? (system : FileSystem) (path : Path) : Option Nat → Option Nat
  | some id => some id
  | none => system.nodeAt? path

variable {system after changed : FileSystem} {path : Path} {handle : Nat}

theorem nodeAt?_congr (same : after.nodes = system.nodes) (path : Path) :
    after.nodeAt? path = system.nodeAt? path := by
  rw [nodeAt?, nodeAt?, find_congr same]

theorem nodeOf?_congr (same : after.openFiles = system.openFiles) (handle : Nat) :
    after.nodeOf? handle = system.nodeOf? handle := by
  rw [nodeOf?, nodeOf?, same]

theorem nodeOf?_moveTo {file : OpenFile} (standing : system.openFiles[handle]? = some (some file))
    (position other : Nat) :
    (system.moveTo handle file position).nodeOf? other = system.nodeOf? other := by
  have inside := (Array.getElem?_eq_some_iff.mp standing).1
  rw [nodeOf?, nodeOf?]
  by_cases same : handle = other
  · subst same
    rw [moveTo, Array.getElem?_setIfInBounds_self_of_lt inside, standing]
    rfl
  · rw [moveTo, Array.getElem?_setIfInBounds_ne same]

theorem isOpen_of_opened? {file : OpenFile} {node : Node}
    (standing : system.opened? handle = some (file, node)) :
    system.openFiles[handle]? = some (some file) := by
  rw [opened?] at standing
  split at standing
  · rename_i held found
    obtain ⟨_, _, same⟩ := Option.map_eq_some_iff.mp standing
    cases same
    exact found
  · cases standing

theorem openFile_binds {answer : Except OsError Nat}
    (opening : system.openFile path = (answer, after)) :
    after.nodes = system.nodes ∧ ∀ handle, answer = .ok handle →
      ∃ id, system.nodeAt? path = some id ∧ after.nodeOf? handle = some id := by
  rw [openFile] at opening
  split at opening
  · split at opening
    · cases opening
      refine ⟨rfl, ?_⟩
      rintro _ ⟨⟩
    · rename_i id found _ _
      cases opening
      have led : system.nodeAt? path = some id := by
        rw [nodeAt?, found]
      refine ⟨rfl, ?_⟩
      rintro _ ⟨⟩
      exact ⟨id, led, by rw [nodeOf?, Array.getElem?_push_size]; rfl⟩
  all_goals
    cases opening
    refine ⟨rfl, ?_⟩
    rintro _ ⟨⟩

structure Leaves (system after : FileSystem) : Prop where
  nodes : after.nodes = system.nodes
  nodeOf? : ∀ handle, after.nodeOf? handle = system.nodeOf? handle

theorem Leaves.refl (system : FileSystem) : Leaves system system := ⟨rfl, fun _ => rfl⟩

theorem leaves_moveTo {file : OpenFile} {node : Node}
    (standing : system.opened? handle = some (file, node)) (position : Nat) :
    Leaves system (system.moveTo handle file position) :=
  ⟨rfl, nodeOf?_moveTo (isOpen_of_opened? standing) position⟩

theorem leaves_seek {target : SeekTarget} {answer : Except OsError Unit}
    (sought : system.seek handle target = (answer, after)) : Leaves system after := by
  unfold seek at sought
  split at sought
  · cases sought
    exact .refl system
  · cases sought
    exact .refl system
  · rename_i standing
    split at sought
    · cases sought
      exact .refl system
    · cases sought
      exact leaves_moveTo standing _
  · rename_i standing
    cases sought
    exact leaves_moveTo standing _
  · rename_i standing
    cases sought
    exact leaves_moveTo standing _

theorem leaves_read {room : Nat} {answer : Except OsError ByteArray}
    (found : system.read handle room = (answer, after)) : Leaves system after := by
  unfold read at found
  split at found
  · rename_i standing
    cases found
    exact leaves_moveTo standing _
  all_goals
    cases found
    exact .refl system

theorem binds_of_makes {source : Option Nat} {held last : Option Nat} {calls : List (SystemCall Nat)}
    (makes : disk.Makes system calls changed) (follows : Follows path held calls last)
    (bound : ∀ handle, held = some handle → ∃ id, source = some id ∧ system.nodeOf? handle = some id)
    (opens : calls.countP SystemCall.isOpening = 0 ∨ source = system.nodeAt? path) :
    changed.nodes = system.nodes ∧
      ∀ handle, last = some handle → ∃ id, source = some id ∧ changed.nodeOf? handle = some id := by
  induction makes generalizing held with
  | nil =>
      cases follows
      exact ⟨rfl, bound⟩
  | @cons world next after call calls gives makes ih =>
      have later (same : next.nodes = world.nodes) :
          calls.countP SystemCall.isOpening = 0 ∨ source = next.nodeAt? path := by
        rw [nodeAt?_congr same]
        refine opens.imp_left fun none => ?_
        rw [List.countP_cons] at none
        omega
      -- a call that leaves all handles as they are hands the claim on to the calls behind it
      have carried (leaves : Leaves world next) (rest : Follows path held calls last) :
          after.nodes = world.nodes ∧ ∀ handle, last = some handle →
            ∃ id, source = some id ∧ after.nodeOf? handle = some id := by
        obtain ⟨unchanged, final⟩ := ih rest
          (fun other same => leaves.nodeOf? other ▸ bound other same) (later leaves.nodes)
        exact ⟨unchanged.trans leaves.nodes, final⟩
      cases follows with
      | cons moves rest =>
          cases moves with
          | opened =>
              obtain ⟨same, binds⟩ := openFile_binds gives
              have led : source = world.nodeAt? path :=
                opens.resolve_left (by simp [SystemCall.isOpening])
              obtain ⟨unchanged, final⟩ := ih rest (by
                rintro _ ⟨⟩
                rw [led]
                exact binds _ rfl) (later same)
              exact ⟨unchanged.trans same, final⟩
          | refused =>
              obtain ⟨same, _⟩ := openFile_binds gives
              obtain ⟨unchanged, final⟩ := ih rest nofun (later same)
              exact ⟨unchanged.trans same, final⟩
          | sought => exact carried (leaves_seek gives) rest
          | read => exact carried (leaves_read gives) rest
          | closed =>
              cases gives
              obtain ⟨unchanged, final⟩ := ih rest nofun (later rfl)
              exact ⟨unchanged, final⟩

theorem nodeOf?_eq_some {node : Nat} (standing : system.nodeOf? handle = some node) :
    ∃ position, system.openFiles[handle]? = some (some ⟨node, position⟩) := by
  rw [nodeOf?] at standing
  obtain ⟨⟨_, position⟩, found, rfl⟩ := Option.map_eq_some_iff.mp standing
  exact ⟨position, Option.join_eq_some_iff.mp found⟩

variable {reader : FileReader Nat} {bound held : Option Nat} {node : Nat} {content : ByteArray}

theorem Binds.nodeFor? (binds : system.Binds held bound) (path : Path) :
    (∀ handle, held = some handle →
      ∃ id, system.nodeFor? path bound = some id ∧ system.nodeOf? handle = some id) ∧
    (held = none → system.nodeFor? path bound = system.nodeAt? path) := by
  cases binds with
  | closed => exact ⟨nofun, fun _ => rfl⟩
  | opened standing => exact ⟨by rintro _ ⟨⟩; exact ⟨_, rfl, standing⟩, nofun⟩

theorem Binds.kept (binds : system.Binds held bound) (path : Path) :
    (if held.isSome then system.nodeFor? path bound else none) = bound := by
  cases binds <;> rfl

theorem Binds.apply (binds : system.Binds held bound) (edit : Change) :
    (edit.apply system).Binds held bound := by
  cases binds with
  | closed => exact .closed
  | opened standing => exact .opened ((nodeOf?_congr (edit.openFiles_apply system) _).trans standing)

theorem reaches_of_binds (binds : system.Binds reader.handle bound)
    (serves : system.nodeFor? reader.path bound = some node)
    (present : system.nodes[node]? = some (.file content)) :
    ∃ handle, reader.Reaches disk system handle fun now here =>
      now.nodes = system.nodes ∧ StandsAt handle node (.file content) now here := by
  obtain ⟨paths, id, held⟩ := reader
  cases binds with
  | closed =>
      rw [nodeFor?, nodeAt?] at serves
      split at serves
      · rename_i led found
        cases serves
        exact ⟨system.openFiles.size, system.withOpen node, 0, _, ⟨rfl, .start present⟩,
          FileReader.acquire_of_openFile rfl (openFile_of_file found present)⟩
      · cases serves
  | @opened handle led standing =>
      cases serves
      obtain ⟨position, isOpen⟩ := nodeOf?_eq_some standing
      exact ⟨handle, system, position, #[], ⟨rfl, isOpen, present⟩, rfl⟩

end FileSystem

namespace Record

open FileSystem (Change)

variable {system : FileSystem} {reader : FileReader Nat} {bound : Option Nat}

def binding (path : Path) (bound : Option Nat) (record : Record FileSystem Nat Change) : Option Nat :=
  if record.after.handle?.isSome then record.world.nodeFor? path bound else none

/-- What a step has to do with the node that its reader is bound to: the node serves it, with what it
contains at that time, and only a change by others touches what any node contains. -/
structure Attached (id : PathId) (path : Path) (bound : Option Nat)
    (record : Record FileSystem Nat Change) : Prop where
  before : record.world.Binds record.before.handle? bound
  after : record.changed.Binds record.after.handle? (record.binding path bound)
  replies : ∀ {call node content}, record.step = .call call →
    record.world.nodeFor? path bound = some node →
    record.world.nodes[node]? = some (.file content) → content.size ≤ FileSystem.largestPosition →
    record.reply = .replied (call.answer content)
  loads : ∀ {chunkSize node content}, record.step = .load chunkSize →
    record.world.nodeFor? path bound = some node →
    record.world.nodes[node]? = some (.file content) → content.size ≤ FileSystem.largestPosition →
    record.reply = .loaded (ByteSource.sourceOf id path (.ok content))
  spared : (∀ edit, record.step ≠ .change edit) → record.changed.nodes = record.world.nodes
  edited : ∀ {edit : Change} {node : Nat} {content : ByteArray}, record.step = .change edit →
    record.world.nodes[node]? = some (.file content) →
    record.changed.nodes[node]? = some (.file ((edit.written? record.world node).getD content))

theorem binding_of_change (binds : system.Binds reader.handle bound) (edit : Change) :
    binding reader.path bound
      ((ByteSource.disk reader).record FileSystem.disk Change.apply system (.change edit)) = bound :=
  binds.kept reader.path

theorem Orderly.binds_after {record : Record FileSystem Nat Change} {path : Path}
    (orderly : record.Orderly FileSystem.disk Change.apply path)
    (binds : record.world.Binds record.before.handle? bound)
    (acts : ∀ edit, record.step ≠ .change edit) :
    record.changed.Binds record.after.handle? (record.binding path bound) ∧
      record.changed.nodes = record.world.nodes := by
  have opens : record.calls.countP SystemCall.isOpening = 0 ∨
      record.world.nodeFor? path bound = record.world.nodeAt? path := by
    have openings := orderly.openings
    cases held : record.before.handle? with
    | none => exact .inr ((binds.nodeFor? path).2 held)
    | some handle =>
        rw [held] at openings
        exact .inl (Nat.le_zero.mp openings)
  obtain ⟨nodes, final⟩ := FileSystem.binds_of_makes (orderly.makes acts) orderly.follows
    (binds.nodeFor? path).1 opens
  refine ⟨?_, nodes⟩
  rw [binding]
  cases left : record.after.handle? with
  | none => exact .closed
  | some handle =>
      obtain ⟨id, serves, standing⟩ := final handle left
      rw [serves]
      exact .opened standing

end Record

namespace ByteSource

open FileSystem (Change)

variable {system : FileSystem} {bound : Option Nat}

theorem record_attached (reader : FileReader Nat) (binds : system.Binds reader.handle bound)
    (step : FileStep Change) :
    ((ByteSource.disk reader).record FileSystem.disk Change.apply system step).Attached reader.id
      reader.path bound := by
  obtain ⟨_, _, orderly⟩ := record_orderly FileSystem.disk Change.apply system reader step
  have acting (acts : ∀ edit, step ≠ .change edit) := orderly.binds_after binds acts
  exact {
    before := binds
    after := by
      cases step with
      | change edit =>
          rw [Record.binding_of_change binds edit]
          exact binds.apply edit
      | call call => exact (acting nofun).1
      | load chunkSize => exact (acting nofun).1
    replies := by
      rintro call node content rfl serves present sized
      obtain ⟨handle, reaches⟩ := FileSystem.reaches_of_binds binds serves present
      obtain ⟨_, _, _, outcome, _⟩ :=
        respond_of_stands (FileSystem.stands_file system.nodes sized) reaches call
      exact congrArg (fun outcome => StepReply.replied outcome.result) outcome
    loads := by
      rintro chunkSize node content rfl serves present sized
      obtain ⟨handle, reaches⟩ := FileSystem.reaches_of_binds binds serves present
      have loaded := load_of_stands (FileSystem.stands_file system.nodes sized) reaches chunkSize
      exact congrArg StepReply.loaded loaded
    spared := fun acts => (acting acts).2
    edited := by
      rintro edit node content rfl present
      exact edit.nodes_apply present }

theorem history_attached {paths : PathTable} {id : PathId} {held : Option Nat}
    {steps : List (FileStep Change)} {earlier later : List (Record FileSystem Nat Change)}
    {record : Record FileSystem Nat Change} (binds : system.Binds held bound)
    (split : (ByteSource.disk ⟨paths, id, held⟩).history FileSystem.disk Change.apply system steps
      = earlier ++ record :: later) :
    record.Attached id (paths.displayPath id)
      (earlier.foldl (Record.binding (paths.displayPath id)) bound) := by
  have next {passed : List (Record FileSystem Nat Change)} {world : FileSystem} {found : Option Nat}
      (step : FileStep Change) (record : Record FileSystem Nat Change)
      (made : (ByteSource.disk ⟨paths, id, found⟩).record FileSystem.disk Change.apply world step
        = record)
      (binds : world.Binds found (passed.foldl (Record.binding (paths.displayPath id)) bound)) :
      record.changed.Binds record.after.handle?
        ((passed ++ [record]).foldl (Record.binding (paths.displayPath id)) bound) := by
    cases made
    rw [List.foldl_append]
    exact (record_attached ⟨paths, id, found⟩ binds step).after
  obtain ⟨world, found, step, binds, rfl⟩ :=
    history_induction (motive := fun passed world found =>
      world.Binds found (passed.foldl (Record.binding (paths.displayPath id)) bound)) next
      (show system.Binds held (List.foldl _ bound []) from binds) split
  exact record_attached ⟨paths, id, found⟩ binds step

/-- Histories of a fresh reader. Whatever the disk does and others change, each step is orderly, and
all calls together follow one handle at a time: the path is opened only while none is held, and what
is read is read through the handle that was opened last and not yet closed. On a file system that
handle stands for the node that the path led to when it was opened; the node answers all calls until
the reader is closed, and keeps what it contains when its name is removed or given away. -/
theorem history_ofId :
    (∀ {σ η γ : Type} (disk : Disk σ η) (alter : γ → σ → σ) (world : σ) (paths : PathTable)
        (id : PathId) (steps : List (FileStep γ)),
      let records := (ByteSource.disk (FileReader.ofId paths id)).history disk alter world steps
      records.map Record.step = steps ∧
      ∀ (earlier later : List (Record σ η γ)) (record : Record σ η γ),
        records = earlier ++ record :: later →
        record.Orderly disk alter (paths.displayPath id) ∧
        Follows (paths.displayPath id) none (earlier.flatMap Record.calls) record.before.handle?) ∧
    ∀ (system : FileSystem) (paths : PathTable) (id : PathId) (steps : List (FileStep Change))
      (earlier later : List (Record FileSystem Nat Change)) (record : Record FileSystem Nat Change),
        (ByteSource.disk (FileReader.ofId paths id)).history FileSystem.disk Change.apply system steps
          = earlier ++ record :: later →
        record.Attached id (paths.displayPath id)
          (earlier.foldl (Record.binding (paths.displayPath id)) none) := by
  constructor
  · intro σ η γ disk alter world paths id steps
    exact ⟨map_step_history disk alter world _ steps,
      fun earlier later record split => history_orderly split⟩
  · intro system paths id steps earlier later record split
    exact history_attached .closed split

theorem history_ofId_removed_name :
    ∃ (system : FileSystem) (paths : PathTable)
        (opening removal reading : Record FileSystem Nat Change),
      (ByteSource.disk (FileReader.ofId paths ⟨1⟩)).history FileSystem.disk Change.apply system
          [.call .openFile, .change (.remove (Path.ofString "a")), .call (.read 1 ⟨#[0, 0, 0]⟩)]
        = [opening, removal, reading] ∧
      reading.world.nodeAt? (Path.ofString "a") = none ∧
      reading.reply = .replied (.filled (.ok (2, ⟨#[11, 12, 0]⟩))) ∧
      reading.calls.countP SystemCall.isOpening = 0 := by
  have attached := history_ofId.2
    ⟨#[.directory 0 [], .directory 0 [([0x61], 2)], .file ⟨#[10, 11, 12]⟩], #[]⟩
    (PathTable.empty.intern (Path.ofString "a")).2 ⟨1⟩
    [.call .openFile, .change (.remove (Path.ofString "a")), .call (.read 1 ⟨#[0, 0, 0]⟩)]
    [_, _] [] _ rfl
  have replied := attached.replies rfl (show _ = some 2 by cbv)
    (show _ = some (Node.file ⟨#[10, 11, 12]⟩) by cbv) (by decide)
  refine ⟨_, (PathTable.empty.intern (Path.ofString "a")).2, _, _, _, rfl, ?_, replied.trans rfl, ?_⟩
  · cbv
  · cbv

end ByteSource

end FrontEnd
