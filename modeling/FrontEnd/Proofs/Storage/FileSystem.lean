import FrontEnd.Proofs.Storage.Contents
import FrontEnd.Storage.FileSystem

/-! What the disk of a file system holds: the content of every regular file, and for every other
path the failure of the operation that it does not allow. -/

namespace FrontEnd.FileSystem

def contentAt (system : FileSystem) (path : Path) : Except FileError ByteArray :=
  match system.find path with
  | .error cause => .error ⟨.opening, path, cause⟩
  | .ok (.missing ..) => .error ⟨.opening, path, .notFound⟩
  | .ok (.node id) =>
      match system.nodes[id]? with
      | none => .error ⟨.seeking, path, .badHandle⟩
      | some (.file content) => .ok content
      | some (.directory ..) => .error ⟨.reading, path, .isDirectory⟩
      | some .pipe => .error ⟨.seeking, path, .illegalSeek⟩
      | some (.link _) => .error ⟨.reading, path, .badHandle⟩
      | some (.refused cause) => .error ⟨.opening, path, cause⟩

structure StandsAt (handle id : Nat) (node : Node) (system : FileSystem) (position : Nat) : Prop where
  isOpen : system.openFiles[handle]? = some (some ⟨id, position⟩)
  present : system.nodes[id]? = some node

variable {system : FileSystem} {handle id here : Nat} {node : Node}

theorem StandsAt.opened?_eq (stands : StandsAt handle id node system here) :
    system.opened? handle = some (⟨id, here⟩, node) := by
  simp only [opened?, stands.isOpen, stands.present]
  rfl

theorem StandsAt.moveTo (stands : StandsAt handle id node system here) (position : Nat) :
    StandsAt handle id node (system.moveTo handle ⟨id, here⟩ position) position := by
  have inside := (Array.getElem?_eq_some_iff.mp stands.isOpen).1
  exact ⟨Array.getElem?_setIfInBounds_self_of_lt inside, stands.present⟩

def withOpen (system : FileSystem) (id : Nat) : FileSystem :=
  { system with openFiles := system.openFiles.push (some ⟨id, 0⟩) }

theorem StandsAt.start (present : system.nodes[id]? = some node) :
    StandsAt system.openFiles.size id node (system.withOpen id) 0 :=
  ⟨Array.getElem?_push_size, present⟩

theorem StandsAt.seek (stands : StandsAt handle id node system here) (seekable : node ≠ .pipe)
    {position : Nat} (within : position ≤ largestPosition) :
    system.seek handle (.position position) = (.ok (), system.moveTo handle ⟨id, here⟩ position) := by
  simp only [FileSystem.seek, stands.opened?_eq]
  cases node with
  | pipe => exact absurd rfl seekable
  | _ => exact if_neg (Nat.not_lt.mpr within)

theorem StandsAt.read_file {content : ByteArray}
    (stands : StandsAt handle id (.file content) system here)
    (within : here ≤ content.size) (room : Nat) :
    system.read handle room
      = (.ok (content.extract here (min (here + room) content.size)),
        system.moveTo handle ⟨id, here⟩ (min (here + room) content.size)) := by
  have stop : here + (content.extract here (min (here + room) content.size)).size
      = min (here + room) content.size := by
    rw [ByteArray.size_extract]
    omega
  simp only [FileSystem.read, stands.opened?_eq, stop]

theorem StandsAt.read_directory {parent : Nat} {entries : List (List UInt8 × Nat)} {room : Nat}
    (stands : StandsAt handle id (.directory parent entries) system here) :
    system.read handle room = (.error .isDirectory, system) := by
  simp only [FileSystem.read, stands.opened?_eq]

theorem StandsAt.read_link {target : List UInt8} {room : Nat}
    (stands : StandsAt handle id (.link target) system here) :
    system.read handle room = (.error .badHandle, system) := by
  simp only [FileSystem.read, stands.opened?_eq]

theorem StandsAt.seek_pipe {target : SeekTarget} (stands : StandsAt handle id .pipe system here) :
    system.seek handle target = (.error .illegalSeek, system) := by
  simp only [FileSystem.seek, stands.opened?_eq]

theorem seek_withOpen_of_missing {target : SeekTarget} (missing : system.nodes[id]? = none) :
    (system.withOpen id).seek system.openFiles.size target
      = (.error .badHandle, system.withOpen id) := by
  have closed : (system.withOpen id).opened? system.openFiles.size = none := by
    simp [withOpen, opened?, missing]
  simp only [FileSystem.seek, closed]

theorem served_extract {content : ByteArray} (within : here ≤ content.size) {room : Nat}
    (positive : 0 < room) :
    Served content none here (.ok (content.extract here (min (here + room) content.size)))
      (min (here + room) content.size) := by
  by_cases past : content.size ≤ here
  · have same : min (here + room) content.size = here := by omega
    rw [same, ByteArray.extract_same]
    exact .ended rfl past
  · exact .part (by omega) (Nat.min_le_right _ _)

theorem serves_file {content : ByteArray} (sized : content.size ≤ largestPosition) :
    disk.Serves handle content none (StandsAt handle id (.file content)) where
  seek stands within := ⟨_, stands.seek Node.noConfusion (Nat.le_trans within sized), stands.moveTo _⟩
  read stands within positive :=
    ⟨_, _, _, stands.read_file within _, stands.moveTo _, served_extract within positive⟩
  lasting := nofun
  bounded := Nat.lt_of_le_of_lt sized (by decide)

theorem serves_unreadable {cause : OsError} (lasting : cause ≠ .interrupted) (seekable : node ≠ .pipe)
    (fails : ∀ {system here room}, StandsAt handle id node system here →
      system.read handle room = (.error cause, system)) :
    disk.Serves handle ByteArray.empty (some cause) (StandsAt handle id node) where
  seek stands within := ⟨_, stands.seek seekable (Nat.le_trans within (Nat.zero_le _)), stands.moveTo _⟩
  read stands _ _ := ⟨_, _, _, fails stands, stands, .failed rfl⟩
  lasting same := lasting (Option.some.inj same)
  bounded := by decide

theorem seekTo_of_seek {cause : OsError} {position : Nat}
    (failed : system.seek handle (.position position) = (.error cause, system))
    (lasting : cause.isOutOfRange = false) :
    disk.seekTo system handle position = (.error cause, system, #[]) := by
  have sought : disk.seek system handle (.position position) = (.error cause, system) := failed
  simp only [Disk.seekTo, sought, lasting]
  rfl

theorem openFile_of_find {path : Path} (found : system.find path = .ok (.node id))
    (allowed : ∀ cause, system.nodes[id]? ≠ some (.refused cause)) :
    system.openFile path = (.ok system.openFiles.size, system.withOpen id) := by
  -- the hypothesis rules out the one node that may not be opened
  simp only [openFile, found]
  rfl

theorem holds_of_node {path : Path} (found : system.find path = .ok (.node id))
    (sized : ∀ content, system.contentAt path = .ok content → content.size ≤ largestPosition) :
    disk.Holds system path (system.contentAt path) := by
  by_cases denied : ∃ cause, system.nodes[id]? = some (.refused cause)
  · obtain ⟨cause, present⟩ := denied
    have refused : system.openFile path = (.error cause, system) := by
      simp only [openFile, found, present]
    simp only [contentAt, found, present]
    exact .unopened refused
  · have opened := openFile_of_find found fun cause present => denied ⟨cause, present⟩
    cases present : system.nodes[id]? with
    | none =>
        simp only [contentAt, found, present]
        exact .unsought opened (seekTo_of_seek (seek_withOpen_of_missing present) rfl)
    | some node =>
        have stands := StandsAt.start present
        simp only [contentAt, found, present] at sized ⊢
        cases node with
        | file content => exact .regular opened (serves_file (sized content rfl)) stands
        | directory parent entries =>
            exact .unread opened
              (serves_unreadable OsError.noConfusion Node.noConfusion StandsAt.read_directory) stands
        | pipe => exact .unsought opened (seekTo_of_seek stands.seek_pipe rfl)
        | link target =>
            exact .unread opened
              (serves_unreadable OsError.noConfusion Node.noConfusion StandsAt.read_link) stands
        | refused cause => exact absurd ⟨cause, present⟩ denied

/-- The disk of a file system holds under each path what the file system has there, as long as its
files are no longer than positions reach. -/
theorem holds_contentAt (system : FileSystem) (path : Path)
    (sized : ∀ content, system.contentAt path = .ok content → content.size ≤ largestPosition) :
    disk.Holds system path (system.contentAt path) := by
  cases found : system.find path with
  | error cause =>
      have refused : system.openFile path = (.error cause, system) := by
        rw [openFile, found]
      rw [contentAt, found]
      exact .unopened refused
  | ok place =>
      cases place with
      | missing directory name =>
          have refused : system.openFile path = (.error .notFound, system) := by
            rw [openFile, found]
          rw [contentAt, found]
          exact .unopened refused
      | node id => exact holds_of_node found sized

end FrontEnd.FileSystem
