import FrontEnd.Proofs.Storage.FileSystem
import FrontEnd.Proofs.Storage.Keeping

/-! Disk and memory agree: a file that stays as it is answers every history of calls like memory
with the same content. -/

namespace FrontEnd

namespace FileSystem

variable {system other : FileSystem} {handle id here : Nat} {content : ByteArray}

theorem walk_congr (same : other.nodes = system.nodes) (links start : Nat)
    (parts : List (List UInt8)) :
    other.walk links start parts = system.walk links start parts := by
  fun_induction system.walk links start parts with
  | case1 => rw [walk]
  | case2 links here part rest parent entries found quiet ih =>
      rw [walk, same, found]
      simp only [if_pos quiet, ih]
  | case3 links here rest parent entries found named ih =>
      rw [walk, same, found]
      simp only [if_neg named, if_true, ih]
  | case4 | case5 | case6 | case7 =>
      rw [walk, same]
      simp only [*, if_true, if_false]
  | case8 here part rest parent entries found named below short child known target leads fewer _ ih =>
      rw [walk, same, found]
      simp only [if_neg named, if_neg below, if_neg short, known, leads]
      exact ih
  | case9 links here part rest parent entries found named below short child known direct ih =>
      rw [walk, same, found]
      simp only [if_neg named, if_neg below, if_neg short, known, ih]
  | case10 links here part rest lost =>
      rw [walk, same]
      simp only

theorem find_congr (same : other.nodes = system.nodes) (path : Path) :
    other.find path = system.find path := by
  simp only [find, walk_congr same]

theorem StandsAt.read_past (stands : StandsAt handle id (.file content) system here)
    (past : content.size ≤ here) (room : Nat) :
    system.read handle room = (.ok ByteArray.empty, system.moveTo handle ⟨id, here⟩ here) := by
  simp only [FileSystem.read, stands.opened?_eq, extract_eq_empty_of_le past, ByteArray.size_empty,
    Nat.add_zero]

theorem StandsAt.seek_beyond (stands : StandsAt handle id (.file content) system here)
    {position : Nat} (beyond : largestPosition < position) :
    system.seek handle (.position position) = (.error .invalidArgument, system) := by
  simp only [FileSystem.seek, stands.opened?_eq, if_pos beyond]

theorem StandsAt.seek_finish (stands : StandsAt handle id (.file content) system here) :
    system.seek handle .finish = (.ok (), system.moveTo handle ⟨id, here⟩ content.size) := by
  simp only [FileSystem.seek, stands.opened?_eq]

theorem stands_file (nodes : Array Node) (sized : content.size ≤ largestPosition) :
    disk.Stands content fun now handle here =>
      now.nodes = nodes ∧ StandsAt handle id (.file content) now here where
  seek := by
    rintro now handle here position ⟨same, stands⟩ _
    by_cases within : position ≤ largestPosition
    · exact ⟨_, _, _, stands.seek Node.noConfusion within, ⟨same, stands.moveTo position⟩, .moved⟩
    · exact ⟨_, _, _, stands.seek_beyond (by omega), ⟨same, stands⟩, .refused rfl (by omega)⟩
  seekFinish := by
    rintro now handle here ⟨same, stands⟩
    exact ⟨_, stands.seek_finish, same, stands.moveTo _⟩
  read := by
    rintro now handle here room ⟨same, stands⟩ positive
    by_cases past : content.size ≤ here
    · exact ⟨_, _, _, stands.read_past past room, ⟨same, stands.moveTo here⟩, .ended rfl past⟩
    · have within : here ≤ content.size := by omega
      exact ⟨_, _, _, stands.read_file within room, ⟨same, stands.moveTo _⟩,
        served_extract within positive⟩
  sized := Nat.lt_of_le_of_lt sized (by decide)

theorem openFile_of_file {path : Path} (found : system.find path = .ok (.node id))
    (present : system.nodes[id]? = some (.file content)) :
    system.openFile path = (.ok system.openFiles.size, system.withOpen id) :=
  openFile_of_find found fun cause refused => by simp [present] at refused

theorem keeps_file {path : Path} (found : system.find path = .ok (.node id))
    (present : system.nodes[id]? = some (.file content)) (sized : content.size ≤ largestPosition) :
    disk.Keeps path content (fun now => now.nodes = system.nodes) fun now handle here =>
      now.nodes = system.nodes ∧ StandsAt handle id (.file content) now here where
  toStands := stands_file system.nodes sized
  openFile := by
    intro now same
    have there : now.find path = .ok (.node id) := (find_congr same path).trans found
    have held : now.nodes[id]? = some (.file content) := same ▸ present
    exact ⟨_, _, openFile_of_file there held, same, StandsAt.start held⟩
  close := fun standing => standing.1

end FileSystem

namespace ByteSource

/-- Every history of calls has the same replies from a file on a disk, which nobody changes, as from
memory with the same content: each call succeeds, and each read finds what its position and its
buffer say, whatever the calls before it did. -/
theorem run_disk_eq_run_memory {σ η : Type} {disk : Disk σ η} {paths : PathTable} {id : PathId}
    {held : MemoryFile} {calm : σ → Prop} {standsAt : σ → η → Nat → Prop} {world : σ}
    (keeps : disk.Keeps (paths.displayPath id) held.bytes calm standsAt) (quiet : calm world)
    (calls : List FileCall) :
    (ByteSource.disk (FileReader.ofId paths id)).run disk world calls
        = (ByteSource.memory held).run disk world calls ∧
      (ByteSource.memory held).run disk world calls = calls.map (FileCall.answer held.bytes) := by
  have fromMemory := run_memory disk world held calls
  have fresh : (FileReader.ofId paths id).Rests calm standsAt world := quiet
  have fromDisk := run_of_keeps keeps fresh calls
  exact ⟨fromDisk.trans fromMemory.symm, fromMemory⟩

theorem run_disk_eq_run_memory_past_end :
    ∃ system : FileSystem, ∃ paths : PathTable,
      system.contentAt (paths.displayPath ⟨1⟩) = .ok ⟨#[10, 11, 12, 13, 14]⟩ ∧
      (ByteSource.disk (FileReader.ofId paths ⟨1⟩)).run FileSystem.disk system
          [.read 18446744073709551615 ⟨#[0, 1, 2]⟩, .openFile, .read 3 ⟨#[0, 1, 2]⟩, .close,
            .read 0 ⟨#[]⟩, .read 5 ⟨#[0]⟩, .read 1 ⟨#[0, 1]⟩]
        = [.filled (.ok (0, ⟨#[0, 1, 2]⟩)), .finished (.ok ()), .filled (.ok (2, ⟨#[13, 14, 2]⟩)),
            .finished (.ok ()), .filled (.ok (0, ⟨#[]⟩)), .filled (.ok (0, ⟨#[0]⟩)),
            .filled (.ok (2, ⟨#[11, 12]⟩))] := by
  let system : FileSystem :=
    ⟨#[.directory 0 [], .directory 0 [([0x61], 2)], .file ⟨#[10, 11, 12, 13, 14]⟩], #[]⟩
  let paths : PathTable :=
    ⟨[(Path.ofString "a", ⟨1⟩), (Path.memory, ⟨0⟩)], #[Path.memory, Path.ofString "a"]⟩
  have found : system.find (paths.displayPath ⟨1⟩) = .ok (.node 2) := by cbv
  have present : system.nodes[2]? = some (.file ⟨#[10, 11, 12, 13, 14]⟩) := rfl
  have held : system.contentAt (paths.displayPath ⟨1⟩) = .ok ⟨#[10, 11, 12, 13, 14]⟩ := by
    simp only [FileSystem.contentAt, found, present]
  have keeps : FileSystem.disk.Keeps (paths.displayPath ⟨1⟩)
      (MemoryFile.mk ⟨1⟩ ⟨#[10, 11, 12, 13, 14]⟩).bytes _ _ :=
    FileSystem.keeps_file found present (by decide)
  have agree := run_disk_eq_run_memory keeps rfl
  exact ⟨system, paths, held, ((agree _).1.trans (agree _).2).trans rfl⟩

end ByteSource

end FrontEnd
