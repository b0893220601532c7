import FrontEnd.Proofs.Storage.Agreement
import FrontEnd.Proofs.Storage.Handle

/-! Loading in chunks. The loop asks for the bytes behind those it has, and every chunk comes into one
buffer, behind whose front the chunk before it is still seen. Whatever the size of the buffer, the
loop gathers the content of the file, or stops at the first read that fails. -/

namespace FrontEnd

theorem size_overlay {bytes buffer : ByteArray} (fits : bytes.size ≤ buffer.size) :
    (overlay bytes buffer).size = buffer.size := by
  rw [overlay, ByteArray.size_append, ByteArray.size_extract]
  omega

theorem extract_overlay (bytes buffer : ByteArray) :
    (overlay bytes buffer).extract 0 bytes.size = bytes :=
  ByteArray.extract_append_eq_left rfl

variable {σ η : Type} {disk : Disk σ η}

theorem Disk.size_fill_le {world after : σ} {handle : η} {room : Nat} {filled bytes : ByteArray}
    (outcome : disk.fill world handle room filled = (.ok bytes, after)) :
    bytes.size ≤ filled.size + room := by
  fun_induction Disk.fill disk world handle room filled with
  | case1 world filled =>
      cases outcome
      omega
  | case2 world room filled vacant found next yielded nothing =>
      cases outcome
      omega
  | case3 world room filled vacant found next yielded more ih =>
      have short := disk.size_read_le yielded
      have rest := ih outcome
      rw [ByteArray.size_append] at rest
      omega
  | case4 world room filled vacant next yielded closer ih => exact ih outcome
  | case5 world room filled vacant cause next lasting yielded => cases outcome

theorem FileReader.size_read_le {reader next : FileReader η} {world after : σ} {position count : Nat}
    {bytes : ByteArray} {events : Array Event}
    (found : reader.read disk world position count = ⟨.ok bytes, next, after, events⟩) :
    bytes.size ≤ count := by
  rw [read] at found
  split at found
  · cases found
    exact Nat.zero_le _
  · split at found
    · cases found
    · split at found
      · cases found
      · split at found
        · cases found
        · rename_i filled
          cases found
          have within := Disk.size_fill_le filled
          rwa [ByteArray.size_empty, Nat.zero_add] at within

namespace ByteSource

variable {world after : σ} {file next : ByteSource η} {position count : Nat}
variable {events reported : Array Event}

theorem size_read_le {bytes : ByteArray}
    (found : file.read disk world position count = ⟨.ok bytes, next, after, reported⟩) :
    bytes.size ≤ count := by
  cases file with
  | memory held =>
      cases found
      rw [held.read_eq_extract, size_extract_count]
      omega
  | disk reader =>
      rcases obtained : reader.read disk world position count with ⟨result, opened, changed, events⟩
      rw [read_disk obtained] at found
      cases found
      exact FileReader.size_read_le obtained

theorem names_read {result : Except FileError ByteArray} (positive : 0 < count)
    (found : file.read disk world position count = ⟨result, next, after, reported⟩) :
    next.id = file.id ∧ next.displayPath = file.displayPath := by
  cases file with
  | memory held =>
      cases found
      exact ⟨rfl, rfl⟩
  | disk reader =>
      obtain ⟨calls, service⟩ := reader.read_service disk world position positive
      rcases obtained : reader.read disk world position count with ⟨answer, opened, changed, events⟩
      rw [obtained] at service
      rw [read_disk obtained] at found
      cases found
      have same : opened = { reader with handle := opened.handle } := service.same
      have number : opened.id = reader.id := by rw [same]
      exact ⟨number, service.path_eq⟩

/-- The loop over the chunks: from the buffer as the chunk before left it, and the bytes so far, to
all bytes of the file or the failure of a read. -/
inductive Gathers (disk : Disk σ η) :
    σ → ByteSource η → ByteArray → ByteArray → Except FileError ByteArray → Prop
  | more {world file buffer bytes found next after reported gathered} :
      bytes.size < positionLimit →
      file.read disk world bytes.size buffer.size = ⟨.ok found, next, after, reported⟩ →
      found.size ≠ 0 →
      Gathers disk after next (overlay found buffer)
        (bytes ++ (overlay found buffer).extract 0 found.size) gathered →
      Gathers disk world file buffer bytes gathered
  | finished {world file buffer bytes found next after reported} :
      bytes.size < positionLimit →
      file.read disk world bytes.size buffer.size = ⟨.ok found, next, after, reported⟩ →
      found.size = 0 →
      Gathers disk world file buffer bytes (.ok bytes)
  | failed {world file buffer bytes error next after reported} :
      bytes.size < positionLimit →
      file.read disk world bytes.size buffer.size = ⟨.error error, next, after, reported⟩ →
      Gathers disk world file buffer bytes (.error error)

variable {buffer bytes content : ByteArray} {gathered : Except FileError ByteArray}
variable {chunkSize : ChunkSize}

theorem Gathers.collect_eq (gathers : Gathers disk world file buffer bytes gathered)
    (allocated : buffer.size = chunkSize.bytes) (events : Array Event) :
    ∃ last after reported,
      file.collect disk chunkSize world bytes events = ⟨gathered, last, after, reported⟩ ∧
      last.id = file.id ∧ last.displayPath = file.displayPath := by
  have positive := chunkSize.positive
  induction gathers generalizing events with
  | @more world file buffer bytes found next after reported gathered below read some rest ih =>
      have size := size_overlay (size_read_le read)
      rw [allocated] at read size
      -- the front of the buffer is what the read has found, so nothing of the chunk before is taken
      obtain ⟨last, final, all, collected, number, name⟩ := ih size (events ++ reported)
      obtain ⟨sameNumber, sameName⟩ := names_read positive read
      rw [extract_overlay] at collected
      refine ⟨last, final, all, ?_, number.trans sameNumber, name.trans sameName⟩
      rw [collect, if_pos below, read]
      simp only [if_neg some, collected]
  | @finished world file buffer bytes found next after reported below read nothing =>
      rw [allocated] at read
      refine ⟨next, after, events ++ reported, ?_, names_read positive read⟩
      rw [collect, if_pos below, read]
      simp only [if_pos nothing]
  | @failed world file buffer bytes error next after reported below read =>
      rw [allocated] at read
      refine ⟨next, after, events ++ reported, ?_, names_read positive read⟩
      rw [collect, if_pos below, read]

theorem gathers_of_collect (events : Array Event) (allocated : buffer.size = chunkSize.bytes)
    (collected : (file.collect disk chunkSize world bytes events).result = gathered)
    (limited : ∀ whole, gathered = .ok whole → whole.size < positionLimit) :
    Gathers disk world file buffer bytes gathered := by
  fun_induction collect disk chunkSize world file bytes events generalizing buffer with
  | case1 world file bytes events below error next after reported read =>
      subst collected
      exact .failed below (allocated ▸ read)
  | case2 world file bytes events below found next after reported read nothing =>
      subst collected
      exact .finished below (allocated ▸ read) nothing
  | case3 world file bytes events below found next after reported read some ih =>
      rw [← allocated] at read
      have size := size_overlay (size_read_le read)
      refine .more below read some ?_
      rw [extract_overlay]
      exact ih (size.trans allocated) collected
  | case4 world file bytes events above =>
      exact absurd (limited bytes collected.symm) above

/-- While a file is `fit`, a read finds what the content has at its position, and leaves it fit. -/
structure Supplies (disk : Disk σ η) (content : ByteArray) (fit : σ → ByteSource η → Prop) :
    Prop where
  read : ∀ {world file position count}, fit world file → position ≤ content.size → 0 < count →
    ∃ next after reported, file.read disk world position count
        = ⟨.ok (content.extract position (position + count)), next, after, reported⟩ ∧
      fit after next

theorem Supplies.gathers {fit : σ → ByteSource η → Prop} {world : σ} {file : ByteSource η}
    {buffer bytes : ByteArray} (supplies : Supplies disk content fit) (ready : fit world file)
    (sized : content.size < positionLimit) (positive : 0 < buffer.size)
    (front : bytes = content.extract 0 bytes.size) (within : bytes.size ≤ content.size) :
    Gathers disk world file buffer bytes (.ok content) := by
  -- the bytes so far are the front of the content, and every chunk leaves less of it
  have below : bytes.size < positionLimit := Nat.lt_of_le_of_lt within sized
  obtain ⟨next, after, reported, read, left⟩ := supplies.read ready within positive
  have size := size_extract_count content bytes.size buffer.size
  by_cases nothing : (content.extract bytes.size (bytes.size + buffer.size)).size = 0
  · have whole : bytes = content := by
      rw [front, Nat.le_antisymm within (by omega), ByteArray.extract_zero_size]
    have finished := Gathers.finished below read nothing
    rwa [whole] at finished ⊢
  · have grown := append_extract_of_front front buffer.size
    have larger : (content.extract 0 (bytes.size + buffer.size)).size
        = min (bytes.size + buffer.size) content.size := by
      rw [ByteArray.size_extract, Nat.sub_zero]
    have kept := size_overlay (size_read_le read)
    refine .more below read nothing ?_
    rw [extract_overlay, grown]
    exact supplies.gathers left sized (by omega) (extract_size_extract content _).symm (by omega)
termination_by content.size - bytes.size
decreasing_by omega

theorem supplies_memory (disk : Disk σ η) (held : MemoryFile) :
    Supplies disk held.bytes fun _ file => file = .memory held where
  read := by
    rintro world file position count rfl within positive
    refine ⟨.memory held, world, #[], ?_, rfl⟩
    rw [ByteSource.read, held.read_eq_extract]

theorem supplies_of_stands {standsAt : σ → η → Nat → Prop} (stands : disk.Stands content standsAt) :
    Supplies disk content fun world file => ∃ reader handle, file = .disk reader ∧
      reader.Reaches disk world handle fun world => standsAt world handle where
  read := by
    rintro world file position count ⟨reader, handle, rfl, reaches⟩ within positive
    have limited := Nat.lt_of_le_of_lt within stands.sized
    obtain ⟨after, there, reported, found, standing⟩ :=
      FileReader.read_of_stands stands reaches limited positive
    refine ⟨_, after, reported, read_disk found, _, handle, rfl, ?_⟩
    exact ⟨after, there, #[], standing, rfl⟩

theorem Gathers.load_eq (gathers : Gathers disk world file buffer ByteArray.empty gathered)
    (allocated : buffer.size = chunkSize.bytes) :
    (file.load disk world chunkSize).result = sourceOf file.id file.displayPath gathered := by
  obtain ⟨last, after, reported, collected, number, name⟩ := gathers.collect_eq allocated #[]
  rw [load_of_collect collected, number, name]

theorem gathers_of_load_error {error : FileError} (allocated : buffer.size = chunkSize.bytes)
    (refused : (file.load disk world chunkSize).result = .error (.file error)) :
    Gathers disk world file buffer ByteArray.empty (.error error) := by
  refine gathers_of_collect #[] allocated ?_ nofun
  rcases collected : file.collect disk chunkSize world ByteArray.empty #[] with
    ⟨result, last, after, reported⟩
  rw [load_of_collect collected] at refused
  cases result with
  | error cause =>
      cases refused
      rfl
  | ok whole =>
      simp only [sourceOf, Except.mapError] at refused
      split at refused
      · cases refused
      · cases refused

/-- Loading in chunks comes to an end, and gives what the content gives as one piece, whatever the
chunk size and whichever kind of source has it. It fails with the error of a read exactly when the
loop meets that error. -/
theorem load_eq_ofBytes (disk : Disk σ η) (size : Nat) (buffer : ByteArray)
    (allocated : buffer.size = max size 1) :
    (∀ (world : σ) (id : PathId) (content : ByteArray), content.size < positionLimit →
      Gathers disk world (.memory ⟨id, content⟩) buffer ByteArray.empty (.ok content) ∧
      ((ByteSource.memory ⟨id, content⟩).load disk world (ChunkSize.ofNat size)).result
        = (SourceText.ofBytes id content).mapError (.text Path.memory)) ∧
    (∀ (world : σ) (reader : FileReader η) (content : ByteArray) (calm : σ → Prop)
        (standsAt : σ → η → Nat → Prop), disk.Keeps reader.path content calm standsAt →
      reader.Rests calm standsAt world →
      Gathers disk world (.disk reader) buffer ByteArray.empty (.ok content) ∧
      ((ByteSource.disk reader).load disk world (ChunkSize.ofNat size)).result
        = (SourceText.ofBytes reader.id content).mapError (.text reader.path)) ∧
    ∀ (world : σ) (file : ByteSource η) (error : FileError),
      (file.load disk world (ChunkSize.ofNat size)).result = .error (.file error) ↔
        Gathers disk world file buffer ByteArray.empty (.error error) := by
  have positive : 0 < buffer.size := by omega
  have front (content : ByteArray) : ByteArray.empty = content.extract 0 ByteArray.empty.size :=
    ByteArray.extract_same.symm
  refine ⟨?_, ?_, ?_⟩
  · intro world id content sized
    have gathers : Gathers disk world (.memory ⟨id, content⟩) buffer ByteArray.empty (.ok content) :=
      (supplies_memory disk ⟨id, content⟩).gathers rfl sized positive (front content) (Nat.zero_le _)
    exact ⟨gathers, gathers.load_eq allocated⟩
  · intro world reader content calm standsAt keeps rests
    obtain ⟨handle, reaches⟩ := FileReader.reaches_of_keeps keeps rests
    have gathers := (supplies_of_stands keeps.toStands).gathers ⟨reader, handle, rfl, reaches⟩
      keeps.sized positive (front content) (Nat.zero_le _)
    exact ⟨gathers, gathers.load_eq allocated⟩
  · intro world file error
    constructor
    · exact gathers_of_load_error allocated
    · intro gathers
      exact gathers.load_eq allocated

theorem load_eq_ofBytes_split_character :
    ∃ system : FileSystem, ∃ paths : PathTable,
      system.contentAt (paths.displayPath ⟨1⟩) = .ok ⟨#[0x61, 0xc3, 0xa9]⟩ ∧
      ((ByteSource.disk (FileReader.ofId paths ⟨1⟩)).load FileSystem.disk system
          (ChunkSize.ofNat 2)).result = .ok ⟨⟨1⟩, "aé", by decide⟩ ∧
      ((ByteSource.memory ⟨⟨0⟩, ⟨#[0x61, 0xc3, 0xa9, 0xff]⟩⟩).load FileSystem.disk system
          (ChunkSize.ofNat 0)).result = .error (.text Path.memory (.invalidUtf8 3)) ∧
      ((ByteSource.disk (FileReader.ofId paths ⟨2⟩)).load FileSystem.disk system
          (ChunkSize.ofNat 2)).result
        = .error (.file ⟨.reading, Path.ofString "b", .isDirectory⟩) := by
  let system : FileSystem :=
    ⟨#[.directory 0 [], .directory 0 [([0x61], 2), ([0x62], 3)], .file ⟨#[0x61, 0xc3, 0xa9]⟩,
      .directory 1 []], #[]⟩
  let paths : PathTable :=
    ⟨[(Path.ofString "b", ⟨2⟩), (Path.ofString "a", ⟨1⟩), (Path.memory, ⟨0⟩)],
      #[Path.memory, Path.ofString "a", Path.ofString "b"]⟩
  have found : system.find (paths.displayPath ⟨1⟩) = .ok (.node 2) := by cbv
  have present : system.nodes[2]? = some (.file ⟨#[0x61, 0xc3, 0xa9]⟩) := rfl
  have held : system.contentAt (paths.displayPath ⟨1⟩) = .ok ⟨#[0x61, 0xc3, 0xa9]⟩ := by
    simp only [FileSystem.contentAt, found, present]
  have keeps := FileSystem.keeps_file found present (by decide)
  obtain ⟨_, fromDisk, refused⟩ := load_eq_ofBytes FileSystem.disk 2 ⟨#[7, 7]⟩ (by decide)
  obtain ⟨fromMemory, _, _⟩ := load_eq_ofBytes FileSystem.disk 0 ⟨#[7]⟩ (by decide)
  have whole := (fromDisk system (FileReader.ofId paths ⟨1⟩) _ _ _ keeps rfl).2
  have broken := (fromMemory system ⟨0⟩ ⟨#[0x61, 0xc3, 0xa9, 0xff]⟩ (by decide)).2
  have failed := refused system (.disk (FileReader.ofId paths ⟨2⟩))
    ⟨.reading, Path.ofString "b", .isDirectory⟩
  refine ⟨system, paths, held, ?_, ?_, ?_⟩
  · rw [whole]
    cbv
  · rw [broken]
    cbv
  · rw [failed]
    exact .failed (by decide) (by cbv)

end ByteSource

end FrontEnd
