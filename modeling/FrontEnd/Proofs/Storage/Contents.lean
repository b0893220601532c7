import FrontEnd.Storage.Load
import Mathlib

/-! What comes of loading a file that nobody changes. A disk hands it out in pieces of any length,
with interruptions between them; the bytes that are loaded, or the failure, are those of the file,
whatever the chunk size. -/

namespace FrontEnd

/-- What a read from the position `here` of a file with this content may yield, and the position
behind it. At the end of the content the file is over, or a fault keeps it from being read on. -/
inductive Served (content : ByteArray) (fault : Option OsError) (here : Nat) :
    Except OsError ByteArray → Nat → Prop
  | part {there} : here < there → there ≤ content.size →
      Served content fault here (.ok (content.extract here there)) there
  | interrupted : Served content fault here (.error .interrupted) here
  | ended : fault = none → content.size ≤ here → Served content fault here (.ok ByteArray.empty) here
  | failed {cause} : fault = some cause → Served content fault here (.error cause) here

namespace Disk

variable {σ η : Type}

/-- Behind the handle a disk has a file with this content, which seeks and reads leave as it is. -/
structure Serves (disk : Disk σ η) (handle : η) (content : ByteArray) (fault : Option OsError)
    (standsAt : σ → Nat → Prop) : Prop where
  seek : ∀ {world here position}, standsAt world here → position ≤ content.size →
    ∃ after, disk.seek world handle (.position position) = (.ok (), after) ∧ standsAt after position
  read : ∀ {world here room}, standsAt world here → here ≤ content.size → 0 < room →
    ∃ outcome after there, disk.read world handle room = (outcome, after) ∧
      standsAt after there ∧ Served content fault here outcome there
  lasting : fault ≠ some .interrupted
  bounded : content.size < ByteSource.positionLimit

/-- What a disk has under a path as long as nobody changes it: the bytes of a regular file, or the
failure of every attempt to open the file, to seek in it or to read it to its end. -/
inductive Holds (disk : Disk σ η) (world : σ) (path : Path) : Except FileError ByteArray → Prop
  | unopened {cause after} : disk.openFile world path = (.error cause, after) →
      disk.Holds world path (.error ⟨.opening, path, cause⟩)
  | unsought {handle opened cause after events} : disk.openFile world path = (.ok handle, opened) →
      disk.seekTo opened handle 0 = (.error cause, after, events) →
      disk.Holds world path (.error ⟨.seeking, path, cause⟩)
  | unread {handle opened content cause standsAt} : disk.openFile world path = (.ok handle, opened) →
      disk.Serves handle content (some cause) standsAt → standsAt opened 0 →
      disk.Holds world path (.error ⟨.reading, path, cause⟩)
  | regular {handle opened content standsAt} : disk.openFile world path = (.ok handle, opened) →
      disk.Serves handle content none standsAt → standsAt opened 0 →
      disk.Holds world path (.ok content)

variable {disk : Disk σ η} {handle : η} {content : ByteArray} {fault : Option OsError}
variable {standsAt : σ → Nat → Prop}

theorem Serves.seekTo (serves : disk.Serves handle content fault standsAt) {world : σ}
    {here position : Nat} (stands : standsAt world here) (within : position ≤ content.size) :
    ∃ after, disk.seekTo world handle position = (.ok (), after, #[]) ∧ standsAt after position := by
  obtain ⟨after, sought, moved⟩ := serves.seek stands within
  exact ⟨after, by rw [Disk.seekTo, sought], moved⟩

theorem Serves.served_of_read (serves : disk.Serves handle content fault standsAt)
    {world after : σ} {here room : Nat} {answer : Except OsError ByteArray}
    (stands : standsAt world here) (within : here ≤ content.size) (positive : 0 < room)
    (outcome : disk.read world handle room = (answer, after)) :
    ∃ there, standsAt after there ∧ Served content fault here answer there := by
  obtain ⟨_, _, there, yielded, moved, served⟩ := serves.read stands within positive
  cases yielded.symm.trans outcome
  exact ⟨there, moved, served⟩

theorem Serves.fill (serves : disk.Serves handle content fault standsAt) {world : σ}
    {here : Nat} (stands : standsAt world here) (within : here ≤ content.size) (room : Nat)
    (filled : ByteArray) :
    (∃ after there,
      disk.fill world handle room filled
        = (.ok (filled ++ content.extract here (here + room)), after) ∧
      standsAt after there ∧ (fault = none ∨ here + room ≤ content.size)) ∨
    ∃ cause after, fault = some cause ∧ disk.fill world handle room filled = (.error cause, after) := by
  fun_induction Disk.fill disk world handle room filled generalizing here with
  | case1 world filled =>
      refine .inl ⟨world, here, ?_, stands, .inr within⟩
      rw [Nat.add_zero, ByteArray.extract_same, ByteArray.append_empty]
  | case2 world room filled vacant bytes after outcome nothing =>
      obtain ⟨there, moved, served⟩ :=
        serves.served_of_read stands within (Nat.pos_of_ne_zero vacant) outcome
      -- a part has a byte at least, so a read without one has found the end
      cases served with
      | part further inside =>
          rw [ByteArray.size_extract] at nothing
          omega
      | ended whole past =>
          have rest : content.extract here (here + room) = ByteArray.empty := by
            rw [ByteArray.extract_eq_empty_iff]
            omega
          rw [rest, ByteArray.append_empty]
          exact .inl ⟨after, here, rfl, moved, .inl whole⟩
  | case3 world room filled vacant bytes after outcome more ih =>
      obtain ⟨there, moved, served⟩ :=
        serves.served_of_read stands within (Nat.pos_of_ne_zero vacant) outcome
      have short := disk.size_read_le outcome
      cases served with
      | part further inside =>
          have size : (content.extract here there).size = there - here := by
            rw [ByteArray.size_extract, Nat.min_eq_left inside]
          rw [size] at short ih ⊢
          have stop : there + (room - (there - here)) = here + room := by omega
          have joined : content.extract here there ++ content.extract there (here + room)
              = content.extract here (here + room) := by
            rw [ByteArray.extract_append_extract, Nat.min_eq_left (Nat.le_of_lt further),
              Nat.max_eq_right (by omega)]
          have later := ih moved inside
          rwa [stop, ByteArray.append_assoc, joined] at later
      | ended _ _ => exact absurd rfl more
  | case4 world room filled vacant after outcome closer ih =>
      obtain ⟨there, moved, served⟩ :=
        serves.served_of_read stands within (Nat.pos_of_ne_zero vacant) outcome
      cases served with
      | interrupted => exact ih moved within
      | failed faulty => exact absurd faulty serves.lasting
  | case5 world room filled vacant cause after lasting outcome =>
      obtain ⟨there, moved, served⟩ :=
        serves.served_of_read stands within (Nat.pos_of_ne_zero vacant) outcome
      cases served with
      | interrupted => exact absurd rfl lasting
      | failed faulty => exact .inr ⟨cause, after, faulty, rfl⟩

end Disk

variable {σ η : Type} {disk : Disk σ η} {handle : η} {content : ByteArray} {fault : Option OsError}
variable {standsAt : σ → Nat → Prop} {reader : FileReader η} {world : σ}

def FileReader.Reaches (reader : FileReader η) (disk : Disk σ η) (world : σ) (handle : η)
    (standsAt : σ → Nat → Prop) : Prop :=
  ∃ opened here events, standsAt opened here ∧
    reader.acquire disk world = ⟨.ok handle, { reader with handle := some handle }, opened, events⟩

namespace FileReader

theorem acquire_of_openFile (closed : reader.handle = none) {opened : σ}
    (found : disk.openFile world reader.path = (.ok handle, opened)) :
    reader.acquire disk world
      = ⟨.ok handle, { reader with handle := some handle }, opened, #[.openedFile reader.path]⟩ := by
  rw [acquire, closed, found]

theorem read_of_unopened (closed : reader.handle = none) {after : σ} {cause : OsError}
    (refused : disk.openFile world reader.path = (.error cause, after))
    (position : Nat) {count : Nat} (positive : 0 < count) :
    reader.read disk world position count
      = ⟨.error ⟨.opening, reader.path, cause⟩, reader, after, #[]⟩ := by
  rw [read, if_neg (Nat.ne_of_gt positive), acquire, closed, refused]
  rfl

theorem read_of_unsought (closed : reader.handle = none) {opened after : σ}
    {position count : Nat} {cause : OsError} {events : Array Event}
    (found : disk.openFile world reader.path = (.ok handle, opened))
    (sought : disk.seekTo opened handle position = (.error cause, after, events))
    (positive : 0 < count) :
    reader.read disk world position count
      = { reader with handle := some handle }.abandon disk after
        (#[Event.openedFile reader.path] ++ events) .seeking cause := by
  rw [read, if_neg (Nat.ne_of_gt positive), acquire_of_openFile closed found]
  simp only [sought]

theorem read_of_serves (serves : disk.Serves handle content fault standsAt)
    (reaches : reader.Reaches disk world handle standsAt)
    {position count : Nat} (within : position ≤ content.size) (positive : 0 < count) :
    (∃ after there events, reader.read disk world position count
        = ⟨.ok (content.extract position (position + count)),
            { reader with handle := some handle }, after, events⟩ ∧
      standsAt after there ∧ (fault = none ∨ position + count ≤ content.size)) ∨
    ∃ cause file after events, fault = some cause ∧
      reader.read disk world position count
        = ⟨.error ⟨.reading, reader.path, cause⟩, file, after, events⟩ := by
  obtain ⟨opened, here, reported, stands, acquired⟩ := reaches
  obtain ⟨moved, sought, standing⟩ := serves.seekTo stands within
  have filled := serves.fill standing within count ByteArray.empty
  rw [ByteArray.empty_append] at filled
  rw [read, if_neg (Nat.ne_of_gt positive), acquired]
  simp only [sought]
  rcases filled with ⟨after, there, yielded, left, whole⟩ | ⟨cause, after, faulty, yielded⟩
  · rw [yielded]
    exact .inl ⟨after, there, _, rfl, left, whole⟩
  · rw [yielded]
    exact .inr ⟨cause, _, _, _, faulty, rfl⟩

end FileReader

theorem extract_size_extract (content : ByteArray) (stop : Nat) :
    content.extract 0 (content.extract 0 stop).size = content.extract 0 stop := by
  have whole := (content.extract 0 stop).extract_zero_size
  rwa [ByteArray.extract_extract, Nat.zero_add, Nat.zero_add, Nat.min_eq_left] at whole
  rw [ByteArray.size_extract]
  omega

theorem append_extract_of_front {bytes content : ByteArray}
    (front : bytes = content.extract 0 bytes.size) (count : Nat) :
    bytes ++ content.extract bytes.size (bytes.size + count)
      = content.extract 0 (bytes.size + count) :=
  (congrArg (· ++ _) front).trans (ByteArray.extract_eq_extract_append_extract bytes.size
    (Nat.zero_le _) (Nat.le_add_right _ _)).symm

namespace ByteSource

theorem read_disk {position count : Nat}
    {outcome : Outcome σ (FileReader η) (Except FileError ByteArray)}
    (yielded : reader.read disk world position count = outcome) :
    (ByteSource.disk reader).read disk world position count = ofReader outcome :=
  congrArg ofReader yielded

theorem collect_of_serves {reader : FileReader η} {world : σ}
    (serves : disk.Serves handle content fault standsAt)
    (reaches : reader.Reaches disk world handle standsAt) (chunkSize : ChunkSize)
    {bytes : ByteArray} {events : Array Event}
    (front : bytes = content.extract 0 bytes.size) (within : bytes.size ≤ content.size) :
    (fault = none ∧ ∃ after reported, (ByteSource.disk reader).collect disk chunkSize world bytes events
      = ⟨.ok content, .disk { reader with handle := some handle }, after, reported⟩) ∨
    ∃ cause file after reported, fault = some cause ∧
      (ByteSource.disk reader).collect disk chunkSize world bytes events
        = ⟨.error ⟨.reading, reader.path, cause⟩, file, after, reported⟩ := by
  -- the bytes so far are the front of the content, and every chunk leaves less of it
  have below := Nat.lt_of_le_of_lt within serves.bounded
  have positive := chunkSize.positive
  rw [collect, if_pos below]
  rcases FileReader.read_of_serves serves reaches within positive with
    ⟨next, there, reported, obtained, stands, complete⟩ | ⟨cause, _, _, _, faulty, failed⟩
  · rw [read_disk obtained]
    have size : (content.extract bytes.size (bytes.size + chunkSize.bytes)).size
        = min (bytes.size + chunkSize.bytes) content.size - bytes.size :=
      ByteArray.size_extract
    by_cases nothing : (content.extract bytes.size (bytes.size + chunkSize.bytes)).size = 0
    · have whole : bytes = content := by
        rw [front, Nat.le_antisymm within (by omega), ByteArray.extract_zero_size]
      simp only [ofReader, if_pos nothing]
      exact .inl ⟨complete.resolve_right (by omega), _, _, by rw [whole]⟩
    · have joined := append_extract_of_front front chunkSize.bytes
      have reopened : FileReader.Reaches { reader with handle := some handle } disk next handle
          standsAt := ⟨_, _, _, stands, rfl⟩
      have larger : (content.extract 0 (bytes.size + chunkSize.bytes)).size
          = min (bytes.size + chunkSize.bytes) content.size := by
        rw [ByteArray.size_extract, Nat.sub_zero]
      simp only [ofReader, if_neg nothing, joined]
      exact collect_of_serves serves reopened chunkSize (extract_size_extract content _).symm
        (by omega)
  · rw [read_disk failed]
    exact .inr ⟨cause, _, _, _, faulty, rfl⟩
termination_by content.size - bytes.size
decreasing_by omega

theorem collect_of_read_error {file : FileReader η} {after : σ} {chunkSize : ChunkSize}
    {error : FileError} {reported : Array Event}
    (failed : reader.read disk world 0 chunkSize.bytes = ⟨.error error, file, after, reported⟩) :
    (ByteSource.disk reader).collect disk chunkSize world ByteArray.empty #[]
      = ⟨.error error, .disk file, after, #[] ++ reported⟩ := by
  rw [collect, if_pos (by decide), ByteArray.size_empty, read_disk failed]
  rfl

variable {contents : Except FileError ByteArray}

theorem collect_of_holds (closed : reader.handle = none) (holds : disk.Holds world reader.path contents)
    (chunkSize : ChunkSize) :
    (∃ content handle after reported, contents = .ok content ∧
      (ByteSource.disk reader).collect disk chunkSize world ByteArray.empty #[]
        = ⟨.ok content, .disk { reader with handle := some handle }, after, reported⟩) ∨
    ∃ error file after reported, contents = .error error ∧
      (ByteSource.disk reader).collect disk chunkSize world ByteArray.empty #[]
        = ⟨.error error, file, after, reported⟩ := by
  have front (content : ByteArray) : ByteArray.empty = content.extract 0 ByteArray.empty.size :=
    ByteArray.extract_same.symm
  have reaches {handle : η} {opened : σ} {standsAt : σ → Nat → Prop}
      (found : disk.openFile world reader.path = (.ok handle, opened)) (stands : standsAt opened 0) :
      reader.Reaches disk world handle standsAt :=
    ⟨_, _, _, stands, FileReader.acquire_of_openFile closed found⟩
  cases holds with
  | unopened refused =>
      have failed := FileReader.read_of_unopened closed refused 0 chunkSize.positive
      exact .inr ⟨_, _, _, _, rfl, collect_of_read_error failed⟩
  | unsought found sought =>
      have failed := FileReader.read_of_unsought closed found sought chunkSize.positive
      exact .inr ⟨_, _, _, _, rfl, collect_of_read_error failed⟩
  | unread found serves stands =>
      rcases collect_of_serves serves (reaches found stands) chunkSize (front _) (Nat.zero_le _) with
        ⟨impossible, _⟩ | ⟨_, file, after, reported, same, failed⟩
      · cases impossible
      · cases same
        exact .inr ⟨_, file, after, reported, rfl, failed⟩
  | regular found serves stands =>
      rcases collect_of_serves serves (reaches found stands) chunkSize (front _) (Nat.zero_le _) with
        ⟨_, after, reported, whole⟩ | ⟨_, _, _, _, impossible, _⟩
      · exact .inl ⟨_, _, after, reported, rfl, whole⟩
      · cases impossible

def sourceOf (id : PathId) (path : Path) : Except FileError ByteArray → Except LoadError SourceText
  | .ok content => (SourceText.ofBytes id content).mapError (.text path)
  | .error error => .error (.file error)

theorem load_of_collect {file last : ByteSource η} {chunkSize : ChunkSize} {after : σ}
    {reported : Array Event}
    (collected : file.collect disk chunkSize world ByteArray.empty #[]
      = ⟨contents, last, after, reported⟩) :
    (file.load disk world chunkSize).result = sourceOf last.id last.displayPath contents := by
  rw [load, collected]
  cases contents with
  | error error => rfl
  | ok content =>
      simp only [sourceOf]
      cases SourceText.ofBytes last.id content <;> rfl

theorem load_of_holds (closed : reader.handle = none) (holds : disk.Holds world reader.path contents)
    (chunkSize : ChunkSize) :
    ((ByteSource.disk reader).load disk world chunkSize).result
      = sourceOf reader.id reader.path contents := by
  rcases collect_of_holds closed holds chunkSize with
    ⟨content, handle, after, reported, rfl, collected⟩ | ⟨error, file, after, reported, rfl, failed⟩
  · exact load_of_collect collected
  · exact load_of_collect failed

end ByteSource

end FrontEnd
