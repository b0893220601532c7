import FrontEnd.Proofs.Storage.SystemCalls
import FrontEnd.Storage.Load

/-! To record the calls of a disk changes nothing else: every operation has the same result, and
leaves the same file and the same world behind. -/

namespace FrontEnd

variable {σ η : Type}

def Outcome.unrecorded {φ α : Type} (outcome : Outcome (σ × List (SystemCall η)) φ α) :
    Outcome σ φ α :=
  ⟨outcome.result, outcome.file, outcome.world.1, outcome.events⟩

namespace Disk

variable (disk : Disk σ η) (world : σ × List (SystemCall η)) (handle : η)

theorem read_of_recorded {world after : σ × List (SystemCall η)} {room : Nat}
    {answer : Except OsError ByteArray} {disk : Disk σ η} {handle : η}
    (outcome : disk.recorded.read world handle room = (answer, after)) :
    disk.read world.1 handle room = (answer, after.1) := by
  cases outcome
  rfl

theorem fill_eq_of_read (disk : Disk σ η) (world : σ) {room : Nat} (vacant : ¬room = 0)
    (filled : ByteArray) :
    disk.fill world handle room filled
      = match disk.read world handle room with
        | (.ok bytes, after) =>
            if bytes.size = 0 then (.ok filled, after)
            else disk.fill after handle (room - bytes.size) (filled ++ bytes)
        | (.error cause, after) =>
            if cause = .interrupted then disk.fill after handle room filled
            else (.error cause, after) := by
  rw [fill, if_neg vacant]
  split
  · rename_i bytes after found
    rw [found]
  · rename_i after found
    simp only [found, if_true]
  · rename_i cause after lasting found
    simp only [found, if_neg lasting]

theorem fill_recorded (room : Nat) (filled : ByteArray) :
    disk.fill world.1 handle room filled
      = ((disk.recorded.fill world handle room filled).1,
          (disk.recorded.fill world handle room filled).2.1) := by
  fun_induction Disk.fill disk.recorded world handle room filled with
  | case1 world filled => rw [fill, if_pos rfl]
  | case2 world room filled vacant bytes after outcome nothing =>
      rw [fill_eq_of_read handle disk world.1 vacant, read_of_recorded outcome]
      exact if_pos nothing
  | case3 world room filled vacant bytes after outcome more ih =>
      rw [fill_eq_of_read handle disk world.1 vacant, read_of_recorded outcome, ← ih]
      exact if_neg more
  | case4 world room filled vacant after outcome closer ih =>
      rw [fill_eq_of_read handle disk world.1 vacant, read_of_recorded outcome, ← ih]
      exact if_pos rfl
  | case5 world room filled vacant cause after lasting outcome =>
      rw [fill_eq_of_read handle disk world.1 vacant, read_of_recorded outcome]
      exact if_neg lasting

theorem seekTo_recorded (position : Nat) :
    disk.seekTo world.1 handle position
      = ((disk.recorded.seekTo world handle position).1,
          (disk.recorded.seekTo world handle position).2.1.1,
          (disk.recorded.seekTo world handle position).2.2) := by
  rcases sought : disk.seek world.1 handle (.position position) with ⟨cause | done, after⟩
  · by_cases range : cause.isOutOfRange = true
    · simp only [seekTo, recorded, sought, if_pos range]
    · simp only [seekTo, recorded, sought, if_neg range]
  · simp only [seekTo, recorded, sought]

end Disk

namespace FileReader

variable (disk : Disk σ η) (world : σ × List (SystemCall η)) (reader : FileReader η)

theorem acquire_recorded :
    reader.acquire disk world.1 = (reader.acquire disk.recorded world).unrecorded := by
  cases held : reader.handle with
  | some handle => simp only [acquire, held, Outcome.unrecorded]
  | none =>
      rcases opening : disk.openFile world.1 reader.path with ⟨cause | handle, after⟩
      · simp only [acquire, held, Disk.recorded, opening, Outcome.unrecorded]
      · simp only [acquire, held, Disk.recorded, opening, Outcome.unrecorded]

theorem openFile_recorded :
    reader.openFile disk world.1 = (reader.openFile disk.recorded world).unrecorded := by
  rw [openFile, acquire_recorded]
  rfl

theorem close_recorded :
    reader.close disk world.1 = (reader.close disk.recorded world).unrecorded := by
  cases held : reader.handle with
  | some handle => simp only [close, held, Outcome.unrecorded, Disk.recorded]
  | none => simp only [close, held, Outcome.unrecorded]

theorem abandon_recorded {α : Type} (events : Array Event) (operation : FileOperation)
    (cause : OsError) :
    (reader.abandon disk world.1 events operation cause : Outcome σ _ (Except FileError α))
      = (reader.abandon disk.recorded world events operation cause).unrecorded := by
  rw [abandon, close_recorded]
  rfl

theorem read_recorded (position count : Nat) :
    reader.read disk world.1 position count
      = (reader.read disk.recorded world position count).unrecorded := by
  by_cases vacant : count = 0
  · simp only [read, if_pos vacant, Outcome.unrecorded]
  · rw [read, read, if_neg vacant, if_neg vacant, acquire_recorded]
    rcases reader.acquire disk.recorded world with ⟨error | handle, opened, next, events⟩
    · rfl
    · simp only [Outcome.unrecorded, Disk.seekTo_recorded]
      rcases disk.recorded.seekTo next handle position with ⟨cause | done, moved, sought⟩
      · exact opened.abandon_recorded disk moved (events ++ sought) .seeking cause
      · simp only [Disk.fill_recorded]
        rcases disk.recorded.fill moved handle count ByteArray.empty with ⟨cause | bytes, left⟩
        · exact opened.abandon_recorded disk left (events ++ sought) .reading cause
        · rfl

end FileReader

namespace ByteSource

variable (disk : Disk σ η) (file : ByteSource η)

theorem openFile_recorded (world : σ × List (SystemCall η)) :
    file.openFile disk world.1 = (file.openFile disk.recorded world).unrecorded := by
  cases file with
  | memory held => rfl
  | disk reader => exact congrArg ofReader (reader.openFile_recorded disk world)

theorem close_recorded (world : σ × List (SystemCall η)) :
    file.close disk world.1 = (file.close disk.recorded world).unrecorded := by
  cases file with
  | memory held => rfl
  | disk reader => exact congrArg ofReader (reader.close_recorded disk world)

theorem read_recorded (world : σ × List (SystemCall η)) (position count : Nat) :
    file.read disk world.1 position count
      = (file.read disk.recorded world position count).unrecorded := by
  cases file with
  | memory held => rfl
  | disk reader => exact congrArg ofReader (reader.read_recorded disk world position count)

theorem collect_recorded (disk : Disk σ η) (file : ByteSource η) (chunkSize : ChunkSize)
    (world : σ × List (SystemCall η)) (bytes : ByteArray) (events : Array Event) :
    file.collect disk chunkSize world.1 bytes events
      = (file.collect disk.recorded chunkSize world bytes events).unrecorded := by
  rw [collect, collect]
  by_cases below : bytes.size < positionLimit
  · rw [if_pos below, if_pos below, read_recorded]
    rcases file.read disk.recorded world bytes.size chunkSize.bytes with
      ⟨error | chunk, next, after, reported⟩
    · rfl
    · simp only [Outcome.unrecorded]
      by_cases nothing : chunk.size = 0
      · simp only [if_pos nothing]
      · simp only [if_neg nothing]
        exact collect_recorded disk next chunkSize after (bytes ++ chunk) (events ++ reported)
  · rw [if_neg below, if_neg below]
    rfl
termination_by positionLimit - bytes.size
decreasing_by
  rw [ByteArray.size_append]
  omega

theorem load_recorded (chunkSize : ChunkSize) (world : σ × List (SystemCall η)) :
    file.load disk world.1 chunkSize = (file.load disk.recorded world chunkSize).unrecorded := by
  rw [load, load, collect_recorded]
  rcases file.collect disk.recorded chunkSize world ByteArray.empty #[] with
    ⟨error | bytes, next, after, events⟩
  · rfl
  · rfl

end ByteSource

end FrontEnd
