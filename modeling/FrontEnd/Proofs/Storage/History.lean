import FrontEnd.Proofs.Storage.Calls
import FrontEnd.Proofs.Storage.Handle
import FrontEnd.Proofs.Storage.Recording

/-! Histories of one reader while the world around it changes: calls of the reader and loads through
it, with changes by others between them. Each step is kept with the system calls that it made. -/

namespace FrontEnd

inductive FileStep (γ : Type) where
  | call (call : FileCall)
  | load (chunkSize : ChunkSize)
  | change (edit : γ)

def FileStep.needsFile {γ : Type} : FileStep γ → Bool
  | .call .openFile => true
  | .call .close => false
  | .call (.read _ buffer) => buffer.size ≠ 0
  | .load _ => true
  | .change _ => false

inductive StepReply where
  | replied (reply : FileReply)
  | loaded (result : Except LoadError SourceText)
  | changed

def StepReply.error? : StepReply → Option FileError
  | .replied (.finished result) => errorOf? result
  | .replied (.filled result) => errorOf? result
  | .loaded result => ByteSource.fileErrorOf? result
  | .changed => none

structure Record (σ η γ : Type) where
  step : FileStep γ
  world : σ
  before : ByteSource η
  reply : StepReply
  calls : List (SystemCall η)
  changed : σ
  after : ByteSource η

namespace ByteSource

variable {σ η γ : Type}

def handle? : ByteSource η → Option η
  | .memory _ => none
  | .disk reader => reader.handle

def perform (disk : Disk σ η) (alter : γ → σ → σ) (world : σ) (file : ByteSource η) :
    FileStep γ → Outcome σ (ByteSource η) StepReply
  | .call call => (file.respond disk world call).map .replied
  | .load chunkSize => (file.load disk world chunkSize).map .loaded
  | .change edit => ⟨.changed, file, alter edit world, #[]⟩

def besides (alter : γ → σ → σ) (edit : γ) (world : σ × List (SystemCall η)) :
    σ × List (SystemCall η) :=
  (alter edit world.1, world.2)

def record (disk : Disk σ η) (alter : γ → σ → σ) (world : σ) (file : ByteSource η)
    (step : FileStep γ) : Record σ η γ :=
  let outcome := file.perform disk alter world step
  let recorded := file.perform disk.recorded (besides alter) (world, []) step
  ⟨step, world, file, outcome.result, recorded.world.2, outcome.world, outcome.file⟩

def history (disk : Disk σ η) (alter : γ → σ → σ) (world : σ) (file : ByteSource η) :
    List (FileStep γ) → List (Record σ η γ)
  | [] => []
  | step :: steps =>
      let record := file.record disk alter world step
      record :: record.after.history disk alter record.changed steps

theorem respond_recorded (disk : Disk σ η) (world : σ × List (SystemCall η)) (file : ByteSource η)
    (call : FileCall) :
    file.respond disk world.1 call = (file.respond disk.recorded world call).unrecorded := by
  cases call with
  | openFile =>
      rw [respond, openFile_recorded]
      rfl
  | close =>
      rw [respond, close_recorded]
      rfl
  | read position buffer =>
      rw [respond, read_recorded]
      rfl

theorem perform_recorded (disk : Disk σ η) (alter : γ → σ → σ) (world : σ × List (SystemCall η))
    (file : ByteSource η) (step : FileStep γ) :
    file.perform disk alter world.1 step
      = (file.perform disk.recorded (besides alter) world step).unrecorded := by
  cases step with
  | call call =>
      rw [perform, respond_recorded]
      rfl
  | load chunkSize =>
      rw [perform, load_recorded]
      rfl
  | change edit => rfl

theorem record_eq (disk : Disk σ η) (alter : γ → σ → σ) (world : σ) (file : ByteSource η)
    (step : FileStep γ) :
    file.record disk alter world step
      = let outcome := file.perform disk.recorded (besides alter) (world, []) step
        ⟨step, world, file, outcome.result, outcome.world.2, outcome.world.1, outcome.file⟩ := by
  rw [record, file.perform_recorded disk alter (world, []) step]
  rfl

end ByteSource

namespace Record

variable {σ η γ : Type}

/-- What every step of a history keeps to. The path is that of the reader. -/
structure Orderly (disk : Disk σ η) (alter : γ → σ → σ) (path : Path) (record : Record σ η γ) :
    Prop where
  failed : ∀ {error}, record.reply.error? = some error →
    record.after.handle? = none ∧ error.path = path ∧
      SystemCall.lastFailure? record.calls = some (error.operation, error.cause)
  opened : record.step.needsFile = true → record.reply.error? = none → record.after.handle?.isSome
  closed : record.step = .call .close → record.after.handle? = none
  vacant : ∀ {position buffer}, record.step = .call (.read position buffer) → buffer.size = 0 →
    record.reply = .replied (.filled (.ok (0, buffer))) ∧ record.calls = [] ∧
      record.after = record.before ∧ record.changed = record.world
  undisturbed : ∀ {edit}, record.step = .change edit →
    record.calls = [] ∧ record.after = record.before ∧ record.changed = alter edit record.world
  openings : record.calls.countP SystemCall.isOpening ≤ if record.before.handle?.isSome then 0 else 1
  follows : Follows path record.before.handle? record.calls record.after.handle?
  makes : (∀ edit, record.step ≠ .change edit) → disk.Makes record.world record.calls record.changed

variable {disk : Disk σ η} {alter : γ → σ → σ} {reader after : FileReader η} {record : Record σ η γ}

theorem Orderly.ofCourse {calls : List (SystemCall η)}
    (course : reader.Course disk.recorded (record.world, []) calls after
      (record.changed, record.calls) record.reply.error?)
    (before : record.before = .disk reader) (left : record.after = .disk after)
    (opened : record.step.needsFile = true → record.reply.error? = none → after.handle.isSome)
    (closed : record.step = .call .close → after.handle = none)
    (reads : ∀ {position buffer}, record.step = .call (.read position buffer) → 0 < buffer.size)
    (acts : ∀ {edit}, record.step ≠ .change edit) :
    record.Orderly disk alter reader.path := by
  obtain ⟨made, makes⟩ := Disk.makes_of_recorded course.makes
  cases made
  exact {
    failed := by rw [left]; exact course.failed
    opened := by rw [left]; exact opened
    closed := by rw [left]; exact closed
    vacant := fun same empty => absurd empty (Nat.ne_of_gt (reads same))
    undisturbed := fun same => absurd same acts
    openings := by rw [before]; exact course.openings
    follows := by rw [before, left]; exact course.follows
    makes := fun _ => makes }

theorem Orderly.ofChange {world : σ} (edit : γ) :
    Record.Orderly disk alter reader.path
      ⟨.change edit, world, .disk reader, .changed, [], alter edit world, .disk reader⟩ where
  failed := nofun
  opened := nofun
  closed := nofun
  vacant := nofun
  undisturbed := by rintro _ ⟨⟩; exact ⟨rfl, rfl, rfl⟩
  openings := Nat.zero_le _
  follows := .nil
  makes acts := absurd rfl (acts edit)

theorem Orderly.ofVacant {world : σ} (position : UInt64) {buffer : ByteArray}
    (vacant : buffer.size = 0) :
    Record.Orderly disk alter reader.path
      ⟨.call (.read position buffer), world, .disk reader, .replied (.filled (.ok (0, buffer))), [],
        world, .disk reader⟩ where
  failed := nofun
  opened needs := by simp [FileStep.needsFile, vacant] at needs
  closed := nofun
  vacant := by rintro _ _ ⟨⟩ _; exact ⟨rfl, rfl, rfl, rfl⟩
  undisturbed := nofun
  openings := Nat.zero_le _
  follows := .nil
  makes _ := .nil

end Record

namespace ByteSource

variable {σ η γ : Type}

theorem record_vacant (disk : Disk σ η) (alter : γ → σ → σ) (world : σ) (reader : FileReader η)
    (position : UInt64) {buffer : ByteArray} (vacant : buffer.size = 0) :
    (ByteSource.disk reader).record disk alter world (.call (.read position buffer))
      = ⟨.call (.read position buffer), world, .disk reader, .replied (.filled (.ok (0, buffer))), [],
          world, .disk reader⟩ := by
  rw [record_eq, perform, respond_vacant disk.recorded (world, []) reader position vacant]
  rfl

theorem record_orderly (disk : Disk σ η) (alter : γ → σ → σ) (world : σ) (reader : FileReader η)
    (step : FileStep γ) :
    ∃ held, ((ByteSource.disk reader).record disk alter world step).after
        = .disk { reader with handle := held } ∧
      ((ByteSource.disk reader).record disk alter world step).Orderly disk alter reader.path := by
  rw [record_eq]
  cases step with
  | change edit => exact ⟨reader.handle, rfl, .ofChange edit⟩
  | load chunkSize =>
      obtain ⟨after, calls, left, service⟩ := load_service disk.recorded (world, []) reader chunkSize
      exact ⟨after.handle, left.trans (congrArg _ service.same),
        .ofCourse service.toCourse rfl left (fun _ => service.opened) nofun nofun nofun⟩
  | call call =>
      cases call with
      | openFile =>
          obtain ⟨calls, service⟩ := reader.openFile_service disk.recorded (world, [])
          exact ⟨_, congrArg ByteSource.disk service.same,
            .ofCourse service.toCourse rfl rfl (fun _ => service.opened) nofun nofun nofun⟩
      | close =>
          obtain ⟨calls, course⟩ := reader.close_course disk.recorded (world, [])
          have left := congrArg ByteSource.disk (reader.file_close disk.recorded (world, []))
          exact ⟨none, left, .ofCourse course rfl left nofun (fun _ => rfl) nofun nofun⟩
      | read position buffer =>
          by_cases vacant : buffer.size = 0
          · rw [← record_eq, record_vacant disk alter world reader position vacant]
            exact ⟨reader.handle, rfl, .ofVacant position vacant⟩
          · have positive := Nat.pos_of_ne_zero vacant
            obtain ⟨calls, service⟩ :=
              reader.read_service disk.recorded (world, []) position.toNat positive
            rw [← errorOf?_map _ fun bytes => (bytes.size, overlay bytes buffer)] at service
            exact ⟨_, congrArg ByteSource.disk service.same,
              .ofCourse service.toCourse rfl rfl (fun _ => service.opened) nofun
                (by rintro _ _ ⟨⟩; exact positive) nofun⟩

theorem map_step_history (disk : Disk σ η) (alter : γ → σ → σ) (world : σ) (file : ByteSource η)
    (steps : List (FileStep γ)) : (file.history disk alter world steps).map Record.step = steps := by
  induction steps generalizing world file with
  | nil => rfl
  | cons step steps ih =>
      rw [history, List.map_cons, ih]
      rfl

variable {disk : Disk σ η} {alter : γ → σ → σ} {paths : PathTable} {id : PathId}

theorem history_induction {motive : List (Record σ η γ) → σ → Option η → Prop}
    (next : ∀ {passed world held} (step : FileStep γ) (record : Record σ η γ),
      (ByteSource.disk ⟨paths, id, held⟩).record disk alter world step = record →
      motive passed world held → motive (passed ++ [record]) record.changed record.after.handle?)
    {passed : List (Record σ η γ)} {world : σ} {held : Option η} (start : motive passed world held)
    {steps : List (FileStep γ)} {earlier later : List (Record σ η γ)} {record : Record σ η γ}
    (split : (ByteSource.disk ⟨paths, id, held⟩).history disk alter world steps
      = earlier ++ record :: later) :
    ∃ world held step, motive (passed ++ earlier) world held ∧
      (ByteSource.disk ⟨paths, id, held⟩).record disk alter world step = record := by
  induction earlier generalizing passed world held steps with
  | nil =>
      cases steps with
      | nil => cases split
      | cons step steps =>
          cases split
          exact ⟨world, held, step, (List.append_nil passed).symm ▸ start, rfl⟩
  | cons first earlier ih =>
      cases steps with
      | nil => cases split
      | cons step steps =>
          obtain ⟨after, left, _⟩ := record_orderly disk alter world ⟨paths, id, held⟩ step
          rw [history, List.cons_append, List.cons.injEq] at split
          obtain ⟨made, rest⟩ := split
          have further := next step first made start
          rw [made] at left rest
          rw [left] at rest further
          have found := ih further rest
          rwa [List.append_assoc] at found

/-- Every step of every history is orderly, and the calls up to it are those of one who starts with
the handle of the reader and arrives at the handle that the step finds. -/
theorem history_orderly {held : Option η} {world : σ} {steps : List (FileStep γ)}
    {earlier later : List (Record σ η γ)} {record : Record σ η γ}
    (split : (ByteSource.disk ⟨paths, id, held⟩).history disk alter world steps
      = earlier ++ record :: later) :
    record.Orderly disk alter (paths.displayPath id) ∧
      Follows (paths.displayPath id) held (earlier.flatMap Record.calls) record.before.handle? := by
  have orderly (world : σ) (held : Option η) (step : FileStep γ) :
      ((ByteSource.disk ⟨paths, id, held⟩).record disk alter world step).Orderly disk alter
        (paths.displayPath id) := by
    obtain ⟨_, _, orderly⟩ := record_orderly disk alter world ⟨paths, id, held⟩ step
    exact orderly
  have start : Follows (paths.displayPath id) held
      (List.flatMap Record.calls ([] : List (Record σ η γ))) held := .nil
  have next {passed : List (Record σ η γ)} {world : σ} {found : Option η} (step : FileStep γ)
      (record : Record σ η γ)
      (made : (ByteSource.disk ⟨paths, id, found⟩).record disk alter world step = record)
      (follows : Follows (paths.displayPath id) held (passed.flatMap Record.calls) found) :
      Follows (paths.displayPath id) held ((passed ++ [record]).flatMap Record.calls)
        record.after.handle? := by
    cases made
    rw [List.flatMap_append, List.flatMap_singleton]
    exact follows.append (orderly world found step).follows
  obtain ⟨world, found, step, follows, rfl⟩ :=
    history_induction (motive := fun passed _ found =>
      Follows (paths.displayPath id) held (passed.flatMap Record.calls) found) next start split
  exact ⟨orderly world found step, follows⟩

end ByteSource

end FrontEnd
