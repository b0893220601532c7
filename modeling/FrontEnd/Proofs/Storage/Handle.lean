import FrontEnd.Proofs.Storage.SystemCalls
import FrontEnd.Storage.Load

/-! The handle of a reader. Every operation opens the file at most once, and only if the reader is
closed; it uses no handle but the reader's own; and it leaves the reader closed when it fails. -/

namespace FrontEnd

def errorOf? {ε α : Type} : Except ε α → Option ε
  | .ok _ => none
  | .error error => some error

theorem errorOf?_map {ε α β : Type} (result : Except ε α) (change : α → β) :
    errorOf? (result.map change) = errorOf? result := by
  cases result <;> rfl

namespace FileReader

variable {σ η : Type} {disk : Disk σ η}

/-- What an operation on a reader asks of the disk, and how it leaves the reader. -/
structure Course (disk : Disk σ η) (before : FileReader η) (world : σ) (calls : List (SystemCall η))
    (after : FileReader η) (changed : σ) (failure : Option FileError) : Prop where
  same : after = { before with handle := after.handle }
  makes : disk.Makes world calls changed
  follows : Follows before.path before.handle calls after.handle
  openings : calls.countP SystemCall.isOpening ≤ if before.isOpen then 0 else 1
  failed : ∀ {error}, failure = some error → after.handle = none ∧ error.path = before.path ∧
    SystemCall.lastFailure? calls = some (error.operation, error.cause)

/-- An operation that needs the file: unless it fails, the reader is open after it. -/
structure Service (disk : Disk σ η) (before : FileReader η) (world : σ) (calls : List (SystemCall η))
    (after : FileReader η) (changed : σ) (failure : Option FileError) : Prop
    extends Course disk before world calls after changed failure where
  opened : failure = none → after.handle.isSome

variable {before middle after : FileReader η} {world between changed : σ}
variable {calls later : List (SystemCall η)} {failure : Option FileError}

theorem Course.path_eq (course : Course disk before world calls after changed failure) :
    after.path = before.path := by
  rw [course.same]
  rfl

theorem Course.idle (reader : FileReader η) (world : σ) :
    Course disk reader world [] reader world none where
  same := rfl
  makes := .nil
  follows := .nil
  openings := Nat.zero_le _
  failed := nofun

theorem Service.append (first : Service disk before world calls middle between none)
    (second : Service disk middle between later after changed failure) :
    Service disk before world (calls ++ later) after changed failure where
  same := by
    rw [second.same, first.same]
  makes := first.makes.append second.makes
  follows := first.path_eq ▸ first.follows.append (first.path_eq ▸ second.follows)
  openings := by
    have again := second.openings
    rw [isOpen, first.opened rfl, if_pos rfl] at again
    have once := first.openings
    rw [List.countP_append]
    omega
  failed failing := by
    obtain ⟨closed, named, last⟩ := second.failed failing
    exact ⟨closed, named.trans first.path_eq, SystemCall.lastFailure?_append_of_some last calls⟩
  opened := second.opened

theorem Service.works {handle : η} (service : Service disk before world calls middle between none)
    (held : middle.handle = some handle) (works : disk.Works handle between later changed none) :
    Service disk before world (calls ++ later) middle changed none where
  same := service.same
  makes := service.makes.append works.makes
  follows := by
    have first := service.follows
    rw [held] at first ⊢
    exact first.append (.of_isOn works.isOn)
  openings := by
    rw [List.countP_append, SystemCall.countP_isOpening_of_isOn works.isOn]
    exact service.openings
  failed := nofun
  opened := service.opened

theorem Service.abandon {α : Type} {handle : η} {operation : FileOperation} {cause : OsError}
    (service : Service disk before world calls middle between none) (held : middle.handle = some handle)
    (works : disk.Works handle between later changed (some (operation, cause))) (events : Array Event)
    {outcome : Outcome σ (FileReader η) (Except FileError α)}
    (abandoned : middle.abandon disk changed events operation cause = outcome) :
    Service disk before world (calls ++ later ++ [.close handle]) outcome.file outcome.world
      (errorOf? outcome.result) := by
  rw [FileReader.abandon, close, held] at abandoned
  cases abandoned
  exact {
    same := by rw [service.same]
    makes := (service.makes.append works.makes).append (.singleton rfl)
    follows := by
      have first := service.follows
      rw [held] at first
      exact (first.append (.of_isOn works.isOn)).append (.singleton .closed)
    openings := by
      rw [List.countP_append, List.countP_append, SystemCall.countP_isOpening_of_isOn works.isOn]
      exact service.openings
    failed := by
      rintro error ⟨⟩
      refine ⟨rfl, service.path_eq, ?_⟩
      rw [SystemCall.lastFailure?_append_close]
      exact SystemCall.lastFailure?_append_of_some (works.failed rfl) calls
    opened := nofun }

theorem Service.ofOpening {reader : FileReader η} (closed : reader.handle = none)
    {answer : Except OsError η} (opening : disk.openFile world reader.path = (answer, changed)) :
    Service disk reader world [.openFile reader.path answer] { reader with handle := answer.toOption }
      changed (errorOf? (answer.mapError (reader.fail .opening))) where
  same := rfl
  makes := .singleton opening
  follows := by
    rw [closed]
    cases answer with
    | ok handle => exact .singleton .opened
    | error cause => exact .singleton .refused
  openings := by
    rw [isOpen, closed]
    exact Nat.le_refl 1
  failed := by
    intro error failing
    cases answer with
    | ok handle => cases failing
    | error cause =>
        cases failing
        exact ⟨rfl, rfl, rfl⟩
  opened := by
    intro succeeded
    cases answer with
    | ok handle => rfl
    | error cause => cases succeeded

theorem acquire_service {reader opened : FileReader η} {result : Except FileError η}
    {events : Array Event} (acquired : reader.acquire disk world = ⟨result, opened, changed, events⟩) :
    ∃ calls, Service disk reader world calls opened changed (errorOf? result) ∧
      ∀ handle, result = .ok handle → opened.handle = some handle := by
  rw [acquire] at acquired
  split at acquired
  · rename_i handle held
    cases acquired
    have isOpen : reader.handle.isSome := by rw [held]; rfl
    exact ⟨[], { Course.idle reader world with opened := fun _ => isOpen }, by rintro _ ⟨⟩; exact held⟩
  · rename_i closed
    split at acquired
    · rename_i handle next opening
      cases acquired
      exact ⟨_, Service.ofOpening closed opening, by rintro _ ⟨⟩; rfl⟩
    · rename_i cause next opening
      cases acquired
      have service := Service.ofOpening closed opening
      cases reader
      cases closed
      exact ⟨_, service, by rintro _ ⟨⟩⟩

theorem read_service (disk : Disk σ η) (world : σ) (reader : FileReader η) (position : Nat)
    {count : Nat} (positive : 0 < count) :
    ∃ calls, Service disk reader world calls (reader.read disk world position count).file
      (reader.read disk world position count).world
      (errorOf? (reader.read disk world position count).result) := by
  rw [read, if_neg (Nat.ne_of_gt positive)]
  split
  · rename_i error opened next events acquired
    obtain ⟨calls, service, _⟩ := acquire_service acquired
    exact ⟨calls, service⟩
  · rename_i handle opened next events acquired
    obtain ⟨calls, service, held⟩ := acquire_service acquired
    obtain ⟨seeks, works⟩ := disk.seekTo_works next handle position
    split
    · rename_i cause moved sought outcome
      rw [outcome] at works
      exact ⟨_, service.abandon (held handle rfl) works _ rfl⟩
    · rename_i moved sought outcome
      rw [outcome] at works
      have standing := service.works (held handle rfl) works
      obtain ⟨reads, filling⟩ := disk.fill_works moved handle count ByteArray.empty
      split
      · rename_i cause left filled
        rw [filled] at filling
        exact ⟨_, standing.abandon (held handle rfl) filling _ rfl⟩
      · rename_i bytes left filled
        rw [filled] at filling
        exact ⟨_, standing.works (held handle rfl) filling⟩

theorem openFile_service (disk : Disk σ η) (world : σ) (reader : FileReader η) :
    ∃ calls, Service disk reader world calls (reader.openFile disk world).file
      (reader.openFile disk world).world (errorOf? (reader.openFile disk world).result) := by
  rcases acquired : reader.acquire disk world with ⟨result, opened, next, events⟩
  obtain ⟨calls, service, _⟩ := acquire_service acquired
  rw [FileReader.openFile, acquired]
  exact ⟨calls, (errorOf?_map result fun _ => ()).symm ▸ service⟩

theorem close_course (disk : Disk σ η) (world : σ) (reader : FileReader η) :
    ∃ calls, Course disk reader world calls { reader with handle := none }
      (reader.close disk world).world none := by
  obtain ⟨paths, id, held⟩ := reader
  cases held with
  | none => exact ⟨[], .idle _ _⟩
  | some handle =>
      refine ⟨[.close handle], ?_⟩
      exact {
        same := rfl
        makes := .singleton rfl
        follows := .singleton .closed
        openings := Nat.le_refl 0
        failed := nofun }

end FileReader

namespace ByteSource

variable {σ η : Type}

theorem collect_service (disk : Disk σ η) (chunkSize : ChunkSize) (world : σ) (reader : FileReader η)
    (bytes : ByteArray) (events : Array Event) (ready : bytes.size < positionLimit ∨ reader.isOpen) :
    ∃ after calls,
      ((ByteSource.disk reader).collect disk chunkSize world bytes events).file = .disk after ∧
      reader.Service disk world calls after
        ((ByteSource.disk reader).collect disk chunkSize world bytes events).world
        (errorOf? ((ByteSource.disk reader).collect disk chunkSize world bytes events).result) := by
  rw [collect]
  by_cases below : bytes.size < positionLimit
  · obtain ⟨calls, service⟩ := reader.read_service disk world bytes.size chunkSize.positive
    rcases found : reader.read disk world bytes.size chunkSize.bytes with
      ⟨result, next, after, reported⟩
    rw [found] at service
    simp only [if_pos below, read, found, ofReader]
    cases result with
    | error error => exact ⟨next, calls, rfl, service⟩
    | ok chunk =>
        by_cases nothing : chunk.size = 0
        · simp only [if_pos nothing]
          exact ⟨next, calls, rfl, service⟩
        · simp only [if_neg nothing]
          obtain ⟨last, later, file, rest⟩ := collect_service disk chunkSize after next (bytes ++ chunk)
            (events ++ reported) (.inr (service.opened rfl))
          exact ⟨last, calls ++ later, file, service.append rest⟩
  · have held := ready.resolve_left below
    rw [if_neg below]
    exact ⟨reader, [], rfl, { FileReader.Course.idle reader world with opened := fun _ => held }⟩
termination_by positionLimit - bytes.size
decreasing_by
  rw [ByteArray.size_append]
  omega

def fileErrorOf? {α : Type} : Except LoadError α → Option FileError
  | .error (.file error) => some error
  | _ => none

theorem load_service (disk : Disk σ η) (world : σ) (reader : FileReader η) (chunkSize : ChunkSize) :
    ∃ after calls, ((ByteSource.disk reader).load disk world chunkSize).file = .disk after ∧
      reader.Service disk world calls after
        ((ByteSource.disk reader).load disk world chunkSize).world
        (fileErrorOf? ((ByteSource.disk reader).load disk world chunkSize).result) := by
  obtain ⟨after, calls, file, service⟩ :=
    collect_service disk chunkSize world reader ByteArray.empty #[] (.inl (by decide))
  rcases collected : (ByteSource.disk reader).collect disk chunkSize world ByteArray.empty #[] with
    ⟨result, source, next, events⟩
  rw [collected] at file service
  cases file
  rw [load, collected]
  cases result with
  | error error => exact ⟨after, calls, rfl, service⟩
  | ok bytes =>
      refine ⟨after, calls, rfl, ?_⟩
      dsimp only
      -- bytes that are no text fail the load, yet the file was read
      cases SourceText.ofBytes (ByteSource.disk after).id bytes with
      | ok source => exact service
      | error error => exact service

end ByteSource

end FrontEnd
