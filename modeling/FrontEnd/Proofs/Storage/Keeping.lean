import FrontEnd.Proofs.Storage.Calls
import FrontEnd.Proofs.Storage.Contents

/-! A file on a disk that nobody changes, read through one reader. The handle may stand anywhere in
the file or behind its end, where an earlier call left it, and a seek may be refused where no file
reaches; every read finds what memory with the same content would give. -/

namespace FrontEnd

inductive Sought (content : ByteArray) (position : Nat) : Except OsError Unit → Nat → Prop
  | moved : Sought content position (.ok ()) position
  | refused {cause there} : cause.isOutOfRange = true → content.size < position →
      Sought content position (.error cause) there

/-- Behind some handles a disk has a regular file with this content, which nobody changes: a handle
stands at a position in it, or beyond its end. -/
structure Disk.Stands {σ η : Type} (disk : Disk σ η) (content : ByteArray)
    (standsAt : σ → η → Nat → Prop) : Prop where
  seek : ∀ {world handle here position}, standsAt world handle here →
    position < ByteSource.positionLimit →
    ∃ answer after there, disk.seek world handle (.position position) = (answer, after) ∧
      standsAt after handle there ∧ Sought content position answer there
  seekFinish : ∀ {world handle here}, standsAt world handle here →
    ∃ after, disk.seek world handle .finish = (.ok (), after) ∧ standsAt after handle content.size
  read : ∀ {world handle here room}, standsAt world handle here → 0 < room →
    ∃ answer after there, disk.read world handle room = (answer, after) ∧
      standsAt after handle there ∧ Served content none here answer there
  sized : content.size < ByteSource.positionLimit

/-- Under a path a disk has such a file. It can be opened whenever the world is `calm`, and is calm
again when the handle is closed. -/
structure Disk.Keeps {σ η : Type} (disk : Disk σ η) (path : Path) (content : ByteArray)
    (calm : σ → Prop) (standsAt : σ → η → Nat → Prop) : Prop extends disk.Stands content standsAt where
  openFile : ∀ {world}, calm world →
    ∃ handle after, disk.openFile world path = (.ok handle, after) ∧ standsAt after handle 0
  close : ∀ {world handle here}, standsAt world handle here → calm (disk.close world handle)

namespace Disk.Stands

variable {σ η : Type} {disk : Disk σ η} {content : ByteArray}
variable {standsAt : σ → η → Nat → Prop} {world : σ} {handle : η} {here : Nat}

theorem serves (stands : disk.Stands content standsAt) (handle : η) :
    disk.Serves handle content none
      (fun world here => ∃ place, standsAt world handle place ∧ here = min place content.size) where
  seek := by
    rintro world here position ⟨place, standing, rfl⟩ within
    obtain ⟨answer, after, there, outcome, moved, sought⟩ :=
      stands.seek standing (Nat.lt_of_le_of_lt within stands.sized)
    cases sought with
    | moved => exact ⟨after, outcome, position, moved, (Nat.min_eq_left within).symm⟩
    | refused _ behind => omega
  read := by
    rintro world here room ⟨place, standing, rfl⟩ within positive
    obtain ⟨answer, after, there, outcome, moved, served⟩ := stands.read standing positive
    refine ⟨answer, after, min there content.size, outcome, ⟨there, moved, rfl⟩, ?_⟩
    cases served with
    | part further inside =>
        rw [Nat.min_eq_left inside, Nat.min_eq_left (by omega)]
        exact .part further inside
    | interrupted => exact .interrupted
    | ended _ past => exact .ended rfl (by omega)
    | failed impossible => exact absurd impossible nofun
  lasting := nofun
  bounded := stands.sized

theorem seekTo (stands : disk.Stands content standsAt) (standing : standsAt world handle here)
    {position : Nat} (limited : position < ByteSource.positionLimit) :
    ∃ after there events, disk.seekTo world handle position = (.ok (), after, events) ∧
      standsAt after handle there ∧ min there content.size = min position content.size := by
  obtain ⟨answer, middle, there, outcome, moved, sought⟩ := stands.seek standing limited
  cases sought with
  | moved => exact ⟨middle, position, #[], by rw [Disk.seekTo, outcome], moved, rfl⟩
  | @refused cause _ range behind =>
      obtain ⟨after, recovered, ended⟩ := stands.seekFinish moved
      have atEnd : disk.seekTo world handle position
          = (.ok (), after, #[.seekOutOfRange position cause]) := by
        simp only [Disk.seekTo, outcome, range, if_true, recovered]
      exact ⟨after, content.size, _, atEnd, ended, by omega⟩

theorem fill (stands : disk.Stands content standsAt) (standing : standsAt world handle here)
    {position : Nat} (same : min here content.size = min position content.size) (room : Nat) :
    ∃ after there, standsAt after handle there ∧
      disk.fill world handle room ByteArray.empty
        = (.ok (content.extract position (position + room)), after) := by
  rcases (stands.serves handle).fill ⟨here, standing, rfl⟩ (Nat.min_le_right _ _) room
      ByteArray.empty with
    ⟨after, _, filled, ⟨there, moved, _⟩, _⟩ | ⟨_, _, impossible, _⟩
  · refine ⟨after, there, moved, ?_⟩
    rw [filled, ByteArray.empty_append, same]
    by_cases within : position ≤ content.size
    · rw [Nat.min_eq_left within]
    · rw [extract_eq_empty_of_le (by omega), extract_eq_empty_of_le (by omega)]
  · exact absurd impossible nofun

end Disk.Stands

variable {σ η : Type} {disk : Disk σ η} {content : ByteArray}
variable {calm : σ → Prop} {standsAt : σ → η → Nat → Prop} {world : σ} {reader : FileReader η}
variable {handle : η}

namespace FileReader

theorem read_of_stands (stands : disk.Stands content standsAt)
    (reaches : reader.Reaches disk world handle fun world => standsAt world handle) {position : Nat}
    (limited : position < ByteSource.positionLimit) {count : Nat} (positive : 0 < count) :
    ∃ after there events, reader.read disk world position count
        = ⟨.ok (content.extract position (position + count)), { reader with handle := some handle },
            after, events⟩ ∧
      standsAt after handle there := by
  obtain ⟨opened, here, reported, standing, acquired⟩ := reaches
  obtain ⟨middle, between, passed, sought, moved, same⟩ := stands.seekTo standing limited
  obtain ⟨after, there, left, filled⟩ := stands.fill moved same count
  have found : reader.read disk world position count
      = ⟨.ok (content.extract position (position + count)), { reader with handle := some handle },
          after, (reported ++ passed).push (.readFile reader.id position count
            (content.extract position (position + count)).size)⟩ := by
    rw [read, if_neg (Nat.ne_of_gt positive), acquired]
    simp only [sought, filled]
  exact ⟨after, there, _, found, left⟩

def Rests (reader : FileReader η) (calm : σ → Prop) (standsAt : σ → η → Nat → Prop) (world : σ) :
    Prop :=
  match reader.handle with
  | none => calm world
  | some handle => ∃ here, standsAt world handle here

theorem reaches_of_keeps (keeps : disk.Keeps reader.path content calm standsAt)
    (rests : reader.Rests calm standsAt world) :
    ∃ handle, reader.Reaches disk world handle fun world => standsAt world handle := by
  obtain ⟨paths, id, held⟩ := reader
  cases held with
  | none =>
      obtain ⟨handle, opened, found, standing⟩ := keeps.openFile rests
      exact ⟨handle, opened, 0, _, standing, acquire_of_openFile rfl found⟩
  | some handle =>
      obtain ⟨here, standing⟩ := rests
      exact ⟨handle, world, here, #[], standing, rfl⟩

theorem openFile_of_reaches {standsAt : σ → Nat → Prop}
    (reaches : reader.Reaches disk world handle standsAt) :
    ∃ after here events, reader.openFile disk world
        = ⟨.ok (), { reader with handle := some handle }, after, events⟩ ∧ standsAt after here := by
  obtain ⟨opened, here, events, standing, acquired⟩ := reaches
  exact ⟨opened, here, events, by rw [openFile, acquired]; rfl, standing⟩

theorem calm_close (keeps : disk.Keeps reader.path content calm standsAt)
    (rests : reader.Rests calm standsAt world) : calm (reader.close disk world).world := by
  obtain ⟨paths, id, held⟩ := reader
  cases held with
  | none => exact rests
  | some handle =>
      obtain ⟨here, standing⟩ := rests
      exact keeps.close standing

end FileReader

namespace ByteSource

theorem respond_of_stands (stands : disk.Stands content standsAt)
    (reaches : reader.Reaches disk world handle fun world => standsAt world handle) (call : FileCall) :
    ∃ held after events, (ByteSource.disk reader).respond disk world call
        = ⟨call.answer content, .disk { reader with handle := held }, after, events⟩ ∧
      ((held = some handle ∧ ∃ there, standsAt after handle there) ∨
        (held = none ∧ after = (reader.close disk world).world) ∨
        (held = reader.handle ∧ after = world)) := by
  cases call with
  | openFile =>
      obtain ⟨after, there, events, opened, standing⟩ := FileReader.openFile_of_reaches reaches
      refine ⟨some handle, after, events, ?_, .inl ⟨rfl, there, standing⟩⟩
      rw [respond, ByteSource.openFile, opened]
      rfl
  | close =>
      refine ⟨none, (reader.close disk world).world, (reader.close disk world).events, ?_,
        .inr (.inl ⟨rfl, rfl⟩)⟩
      rw [respond, ByteSource.close, ← reader.file_close disk world]
      rfl
  | read position buffer =>
      by_cases vacant : buffer.size = 0
      · rw [FileCall.answer_vacant content position vacant]
        exact ⟨reader.handle, world, #[], respond_vacant disk world reader position vacant,
          .inr (.inr ⟨rfl, rfl⟩)⟩
      · obtain ⟨after, there, events, found, standing⟩ := FileReader.read_of_stands stands reaches
          position.toNat_lt (Nat.pos_of_ne_zero vacant)
        refine ⟨some handle, after, events, ?_, .inl ⟨rfl, there, standing⟩⟩
        rw [respond, read_disk found, FileCall.answer_read]
        rfl

theorem load_of_stands (stands : disk.Stands content standsAt)
    (reaches : reader.Reaches disk world handle fun world => standsAt world handle)
    (chunkSize : ChunkSize) :
    ((ByteSource.disk reader).load disk world chunkSize).result
      = sourceOf reader.id reader.path (.ok content) := by
  obtain ⟨opened, here, events, standing, acquired⟩ := reaches
  have front : ByteArray.empty = content.extract 0 ByteArray.empty.size := ByteArray.extract_same.symm
  have collects : (none = (none : Option OsError) ∧ ∃ after reported,
      (ByteSource.disk reader).collect disk chunkSize world ByteArray.empty #[]
        = ⟨.ok content, .disk { reader with handle := some handle }, after, reported⟩) ∨ _ :=
    collect_of_serves (stands.serves handle)
      ⟨opened, min here content.size, events, ⟨here, standing, rfl⟩, acquired⟩ chunkSize front
      (Nat.zero_le _)
  rcases collects with ⟨_, after, reported, collected⟩ | ⟨_, _, _, _, impossible, _⟩
  · exact load_of_collect collected
  · cases impossible

theorem respond_of_keeps (keeps : disk.Keeps reader.path content calm standsAt)
    (rests : reader.Rests calm standsAt world) (call : FileCall) :
    ∃ held after events, (ByteSource.disk reader).respond disk world call
        = ⟨call.answer content, .disk { reader with handle := held }, after, events⟩ ∧
      { reader with handle := held }.Rests calm standsAt after := by
  obtain ⟨handle, reaches⟩ := FileReader.reaches_of_keeps keeps rests
  obtain ⟨held, after, events, outcome, left⟩ := respond_of_stands keeps.toStands reaches call
  refine ⟨held, after, events, outcome, ?_⟩
  rcases left with ⟨rfl, standing⟩ | ⟨rfl, rfl⟩ | ⟨rfl, rfl⟩
  · exact standing
  · exact FileReader.calm_close keeps rests
  · exact rests

theorem run_of_keeps (keeps : disk.Keeps reader.path content calm standsAt)
    (rests : reader.Rests calm standsAt world) (calls : List FileCall) :
    (ByteSource.disk reader).run disk world calls = calls.map (FileCall.answer content) := by
  induction calls generalizing reader world with
  | nil => rfl
  | cons call calls ih =>
      obtain ⟨held, after, events, outcome, ready⟩ := respond_of_keeps keeps rests call
      have kept : disk.Keeps { reader with handle := held }.path content calm standsAt := keeps
      rw [run, outcome, ih kept ready, List.map_cons]

end ByteSource

end FrontEnd
