import FrontEnd.Proofs.Storage.Contents

/-! What is asked of an operating system. A disk can keep a record of it, and the record tells which
calls were made on which handle, in what order, and what came back. -/

namespace FrontEnd

inductive SystemCall (η : Type) where
  | openFile (path : Path) (answer : Except OsError η)
  | seek (handle : η) (target : SeekTarget) (answer : Except OsError Unit)
  | read (handle : η) (room : Nat) (answer : Except OsError ByteArray)
  | close (handle : η)

namespace SystemCall

variable {η : Type}

def isOpening : SystemCall η → Bool
  | .openFile _ _ => true
  | _ => false

def failure? : SystemCall η → Option (FileOperation × OsError)
  | .openFile _ (.error cause) => some (.opening, cause)
  | .seek _ _ (.error cause) => some (.seeking, cause)
  | .read _ _ (.error cause) => some (.reading, cause)
  | _ => none

def lastFailure? (calls : List (SystemCall η)) : Option (FileOperation × OsError) :=
  (calls.filterMap failure?).getLast?

def IsOn (handle : η) : SystemCall η → Prop
  | .seek moved _ _ => moved = handle
  | .read moved _ _ => moved = handle
  | _ => False

/-- How one who holds a handle, or none, may go on: open the path while none is held, and seek in,
read from and close the held one. -/
inductive Moves (path : Path) : Option η → SystemCall η → Option η → Prop
  | opened {handle} : Moves path none (.openFile path (.ok handle)) (some handle)
  | refused {cause} : Moves path none (.openFile path (.error cause)) none
  | sought {handle target answer} :
      Moves path (some handle) (.seek handle target answer) (some handle)
  | read {handle room answer} : Moves path (some handle) (.read handle room answer) (some handle)
  | closed {handle} : Moves path (some handle) (.close handle) none

theorem lastFailure?_append_of_some {calls : List (SystemCall η)}
    {failure : FileOperation × OsError} (last : lastFailure? calls = some failure)
    (earlier : List (SystemCall η)) : lastFailure? (earlier ++ calls) = some failure := by
  rw [lastFailure?] at last ⊢
  rw [List.filterMap_append, List.getLast?_append, last]
  rfl

theorem lastFailure?_append_close (calls : List (SystemCall η)) (handle : η) :
    lastFailure? (calls ++ [.close handle]) = lastFailure? calls := by
  rw [lastFailure?, List.filterMap_append]
  exact congrArg List.getLast? (List.append_nil _)

theorem countP_isOpening_of_isOn {handle : η} {calls : List (SystemCall η)}
    (uses : ∀ call ∈ calls, call.IsOn handle) : calls.countP isOpening = 0 := by
  rw [List.countP_eq_zero]
  intro call member opens
  cases call with
  | openFile path answer => exact uses _ member
  | seek moved target answer => cases opens
  | read moved room answer => cases opens
  | close moved => cases opens

end SystemCall

inductive Follows {η : Type} (path : Path) : Option η → List (SystemCall η) → Option η → Prop
  | nil {held} : Follows path held [] held
  | cons {held next last call calls} : call.Moves path held next →
      Follows path next calls last → Follows path held (call :: calls) last

namespace Follows

variable {η : Type} {path : Path} {held next last : Option η} {calls later : List (SystemCall η)}

theorem append (first : Follows path held calls next) (second : Follows path next later last) :
    Follows path held (calls ++ later) last := by
  induction first with
  | nil => exact second
  | cons moves _ ih => exact .cons moves (ih second)

theorem singleton {call : SystemCall η} (moves : call.Moves path held next) :
    Follows path held [call] next :=
  .cons moves .nil

theorem of_isOn {handle : η} (uses : ∀ call ∈ calls, call.IsOn handle) :
    Follows path (some handle) calls (some handle) := by
  induction calls with
  | nil => exact .nil
  | cons call calls ih =>
      have first := uses call List.mem_cons_self
      have rest := ih fun later member => uses later (List.mem_cons_of_mem call member)
      cases call with
      | openFile path answer => exact absurd first id
      | close moved => exact absurd first id
      | seek moved target answer =>
          cases first
          exact .cons .sought rest
      | read moved room answer =>
          cases first
          exact .cons .read rest

end Follows

namespace Disk

variable {σ η : Type}

def Gives (disk : Disk σ η) (world : σ) : SystemCall η → σ → Prop
  | .openFile path answer, after => disk.openFile world path = (answer, after)
  | .seek handle target answer, after => disk.seek world handle target = (answer, after)
  | .read handle room answer, after => disk.read world handle room = (answer, after)
  | .close handle, after => disk.close world handle = after

inductive Makes (disk : Disk σ η) : σ → List (SystemCall η) → σ → Prop
  | nil {world} : disk.Makes world [] world
  | cons {world next after call calls} : disk.Gives world call next → disk.Makes next calls after →
      disk.Makes world (call :: calls) after

/-- The disk with a record of its calls. -/
def recorded (disk : Disk σ η) : Disk (σ × List (SystemCall η)) η where
  openFile world path :=
    let (answer, after) := disk.openFile world.1 path
    (answer, after, world.2 ++ [.openFile path answer])
  seek world handle target :=
    let (answer, after) := disk.seek world.1 handle target
    (answer, after, world.2 ++ [.seek handle target answer])
  read world handle room :=
    let (answer, after) := disk.read world.1 handle room
    (answer, after, world.2 ++ [.read handle room answer])
  close world handle := (disk.close world.1 handle, world.2 ++ [.close handle])
  interruptions world handle := disk.interruptions world.1 handle
  size_read_le := by
    rintro ⟨world, record⟩ ⟨after, longer⟩ handle room bytes outcome
    simp only [Prod.mk.injEq] at outcome
    exact disk.size_read_le (Prod.ext outcome.1 outcome.2.1)
  interruptions_read_lt := by
    rintro ⟨world, record⟩ ⟨after, longer⟩ handle room outcome
    simp only [Prod.mk.injEq] at outcome
    exact disk.interruptions_read_lt (Prod.ext outcome.1 outcome.2.1)

variable {disk : Disk σ η}

theorem Makes.append {world middle after : σ} {calls later : List (SystemCall η)}
    (first : disk.Makes world calls middle) (second : disk.Makes middle later after) :
    disk.Makes world (calls ++ later) after := by
  induction first with
  | nil => exact second
  | cons gives _ ih => exact .cons gives (ih second)

theorem Makes.singleton {world after : σ} {call : SystemCall η} (gives : disk.Gives world call after) :
    disk.Makes world [call] after :=
  .cons gives .nil

theorem gives_of_recorded {world after : σ} {record longer : List (SystemCall η)} {call : SystemCall η}
    (gives : disk.recorded.Gives (world, record) call (after, longer)) :
    longer = record ++ [call] ∧ disk.Gives world call after := by
  cases call with
  | close handle =>
      cases gives
      exact ⟨rfl, rfl⟩
  | _ =>
      simp only [Gives, recorded, Prod.mk.injEq] at gives
      obtain ⟨rfl, rfl, rfl⟩ := gives
      exact ⟨rfl, rfl⟩

/-- The record is what was asked, and to keep it changes no answer. -/
theorem makes_of_recorded {start stop : σ × List (SystemCall η)} {calls : List (SystemCall η)}
    (makes : disk.recorded.Makes start calls stop) :
    stop.2 = start.2 ++ calls ∧ disk.Makes start.1 calls stop.1 := by
  induction makes with
  | nil => exact ⟨(List.append_nil _).symm, .nil⟩
  | cons gives _ ih =>
      obtain ⟨longer, same⟩ := gives_of_recorded gives
      exact ⟨by rw [ih.1, longer, List.append_assoc]; rfl, .cons same ih.2⟩

structure Works (disk : Disk σ η) (handle : η) (world : σ) (calls : List (SystemCall η)) (after : σ)
    (failure : Option (FileOperation × OsError)) : Prop where
  makes : disk.Makes world calls after
  isOn : ∀ call ∈ calls, call.IsOn handle
  failed : ∀ {last}, failure = some last → SystemCall.lastFailure? calls = some last

theorem Works.nil (handle : η) (world : σ) : disk.Works handle world [] world none where
  makes := .nil
  isOn call member := absurd member List.not_mem_nil
  failed last := by cases last

theorem Works.single {handle : η} {world after : σ} (call : SystemCall η)
    (gives : disk.Gives world call after) (isOn : call.IsOn handle) :
    disk.Works handle world [call] after call.failure? where
  makes := .singleton gives
  isOn other member := List.mem_singleton.mp member ▸ isOn
  failed last := by
    rw [SystemCall.lastFailure?, List.filterMap_cons, last]
    rfl

theorem Works.append {handle : η} {world middle after : σ} {calls later : List (SystemCall η)}
    {earlier failure : Option (FileOperation × OsError)}
    (first : disk.Works handle world calls middle earlier)
    (second : disk.Works handle middle later after failure) :
    disk.Works handle world (calls ++ later) after failure where
  makes := first.makes.append second.makes
  isOn call member := (List.mem_append.mp member).elim (first.isOn call) (second.isOn call)
  failed last := SystemCall.lastFailure?_append_of_some (second.failed last) calls

def failureOf {α : Type} (operation : FileOperation) :
    Except OsError α → Option (FileOperation × OsError)
  | .ok _ => none
  | .error cause => some (operation, cause)

theorem seek_works {world after : σ} {handle : η} {target : SeekTarget} {answer : Except OsError Unit}
    (sought : disk.seek world handle target = (answer, after)) :
    disk.Works handle world [.seek handle target answer] after (failureOf .seeking answer) := by
  have single : disk.Works handle world _ after _ :=
    Works.single (.seek handle target answer) sought rfl
  cases answer <;> exact single

theorem read_works {world after : σ} {handle : η} {room : Nat} {answer : Except OsError ByteArray}
    (outcome : disk.read world handle room = (answer, after)) :
    disk.Works handle world [.read handle room answer] after (failureOf .reading answer) := by
  have single : disk.Works handle world _ after _ :=
    Works.single (.read handle room answer) outcome rfl
  cases answer <;> exact single

theorem seekTo_works (disk : Disk σ η) (world : σ) (handle : η) (position : Nat) :
    ∃ calls, disk.Works handle world calls (disk.seekTo world handle position).2.1
      (failureOf .seeking (disk.seekTo world handle position).1) := by
  rcases sought : disk.seek world handle (.position position) with ⟨answer, middle⟩
  have first := seek_works sought
  cases answer with
  | ok done => exact ⟨_, by simpa only [seekTo, sought] using first⟩
  | error cause =>
      by_cases range : cause.isOutOfRange = true
      · rcases ended : disk.seek middle handle .finish with ⟨outcome, after⟩
        have both := first.append (seek_works ended)
        exact ⟨_, by simpa only [seekTo, sought, if_pos range, ended] using both⟩
      · exact ⟨_, by simpa only [seekTo, sought, if_neg range] using first⟩

theorem fill_works (disk : Disk σ η) (world : σ) (handle : η) (room : Nat) (filled : ByteArray) :
    ∃ calls, disk.Works handle world calls (disk.fill world handle room filled).2
      (failureOf .reading (disk.fill world handle room filled).1) := by
  fun_induction Disk.fill disk world handle room filled with
  | case1 world filled => exact ⟨[], .nil handle world⟩
  | case2 world room filled vacant bytes after outcome nothing =>
      have probe := read_works outcome
      exact ⟨_, probe⟩
  | case3 world room filled vacant bytes after outcome more ih =>
      obtain ⟨calls, rest⟩ := ih
      exact ⟨_, (read_works outcome).append rest⟩
  | case4 world room filled vacant after outcome closer ih =>
      obtain ⟨calls, rest⟩ := ih
      exact ⟨_, (read_works outcome).append rest⟩
  | case5 world room filled vacant cause after lasting outcome => exact ⟨_, read_works outcome⟩

end Disk

end FrontEnd
