import FrontEnd.Log.Event

/-! Access to files. A disk is what an operating system offers: it opens a path, and seeks in,
reads from and closes what it has opened. A read yields some bytes from the current position,
none at the end of the file; it may yield fewer than there is room for, and it may be
interrupted, though not forever. -/

namespace FrontEnd

inductive SeekTarget where
  | position (value : Nat)
  | finish
  deriving DecidableEq

structure Disk (σ η : Type) where
  openFile : σ → Path → Except OsError η × σ
  seek : σ → η → SeekTarget → Except OsError Unit × σ
  read : σ → η → Nat → Except OsError ByteArray × σ
  close : σ → η → σ
  /-- How many interruptions of a read may still follow. -/
  interruptions : σ → η → Nat
  size_read_le : ∀ {world after : σ} {handle : η} {room : Nat} {bytes : ByteArray},
    read world handle room = (.ok bytes, after) → bytes.size ≤ room
  interruptions_read_lt : ∀ {world after : σ} {handle : η} {room : Nat},
    read world handle room = (.error .interrupted, after) →
      interruptions after handle < interruptions world handle

namespace Disk

variable {σ η : Type}

def fill (disk : Disk σ η) (world : σ) (handle : η) (room : Nat) (filled : ByteArray) :
    Except OsError ByteArray × σ :=
  if room = 0 then (.ok filled, world)
  else
    match outcome : disk.read world handle room with
    | (.ok bytes, after) =>
        if bytes.size = 0 then (.ok filled, after)
        else fill disk after handle (room - bytes.size) (filled ++ bytes)
    | (.error .interrupted, after) =>
        have := disk.interruptions_read_lt outcome
        fill disk after handle room filled
    | (.error cause, after) => (.error cause, after)
termination_by (room, disk.interruptions world handle)

/-- Moves to a position. One that no file can have counts as the end of the file. -/
def seekTo (disk : Disk σ η) (world : σ) (handle : η) (position : Nat) :
    Except OsError Unit × σ × Array Event :=
  match disk.seek world handle (.position position) with
  | (.ok (), after) => (.ok (), after, #[])
  | (.error cause, after) =>
      if cause.isOutOfRange then
        let (result, moved) := disk.seek after handle .finish
        (result, moved, #[.seekOutOfRange position cause])
      else (.error cause, after, #[])

end Disk

/-- A buffer with `bytes` in its front and the rest as it was. -/
def overlay (bytes buffer : ByteArray) : ByteArray := bytes ++ buffer.extract bytes.size buffer.size

end FrontEnd
