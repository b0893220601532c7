import FrontEnd.Storage.ByteSource

/-! A file under a history of calls: it is opened, closed and read in any order, at any positions
and into buffers of any size. -/

namespace FrontEnd

inductive FileCall where
  | openFile
  | close
  | read (position : UInt64) (buffer : ByteArray)

inductive FileReply where
  | finished (result : Except FileError Unit)
  | filled (result : Except FileError (Nat × ByteArray))

def Outcome.map {σ φ α β : Type} (outcome : Outcome σ φ α) (change : α → β) : Outcome σ φ β :=
  ⟨change outcome.result, outcome.file, outcome.world, outcome.events⟩

namespace ByteSource

variable {σ η : Type}

def respond (disk : Disk σ η) (world : σ) (file : ByteSource η) :
    FileCall → Outcome σ (ByteSource η) FileReply
  | .openFile => (file.openFile disk world).map .finished
  | .close => (file.close disk world).map fun _ => .finished (.ok ())
  | .read position buffer =>
      (file.read disk world position.toNat buffer.size).map fun result =>
        .filled (result.map fun bytes => (bytes.size, overlay bytes buffer))

def run (disk : Disk σ η) (world : σ) (file : ByteSource η) : List FileCall → List FileReply
  | [] => []
  | call :: calls =>
      let outcome := file.respond disk world call
      outcome.result :: outcome.file.run disk outcome.world calls

end ByteSource

/-- The reply of a file with this content: a read finds the bytes from its position on, as many as
the buffer takes and the content has, and none at its end or beyond. -/
def FileCall.answer (content : ByteArray) : FileCall → FileReply
  | .openFile => .finished (.ok ())
  | .close => .finished (.ok ())
  | .read position buffer =>
      let count := min buffer.size (content.size - position.toNat)
      .filled (.ok (count,
        content.extract position.toNat (position.toNat + count) ++ buffer.extract count buffer.size))

theorem size_extract_count (content : ByteArray) (position room : Nat) :
    (content.extract position (position + room)).size = min room (content.size - position) := by
  rw [ByteArray.size_extract]
  omega

theorem extract_min_size (content : ByteArray) (start stop : Nat) :
    content.extract start (min stop content.size) = content.extract start stop := by
  have clipped : (content.extract 0 content.size).extract start stop
      = content.extract (0 + start) (min (0 + stop) content.size) := ByteArray.extract_extract
  rw [ByteArray.extract_zero_size, Nat.zero_add, Nat.zero_add] at clipped
  exact clipped.symm

theorem extract_eq_empty_of_le {content : ByteArray} {start : Nat} (past : content.size ≤ start)
    (stop : Nat) : content.extract start stop = ByteArray.empty := by
  rw [ByteArray.extract_eq_empty_iff]
  exact Nat.le_trans (Nat.min_le_right _ _) past

theorem extract_count (content : ByteArray) (position room : Nat) :
    content.extract position (position + min room (content.size - position))
      = content.extract position (position + room) := by
  by_cases within : position ≤ content.size
  · have stop : position + min room (content.size - position) = min (position + room) content.size := by
      omega
    rw [stop, extract_min_size]
  · have past : content.size ≤ position := by omega
    rw [extract_eq_empty_of_le past, extract_eq_empty_of_le past]

theorem FileCall.answer_read (content : ByteArray) (position : UInt64) (buffer : ByteArray) :
    FileCall.answer content (.read position buffer)
      = .filled (.ok ((content.extract position.toNat (position.toNat + buffer.size)).size,
          overlay (content.extract position.toNat (position.toNat + buffer.size)) buffer)) := by
  simp only [answer, overlay, size_extract_count, extract_count]

theorem overlay_empty (buffer : ByteArray) : overlay ByteArray.empty buffer = buffer := by
  rw [overlay, ByteArray.size_empty, ByteArray.extract_zero_size, ByteArray.empty_append]

theorem FileCall.answer_vacant (content : ByteArray) (position : UInt64) {buffer : ByteArray}
    (vacant : buffer.size = 0) :
    FileCall.answer content (.read position buffer) = .filled (.ok (0, buffer)) := by
  rw [answer_read, vacant, Nat.add_zero, ByteArray.extract_same, overlay_empty, ByteArray.size_empty]

theorem MemoryFile.read_eq_extract (file : MemoryFile) (position count : Nat) :
    file.read position count = file.bytes.extract position (position + count) := by
  by_cases within : position ≤ file.bytes.size
  · rw [read, size, if_pos within, extract_count]
  · rw [read, size, if_neg within, extract_eq_empty_of_le (by omega)]

theorem FileReader.file_close {σ η : Type} (disk : Disk σ η) (world : σ) (reader : FileReader η) :
    (reader.close disk world).file = { reader with handle := none } := by
  obtain ⟨paths, id, held⟩ := reader
  cases held <;> rfl

namespace ByteSource

variable {σ η : Type} (disk : Disk σ η) (world : σ)

theorem respond_vacant (reader : FileReader η) (position : UInt64) {buffer : ByteArray}
    (vacant : buffer.size = 0) :
    (ByteSource.disk reader).respond disk world (.read position buffer)
      = ⟨.filled (.ok (0, buffer)), .disk reader, world, #[]⟩ := by
  have unread : reader.read disk world position.toNat buffer.size
      = ⟨.ok ByteArray.empty, reader, world, #[]⟩ := by
    rw [FileReader.read, if_pos vacant]
  rw [respond, ByteSource.read, unread]
  simp only [Outcome.map, ofReader, Except.map, overlay_empty, ByteArray.size_empty]

variable (file : MemoryFile)

theorem respond_memory (call : FileCall) :
    (ByteSource.memory file).respond disk world call
      = ⟨call.answer file.bytes, .memory file, world, #[]⟩ := by
  cases call with
  | openFile => rfl
  | close => rfl
  | read position buffer =>
      rw [FileCall.answer_read, ← file.read_eq_extract]
      rfl

theorem run_memory (calls : List FileCall) :
    (ByteSource.memory file).run disk world calls = calls.map (FileCall.answer file.bytes) := by
  induction calls with
  | nil => rfl
  | cons call calls ih => rw [run, respond_memory, ih, List.map_cons]

end ByteSource

end FrontEnd
