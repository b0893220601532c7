import FrontEnd.Proofs.Command.Rows
import FrontEnd.Proofs.Source.Decoding
import FrontEnd.Proofs.Storage.FileSystem
import FrontEnd.Proofs.Token.Reception

/-! What the command that prints tokens writes and returns, for every file and every chunk size. -/

namespace FrontEnd

theorem PathTable.resolve?_intern_empty (path : Path) :
    (empty.intern path).2.resolve? (empty.intern path).1
      = some (if Path.memory.agrees path then Path.memory else path) := by
  by_cases agree : Path.memory.agrees path
  · have found : empty.find? path = some ⟨0⟩ := by simp [find?, empty, PathId.memory, agree]
    simp only [intern, found, agree]
    rfl
  · have missing : empty.find? path = none := by simp [find?, empty, agree]
    simp only [intern, missing, agree]
    rfl

theorem Receiver.takes_printer (written : String) (tokens : List Token) :
    printer.Takes ⟨written, none⟩ tokens ⟨written ++ String.join (tokens.map Token.line), none⟩ := by
  induction tokens generalizing written with
  | nil =>
      rw [List.map_nil, String.join_nil, String.append_empty]
      exact .nil
  | cons token rest ih =>
      rw [List.map_cons, String.join_cons, ← String.append_assoc]
      exact .cons rfl (ih _)

variable {σ η : Type} {disk : Disk σ η} {world : σ} {arguments : LexArguments} {sink : Sink}
variable {id : PathId} {paths : PathTable}

def LexRun.outcome (run : LexRun σ) : Except CommandError Unit × Sink := (run.result, run.sink)

/-- The source that a run loads: the file at the path that stands for the given one. -/
def LexArguments.loaded (arguments : LexArguments) (disk : Disk σ η) (world : σ) :
    Except LoadError SourceText :=
  let (id, paths) := PathTable.empty.intern arguments.path
  ((ByteSource.disk (FileReader.ofId paths id)).load disk world arguments.chunkSize).result

theorem outcome_lexFile (disk : Disk σ η) (world : σ) (arguments : LexArguments) (sink : Sink) :
    (lexFile disk world arguments sink).outcome =
      match arguments.loaded disk world with
      | .error error => (.error (.load error), sink)
      | .ok source =>
          ((source.cursor.tokenize Receiver.printer sink).result,
            (source.cursor.tokenize Receiver.printer sink).state) := by
  rw [lexFile, LexArguments.loaded]
  simp only [LexRun.outcome]
  split <;> simp_all

section Printing

variable {path : Path} {contents : Except FileError ByteArray}
variable (resolved : paths.resolve? id = some path) (holds : disk.Holds world path contents)
include resolved holds

theorem load_result_eq (chunkSize : ChunkSize) :
    ((ByteSource.disk (FileReader.ofId paths id)).load disk world chunkSize).result
      = ByteSource.sourceOf id path contents := by
  have same : (FileReader.ofId paths id : FileReader η).path = path := by
    rw [FileReader.path, FileReader.ofId, PathTable.displayPath, resolved]
    rfl
  rw [← same] at holds
  rw [ByteSource.load_of_holds rfl holds, same]
  rfl

variable (interned : PathTable.empty.intern arguments.path = (id, paths))
include interned

theorem loaded_eq : arguments.loaded disk world = ByteSource.sourceOf id path contents := by
  rw [LexArguments.loaded, interned]
  exact load_result_eq resolved holds arguments.chunkSize

end Printing

end FrontEnd
