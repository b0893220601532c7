import FrontEnd.Path.Table
import FrontEnd.Proofs.Path.Agreement
import Mathlib

/-! Tables of interned paths, after any calls. A table lists the first spelling of every path that
it was given, in the order in which they came, as far as there are numbers; the number of a path
is the place of that spelling, and no later call changes it. What the table keeps for the way from
a path to its number and what it keeps for the way back always belong together. -/

namespace FrontEnd

inductive Registration where
  | tryIntern (path : Path)
  | intern (path : Path)

def Registration.path : Registration → Path
  | .tryIntern path => path
  | .intern path => path

namespace PathTable

def register (table : PathTable) : Registration → Except PathTableError PathId × PathTable
  | .tryIntern path =>
      match table.tryIntern path with
      | .ok (id, after) => (.ok id, after)
      | .error error => (.error error, table)
  | .intern path =>
      match table.tryIntern path with
      | .ok _ => (.ok (table.intern path).1, (table.intern path).2)
      | .error error => (.error error, table)

def run (table : PathTable) : List Registration → List (Except PathTableError PathId) × PathTable
  | [] => ([], table)
  | call :: rest =>
      let (answer, next) := table.register call
      let (answers, last) := next.run rest
      (answer :: answers, last)

def IsNew (table : PathTable) (path : Path) : Prop :=
  ∀ id spelling, table.resolve? id = some spelling → spelling.agrees path = false

/-- What a call may do: give the number of a spelling that agrees, give the next number to a new
path, or refuse a new path because every number is taken. -/
inductive Registers (table : PathTable) (path : Path) :
    Except PathTableError PathId → PathTable → Prop
  | known {id spelling} : table.resolve? id = some spelling → spelling.agrees path = true →
      Registers table path (.ok id) table
  | added {id : PathId} : table.IsNew path → table.size < capacity → id.index.toNat = table.size →
      Registers table path (.ok id) ⟨(path, id) :: table.numbers, table.paths.push path⟩
  | full : table.IsNew path → table.size = capacity →
      Registers table path (.error (.overflow capacity)) table

/-- The two ways of a table are inverse to each other: a path finds a number exactly if it agrees
with the spelling that the number stands for. -/
structure Coherent (table : PathTable) : Prop where
  size_le : table.size ≤ capacity
  numbered : ∀ path id, table.find? path = some id ↔
    ∃ spelling, table.resolve? id = some spelling ∧ spelling.agrees path = true

section

variable {table : PathTable}

theorem resolve?_eq (table : PathTable) (id : PathId) :
    table.resolve? id = table.paths.toList[id.index.toNat]? := by
  rw [resolve?, Array.getElem?_toList]

theorem resolve?_eq_none_iff {id : PathId} :
    table.resolve? id = none ↔ table.size ≤ id.index.toNat :=
  Array.getElem?_eq_none_iff

theorem index_lt_of_resolve? {id : PathId} {spelling : Path}
    (resolved : table.resolve? id = some spelling) : id.index.toNat < table.size :=
  (Array.getElem?_eq_some_iff.mp resolved).1

theorem find?_cons (table : PathTable) (paths : Array Path) (first path : Path) (id : PathId) :
    PathTable.find? ⟨(first, id) :: table.numbers, paths⟩ path
      = if first.agrees path then some id else table.find? path := by
  rw [find?, find?, List.find?_cons]
  cases first.agrees path <;> rfl

theorem resolve?_push (numbers : List (Path × PathId)) (path : Path) (id : PathId) :
    PathTable.resolve? ⟨numbers, table.paths.push path⟩ id
      = if id.index.toNat = table.size then some path else table.resolve? id :=
  Array.getElem?_push

theorem toNat_toUInt32_of_lt {index : Nat} (numbered : index < capacity) :
    index.toUInt32.toNat = index :=
  UInt32.toNat_ofNat_of_lt' numbered

theorem isNew_iff_of_size_le {path : Path} (bounded : table.size ≤ capacity) :
    table.IsNew path ↔ ∀ spelling ∈ table.paths, spelling.agrees path = false := by
  constructor
  · intro fresh spelling listed
    obtain ⟨index, inside, rfl⟩ := Array.getElem_of_mem listed
    refine fresh ⟨index.toUInt32⟩ _ ?_
    rw [resolve?, toNat_toUInt32_of_lt (Nat.lt_of_lt_of_le inside bounded),
      Array.getElem?_eq_getElem inside]
  · intro absent id spelling resolved
    exact absent spelling (Array.mem_of_getElem? resolved)

theorem Coherent.find?_eq_none_iff (coherent : table.Coherent) {path : Path} :
    table.find? path = none ↔ table.IsNew path := by
  constructor
  · intro absent id spelling resolved
    rw [Bool.eq_false_iff]
    intro agree
    rw [(coherent.numbered path id).mpr ⟨spelling, resolved, agree⟩] at absent
    cases absent
  · intro fresh
    cases found : table.find? path with
    | none => rfl
    | some id =>
        obtain ⟨spelling, resolved, agree⟩ := (coherent.numbered path id).mp found
        rw [fresh id spelling resolved] at agree
        cases agree

/-! What one call does. -/

theorem tryIntern_of_find? {path : Path} {id : PathId} (found : table.find? path = some id) :
    table.tryIntern path = .ok (id, table) := by
  simp [tryIntern, intern, found]

theorem tryIntern_of_room {path : Path} (absent : table.find? path = none)
    (room : table.size < capacity) :
    table.tryIntern path = .ok (⟨table.size.toUInt32⟩,
      ⟨(path, ⟨table.size.toUInt32⟩) :: table.numbers, table.paths.push path⟩) := by
  simp [tryIntern, intern, absent, Nat.not_le.mpr room]

theorem tryIntern_of_full {path : Path} (absent : table.find? path = none)
    (full : capacity ≤ table.size) : table.tryIntern path = .error (.overflow table.size) := by
  simp [tryIntern, absent, full]

theorem tryIntern_eq_error_iff {path : Path} (coherent : table.Coherent)
    (error : PathTableError) :
    table.tryIntern path = .error error ↔
      error = .overflow capacity ∧ table.IsNew path ∧ table.size = capacity := by
  rw [← coherent.find?_eq_none_iff]
  cases found : table.find? path with
  | some id => simp [tryIntern_of_find? found]
  | none =>
      by_cases room : table.size < capacity
      · simp [tryIntern_of_room found room, Nat.ne_of_lt room]
      · have full : table.size = capacity := Nat.le_antisymm coherent.size_le (Nat.not_lt.mp room)
        rw [tryIntern_of_full found (Nat.not_lt.mp room), full]
        simp [eq_comm]

theorem register_eq (table : PathTable) (call : Registration) :
    table.register call = match table.tryIntern call.path with
      | .ok (id, after) => (.ok id, after)
      | .error error => (.error error, table) := by
  cases call with
  | tryIntern path => rfl
  | intern path =>
      simp only [register, Registration.path]
      by_cases refused : (table.find? path).isNone && capacity ≤ table.size
      · simp only [tryIntern, refused, ↓reduceIte]
      · simp only [tryIntern, refused, Bool.false_eq_true, ↓reduceIte]

theorem registers_register (coherent : table.Coherent) (call : Registration) :
    table.Registers call.path (table.register call).1 (table.register call).2 := by
  rw [register_eq]
  cases found : table.find? call.path with
  | some id =>
      obtain ⟨spelling, resolved, agree⟩ := (coherent.numbered call.path id).mp found
      rw [tryIntern_of_find? found]
      exact .known resolved agree
  | none =>
      have fresh := coherent.find?_eq_none_iff.mp found
      by_cases room : table.size < capacity
      · rw [tryIntern_of_room found room]
        exact .added fresh room (toNat_toUInt32_of_lt room)
      · have full : table.size = capacity := Nat.le_antisymm coherent.size_le (Nat.not_lt.mp room)
        rw [tryIntern_of_full found (Nat.not_lt.mp room), full]
        exact .full fresh full

theorem Coherent.added (coherent : table.Coherent) {path : Path} {id : PathId}
    (fresh : table.IsNew path) (room : table.size < capacity) (place : id.index.toNat = table.size) :
    Coherent ⟨(path, id) :: table.numbers, table.paths.push path⟩ where
  size_le := by
    rw [size, Array.size_push]
    exact room
  numbered := by
    intro other number
    simp only [find?_cons, resolve?_push]
    constructor
    · intro found
      by_cases agree : path.agrees other = true
      · rw [if_pos agree] at found
        cases found
        exact ⟨path, if_pos place, agree⟩
      · rw [if_neg agree] at found
        obtain ⟨spelling, resolved, same⟩ := (coherent.numbered other number).mp found
        have earlier := index_lt_of_resolve? resolved
        exact ⟨spelling, (if_neg (Nat.ne_of_lt earlier)).trans resolved, same⟩
    · rintro ⟨spelling, resolved, same⟩
      by_cases last : number.index.toNat = table.size
      · rw [if_pos last] at resolved
        cases resolved
        have added : id = number := congrArg PathId.mk (UInt32.toNat_inj.mp (place.trans last.symm))
        rw [if_pos same, added]
      · rw [if_neg last] at resolved
        -- what agrees with an earlier spelling does not agree with a new path
        have apart : ¬path.agrees other = true := by
          intro agree
          have joined := Path.agrees_trans same (Path.agrees_symm agree)
          rw [fresh number spelling resolved] at joined
          cases joined
        rw [if_neg apart]
        exact (coherent.numbered other number).mpr ⟨spelling, resolved, same⟩

theorem Registers.coherent {after : PathTable} {path : Path}
    {answer : Except PathTableError PathId} (registers : table.Registers path answer after)
    (coherent : table.Coherent) : after.Coherent := by
  cases registers with
  | known _ _ => exact coherent
  | added fresh room place => exact coherent.added fresh room place
  | full _ _ => exact coherent

theorem Coherent.register (coherent : table.Coherent) (call : Registration) :
    (table.register call).2.Coherent :=
  (registers_register coherent call).coherent coherent

theorem empty_coherent : empty.Coherent := by
  have void : Coherent ⟨[], #[]⟩ := by
    refine ⟨Nat.zero_le _, fun path id => ?_⟩
    simp [find?, resolve?]
  refine void.added ?_ (by decide) rfl
  intro id spelling resolved
  simp [resolve?] at resolved

end

/-! What the table lists. -/

/-- The table lists the first spellings of these paths, as far as there are numbers. -/
def Lists (table : PathTable) (paths : List Path) : Prop :=
  table.paths.toList = (Path.firstSpellings paths).take capacity

namespace Lists

variable {table after : PathTable} {paths : List Path}

theorem size_eq (lists : table.Lists paths) :
    table.size = min capacity (Path.firstSpellings paths).length := by
  rw [size, ← Array.length_toList, lists, List.length_take]

theorem size_le (lists : table.Lists paths) : table.size ≤ capacity := by
  rw [lists.size_eq]
  exact Nat.min_le_left _ _

theorem pairwise (lists : table.Lists paths) :
    table.paths.toList.Pairwise fun earlier later => earlier.agrees later = false := by
  rw [lists]
  exact (Path.pairwise_firstSpellings paths).sublist (List.take_sublist _ _)

theorem isNew_iff (lists : table.Lists paths) (path : Path) :
    table.IsNew path ↔
      ∀ spelling ∈ (Path.firstSpellings paths).take capacity, spelling.agrees path = false := by
  rw [isNew_iff_of_size_le lists.size_le, ← lists]
  simp

theorem registers (lists : table.Lists paths) {path : Path}
    {answer : Except PathTableError PathId} (registers : table.Registers path answer after) :
    after.Lists (paths ++ [path]) := by
  have size := lists.size_eq
  rw [Lists, Path.firstSpellings_append_singleton]
  cases registers with
  | @known id spelling resolved agree =>
      have listed : spelling ∈ Path.firstSpellings paths := by
        rw [resolve?_eq, lists] at resolved
        exact List.mem_of_mem_take (List.mem_of_getElem? resolved)
      have present : paths.any (·.agrees path) = true :=
        List.any_eq_true.mpr ⟨spelling, Path.mem_of_mem_firstSpellings listed, agree⟩
      rw [present, if_pos rfl, List.append_nil, lists]
  | added fresh room =>
      have whole : (Path.firstSpellings paths).take capacity = Path.firstSpellings paths :=
        List.take_of_length_le (by omega)
      have absent : paths.any (·.agrees path) = false := by
        rw [← Path.any_firstSpellings, List.any_eq_false]
        intro spelling listed
        rw [lists.isNew_iff, whole] at fresh
        simp [fresh spelling listed]
      rw [absent, if_neg Bool.false_ne_true, List.take_of_length_le, Array.toList_push, lists, whole]
      rw [List.length_append, List.length_singleton]
      omega
  | full _ full =>
      rw [List.take_append_of_le_length (by omega), lists]

theorem register (lists : table.Lists paths) (coherent : table.Coherent) (call : Registration) :
    (table.register call).2.Lists (paths ++ [call.path]) :=
  lists.registers (registers_register coherent call)

theorem run (lists : table.Lists paths) (coherent : table.Coherent) (calls : List Registration) :
    (table.run calls).2.Lists (paths ++ calls.map Registration.path) := by
  induction calls generalizing table paths with
  | nil => rwa [List.map_nil, List.append_nil]
  | cons call rest ih =>
      have later := ih (lists.register coherent call) (coherent.register call)
      rwa [List.append_assoc, List.singleton_append] at later

theorem find?_of_resolve? (lists : table.Lists paths) {id : PathId} {spelling path : Path}
    (resolved : table.resolve? id = some spelling) (agree : spelling.agrees path = true) :
    paths.find? (·.agrees path) = some spelling := by
  rw [resolve?_eq, lists] at resolved
  exact Path.find?_of_mem_firstSpellings
    (List.mem_of_mem_take (List.mem_of_getElem? resolved)) agree

end Lists

theorem empty_lists : empty.Lists [Path.memory] := rfl

theorem run_cons (table : PathTable) (call : Registration) (rest : List Registration) :
    table.run (call :: rest)
      = ((table.register call).1 :: ((table.register call).2.run rest).1,
        ((table.register call).2.run rest).2) := rfl

theorem run_append (table : PathTable) (calls later : List Registration) :
    table.run (calls ++ later)
      = ((table.run calls).1 ++ ((table.run calls).2.run later).1,
        ((table.run calls).2.run later).2) := by
  induction calls generalizing table with
  | nil => rfl
  | cons call rest ih =>
      rw [List.cons_append, run_cons, run_cons, ih]
      rfl

theorem length_run (table : PathTable) (calls : List Registration) :
    (table.run calls).1.length = calls.length := by
  induction calls generalizing table with
  | nil => rfl
  | cons call rest ih => exact congrArg (· + 1) (ih _)

namespace Registers

variable {table after : PathTable} {path : Path} {answer : Except PathTableError PathId} {id : PathId}

theorem resolve?_eq {spelling : Path} (registers : table.Registers path answer after)
    (resolved : table.resolve? id = some spelling) : after.resolve? id = some spelling := by
  cases registers with
  | known _ _ => exact resolved
  | added _ _ =>
      have earlier := index_lt_of_resolve? resolved
      rw [resolve?_push, if_neg (Nat.ne_of_lt earlier), resolved]
  | full _ _ => exact resolved

theorem exists_spelling (registers : table.Registers path (.ok id) after) :
    ∃ spelling, after.resolve? id = some spelling ∧ spelling.agrees path = true := by
  cases registers with
  | @known _ spelling resolved agree => exact ⟨spelling, resolved, agree⟩
  | added _ _ place =>
      refine ⟨path, ?_, path.agrees_refl⟩
      rw [resolve?_push, if_pos place]

end Registers

theorem Coherent.run {table : PathTable} (coherent : table.Coherent) (calls : List Registration) :
    (table.run calls).2.Coherent := by
  induction calls generalizing table with
  | nil => exact coherent
  | cons call rest ih => exact ih (coherent.register call)

theorem resolve?_run {table : PathTable} (coherent : table.Coherent) {id : PathId} {spelling : Path}
    (resolved : table.resolve? id = some spelling) (calls : List Registration) :
    (table.run calls).2.resolve? id = some spelling := by
  induction calls generalizing table with
  | nil => exact resolved
  | cons call rest ih =>
      exact ih (coherent.register call) ((registers_register coherent call).resolve?_eq resolved)

structure Keeps (table : PathTable) (calls : List Registration)
    (answers : List (Except PathTableError PathId)) : Prop where
  answered : answers.length = calls.length
  coherent : table.Coherent
  lists : table.Lists (Path.memory :: calls.map Registration.path)
  apart : table.paths.toList.Pairwise fun earlier later => earlier.agrees later = false
  memory : table.resolve? PathId.memory = some Path.memory
  unknown : ∀ id, table.resolve? id = none ↔ table.size ≤ id.index.toNat
  displayed : ∀ id, table.resolve? id = none → table.displayPath id = Path.memory
  refused : ∀ path error, table.tryIntern path = .error error ↔
    error = .overflow capacity ∧ table.IsNew path ∧ table.size = capacity
  same : ∀ first second : Nat, ∀ left right leftId rightId,
    calls[first]? = some left → calls[second]? = some right →
    answers[first]? = some (.ok leftId) → answers[second]? = some (.ok rightId) →
      (leftId = rightId ↔ left.path.agrees right.path = true)

variable {calls : List Registration}

theorem lists_run_empty (calls : List Registration) :
    (empty.run calls).2.Lists (Path.memory :: calls.map Registration.path) :=
  empty_lists.run empty_coherent calls

theorem coherent_run_empty (calls : List Registration) : (empty.run calls).2.Coherent :=
  empty_coherent.run calls

theorem run_split (earlier : List Registration) (call : Registration) (later : List Registration) :
    (empty.run (earlier ++ call :: later)).1[earlier.length]?
        = some ((empty.run earlier).2.register call).1 ∧
      (empty.run (earlier ++ call :: later)).2
        = (((empty.run earlier).2.register call).2.run later).2 := by
  have length := length_run empty earlier
  rw [run_append, run_cons, List.getElem?_append_right (by omega), length, Nat.sub_self]
  exact ⟨rfl, rfl⟩

theorem registers_split (earlier : List Registration) (call : Registration) :
    (empty.run earlier).2.Registers call.path ((empty.run earlier).2.register call).1
      ((empty.run earlier).2.register call).2 :=
  registers_register (coherent_run_empty earlier) call

theorem exists_spelling_of_register {earlier : List Registration} {call : Registration} {id : PathId}
    (answered : ((empty.run earlier).2.register call).1 = .ok id) (later : List Registration) :
    ∃ spelling, spelling.agrees call.path = true ∧
      ((empty.run earlier).2.register call).2.resolve? id = some spelling ∧
      (empty.run (earlier ++ call :: later)).2.resolve? id = some spelling := by
  have registers := registers_split earlier call
  rw [answered] at registers
  obtain ⟨spelling, resolved, agree⟩ := registers.exists_spelling
  rw [(run_split earlier call later).2]
  exact ⟨spelling, agree, resolved,
    resolve?_run ((coherent_run_empty earlier).register call) resolved later⟩

theorem exists_spelling_of_answer {index : Nat} {call : Registration} {id : PathId}
    (called : calls[index]? = some call) (answered : (empty.run calls).1[index]? = some (.ok id)) :
    ∃ spelling, spelling.agrees call.path = true ∧
      (empty.run calls).2.resolve? id = some spelling := by
  obtain ⟨inside, rfl⟩ := List.getElem?_eq_some_iff.mp called
  have split : calls.take index ++ calls[index] :: calls.drop (index + 1) = calls := by
    rw [← List.drop_eq_getElem_cons inside, List.take_append_drop]
  have here := (run_split (calls.take index) calls[index] (calls.drop (index + 1))).1
  rw [split, List.length_take, Nat.min_eq_left (Nat.le_of_lt inside), answered] at here
  obtain ⟨spelling, agree, _, resolved⟩ :=
    exists_spelling_of_register (Option.some.inj here).symm (calls.drop (index + 1))
  rw [split] at resolved
  exact ⟨spelling, agree, resolved⟩

theorem id_eq_iff {first second : Nat} {left right : Registration} {leftId rightId : PathId}
    (leftCall : calls[first]? = some left) (rightCall : calls[second]? = some right)
    (leftAnswer : (empty.run calls).1[first]? = some (.ok leftId))
    (rightAnswer : (empty.run calls).1[second]? = some (.ok rightId)) :
    leftId = rightId ↔ left.path.agrees right.path = true := by
  have coherent := coherent_run_empty calls
  obtain ⟨leftSpelling, leftAgrees, leftResolved⟩ := exists_spelling_of_answer leftCall leftAnswer
  obtain ⟨rightSpelling, rightAgrees, rightResolved⟩ :=
    exists_spelling_of_answer rightCall rightAnswer
  constructor
  · rintro rfl
    obtain rfl := Option.some.inj (leftResolved.symm.trans rightResolved)
    exact Path.agrees_trans (Path.agrees_symm leftAgrees) rightAgrees
  · intro agree
    have leftFound := (coherent.numbered right.path leftId).mpr
      ⟨leftSpelling, leftResolved, Path.agrees_trans leftAgrees agree⟩
    have rightFound := (coherent.numbered right.path rightId).mpr
      ⟨rightSpelling, rightResolved, rightAgrees⟩
    exact Option.some.inj (leftFound.symm.trans rightFound)

theorem keeps_run (calls : List Registration) :
    (empty.run calls).2.Keeps calls (empty.run calls).1 where
  answered := length_run empty calls
  coherent := coherent_run_empty calls
  lists := lists_run_empty calls
  apart := (lists_run_empty calls).pairwise
  memory := resolve?_run empty_coherent rfl calls
  unknown _ := resolve?_eq_none_iff
  displayed id missing := by rw [displayPath, missing, Option.getD_none]
  refused path error := tryIntern_eq_error_iff (coherent_run_empty calls) error
  same _ _ _ _ _ _ leftCall rightCall leftAnswer rightAnswer :=
    id_eq_iff leftCall rightCall leftAnswer rightAnswer

/-- Whatever calls an empty table is given, it lists the first spellings of their paths, each under
a number of its own. A call returns the number of the spelling that agrees with its path, and
what the number stands for never changes; a new path gets the next number, unless all are
taken. -/
theorem run_registers (calls : List Registration) :
    (∀ left right : Path, left.agrees right = true ↔ left.isAbsolute = right.isAbsolute ∧
      left.beginsHere = right.beginsHere ∧ left.countedParts = right.countedParts) ∧
    (empty.run calls).2.Keeps calls (empty.run calls).1 ∧
    ∀ earlier call later, calls = earlier ++ call :: later →
      ∃ answer after, (empty.run earlier).2.register call = (answer, after) ∧
        (empty.run calls).1[earlier.length]? = some answer ∧
        (empty.run earlier).2.Registers call.path answer after ∧
        ∀ id, answer = .ok id → ∃ spelling,
          (Path.memory :: (earlier ++ [call]).map Registration.path).find? (·.agrees call.path)
            = some spelling ∧
          after.resolve? id = some spelling ∧ (empty.run calls).2.resolve? id = some spelling := by
  refine ⟨fun _ _ => Path.agrees_iff, keeps_run calls, ?_⟩
  rintro earlier call later rfl
  refine ⟨_, _, rfl, (run_split earlier call later).1, registers_split earlier call, ?_⟩
  intro id answered
  obtain ⟨spelling, agree, resolved, kept⟩ := exists_spelling_of_register answered later
  have lists := (lists_run_empty earlier).register (coherent_run_empty earlier) call
  rw [List.map_append]
  exact ⟨spelling, lists.find?_of_resolve? resolved agree, resolved, kept⟩

theorem run_registers_second_spelling :
    ∃ calls : List Registration,
      calls.map Registration.path
        = [Path.ofString "a//b", Path.ofString "./a", Path.ofString "a/./b/"] ∧
      (empty.run calls).1 = [.ok ⟨1⟩, .ok ⟨2⟩, .ok ⟨1⟩] ∧
      (empty.run calls).2.resolve? ⟨1⟩ = some (Path.ofString "a//b") ∧
      (empty.run calls).2.resolve? ⟨3⟩ = none := by
  let calls : List Registration := [.tryIntern (Path.ofString "a//b"), .intern (Path.ofString "./a"),
    .intern (Path.ofString "a/./b/")]
  have answers : (empty.run calls).1 = [.ok ⟨1⟩, .ok ⟨2⟩, .ok ⟨1⟩] := by cbv
  obtain ⟨_, keeps, history⟩ := run_registers calls
  obtain ⟨answer, after, _, answered, _, stands⟩ := history [calls[0], calls[1]] calls[2] [] rfl
  have same : answer = .ok ⟨1⟩ := by
    rw [answers] at answered
    exact (Option.some.inj answered).symm
  obtain ⟨spelling, first, _, resolved⟩ := stands _ same
  have spelled : spelling = Path.ofString "a//b" := by
    refine Option.some.inj (first.symm.trans ?_)
    cbv
  have size : (empty.run calls).2.size = 3 := by cbv
  have beyond : (empty.run calls).2.size ≤ (⟨3⟩ : PathId).index.toNat := Nat.le_of_eq size
  exact ⟨calls, rfl, answers, by rw [resolved, spelled], (keeps.unknown _).mpr beyond⟩

end PathTable

end FrontEnd
