import FrontEnd.Proofs.Command.Options

/-! Which arguments the command that prints tokens takes. One of them is the path; each other one
sets the chunk size, and the last of these counts. If an argument cannot stand where it stands,
the first such argument is the error. -/

namespace FrontEnd

namespace ArgumentError

def mark : ArgumentError → Char
  | .invalidChunkSize _ => 'v'
  | .zeroChunkSize => 'u'
  | .unknownOption _ => 'k'
  | .unexpectedArgument _ => 'e'
  | .missingPath => 's'

theorem getElem?_message (error : ArgumentError) : error.message.toList[2]? = some error.mark := by
  unfold message
  split <;> simp [mark]

theorem quoted_inj {opening closing left right : String} :
    opening ++ left ++ closing = opening ++ right ++ closing ↔ left = right := by
  rw [String.append_left_inj, String.append_right_inj]

theorem message_injective : Function.Injective message := by
  intro left right same
  have marks : left.mark = right.mark := by
    rw [← Option.some_inj, ← getElem?_message, same, getElem?_message]
  cases left <;> cases right <;> simp [mark] at marks
  · exact congrArg invalidChunkSize (quoted_inj.mp same)
  · rfl
  · exact congrArg unknownOption (quoted_inj.mp same)
  · exact congrArg unexpectedArgument (quoted_inj.mp same)
  · rfl

end ArgumentError

namespace LexArguments

/-- Why an argument cannot stand behind the earlier ones. -/
inductive Objection (earlier : List String) (argument : String) : ArgumentError → Prop
  | invalid {value} : argument = "--chunk-size=" ++ value →
      (∀ size, Writes value size → 2 ^ 64 ≤ size) →
      Objection earlier argument (.invalidChunkSize value)
  | zero {value} : argument = "--chunk-size=" ++ value → Writes value 0 →
      Objection earlier argument .zeroChunkSize
  | unknown : BeginsWithDash argument → (∀ value, argument ≠ "--chunk-size=" ++ value) →
      Objection earlier argument (.unknownOption argument)
  | unexpected {path} : ¬BeginsWithDash argument → path ∈ earlier → ¬BeginsWithDash path →
      Objection earlier argument (.unexpectedArgument argument)

def Admissible (earlier arguments : List String) : Prop :=
  ∀ before argument after, arguments = before ++ argument :: after →
    ∀ error, ¬Objection (earlier ++ before) argument error

/-- The objection to the first argument that cannot stand where it stands. -/
def FirstObjection (earlier arguments : List String) (error : ArgumentError) : Prop :=
  ∃ before argument after, arguments = before ++ argument :: after ∧ Admissible earlier before ∧
    Objection (earlier ++ before) argument error

/-! One step: what an argument does to the reading of those behind it. -/

theorem parseFrom_of_sets {argument : String} {size : Nat} (sets : Sets argument size)
    (path : Option Path) (chunkSize : ChunkSize) (rest : List String) :
    parseFrom path chunkSize (argument :: rest) = parseFrom path (ChunkSize.ofNat size) rest := by
  obtain ⟨value, set, writes, positive, within⟩ := sets
  have parsed := parseSize?_eq_some_iff.mpr ⟨writes, within⟩
  obtain ⟨size, rfl⟩ := Nat.exists_eq_succ_of_ne_zero (Nat.ne_of_gt positive)
  simp only [parseFrom, chunkSizeValue?_eq_some_iff.mpr set, parsed]

theorem parseFrom_of_path {argument : String} (plain : ¬BeginsWithDash argument)
    (chunkSize : ChunkSize) (rest : List String) :
    parseFrom none chunkSize (argument :: rest)
      = parseFrom (some (Path.ofString argument)) chunkSize rest := by
  have named : isOption argument = false := by
    rwa [← Bool.not_eq_true, isOption_iff]
  simp only [parseFrom, chunkSizeValue?_of_plain plain, named]
  rfl

def Knows (path : Option Path) (earlier : List String) : Prop :=
  path.isSome = true ↔ ∃ spelled ∈ earlier, ¬BeginsWithDash spelled

variable {path : Option Path} {earlier : List String} {argument : String} {error : ArgumentError}

theorem Knows.behind_dash (knows : Knows path earlier) (dash : BeginsWithDash argument) :
    Knows path (earlier ++ [argument]) := by
  refine knows.trans ?_
  simp [dash]

theorem Knows.behind_path (plain : ¬BeginsWithDash argument) (path : Path) (earlier : List String) :
    Knows (some path) (earlier ++ [argument]) := by
  simp [Knows, plain]

theorem exists_knows (earlier : List String) : ∃ path, Knows path earlier := by
  by_cases given : ∃ spelled ∈ earlier, ¬BeginsWithDash spelled
  · exact ⟨some Path.memory, iff_of_true rfl given⟩
  · exact ⟨none, iff_of_false Bool.false_ne_true given⟩

theorem parseFrom_of_objection (objects : Objection earlier argument error)
    (knows : Knows path earlier) (chunkSize : ChunkSize) (rest : List String) :
    parseFrom path chunkSize (argument :: rest) = .error error := by
  cases objects with
  | @invalid value set unparsed =>
      simp only [parseFrom, chunkSizeValue?_eq_some_iff.mpr set, parseSize?_eq_none_iff.mpr unparsed]
  | @zero value set writes =>
      have parsed := parseSize?_eq_some_iff.mpr ⟨writes, by decide⟩
      simp only [parseFrom, chunkSizeValue?_eq_some_iff.mpr set, parsed]
  | unknown dash unset =>
      simp only [parseFrom, chunkSizeValue?_eq_none_iff.mpr unset, isOption_iff.mpr dash]
      rfl
  | @unexpected spelled plain listed unlike =>
      obtain ⟨known, rfl⟩ := Option.isSome_iff_exists.mp (knows.mpr ⟨spelled, listed, unlike⟩)
      have named : isOption argument = false := by
        rwa [← Bool.not_eq_true, isOption_iff]
      simp only [parseFrom, chunkSizeValue?_of_plain plain, named]
      rfl

/-! An argument sets the chunk size, is the path, or is objected to, and no two of these. -/

theorem sets_or_path_or_objection (earlier : List String) (argument : String) :
    (∃ size, Sets argument size) ∨
      (¬BeginsWithDash argument ∧ ∀ spelled ∈ earlier, BeginsWithDash spelled) ∨
      ∃ error, Objection earlier argument error := by
  by_cases dash : BeginsWithDash argument
  · by_cases unset : ∀ value, argument ≠ "--chunk-size=" ++ value
    · exact .inr (.inr ⟨_, .unknown dash unset⟩)
    · obtain ⟨value, set⟩ := not_forall_not.mp unset
      by_cases parsed : ∃ size, Writes value size ∧ size < 2 ^ 64
      · obtain ⟨size, writes, within⟩ := parsed
        by_cases null : size = 0
        · exact .inr (.inr ⟨_, .zero set (null ▸ writes)⟩)
        · exact .inl ⟨size, value, set, writes, Nat.one_le_iff_ne_zero.mpr null, within⟩
      · have unparsed (size : Nat) (writes : Writes value size) : 2 ^ 64 ≤ size :=
          Nat.le_of_not_lt fun within => parsed ⟨size, writes, within⟩
        exact .inr (.inr ⟨_, .invalid set unparsed⟩)
  · by_cases given : ∃ spelled ∈ earlier, ¬BeginsWithDash spelled
    · obtain ⟨spelled, listed, unlike⟩ := given
      exact .inr (.inr ⟨_, .unexpected dash listed unlike⟩)
    · refine .inr (.inl ⟨dash, fun spelled listed => ?_⟩)
      by_contra unlike
      exact given ⟨spelled, listed, unlike⟩

theorem Sets.not_objection {size : Nat} (sets : Sets argument size) :
    ¬Objection earlier argument error := by
  obtain ⟨value, rfl, writes, positive, within⟩ := sets
  rintro (⟨same, unparsed⟩ | ⟨same, null⟩ | ⟨_, unset⟩ | ⟨plain, _, _⟩)
  · rw [String.append_right_inj] at same
    subst same
    have large := unparsed size writes
    omega
  · rw [String.append_right_inj] at same
    subst same
    have none := writes.unique null
    omega
  · exact unset value rfl
  · exact plain (beginsWithDash_chunkSize value)

theorem Objection.exists_path (objects : Objection earlier argument error)
    (plain : ¬BeginsWithDash argument) : ∃ spelled ∈ earlier, ¬BeginsWithDash spelled := by
  cases objects with
  | @invalid value set _ => exact absurd (set ▸ beginsWithDash_chunkSize value) plain
  | @zero value set _ => exact absurd (set ▸ beginsWithDash_chunkSize value) plain
  | unknown dash _ => exact absurd dash plain
  | unexpected _ listed unlike => exact ⟨_, listed, unlike⟩

theorem Objection.unique {other : ArgumentError} (objects : Objection earlier argument error)
    (again : Objection earlier argument other) : error = other := by
  obtain ⟨path, knows⟩ := exists_knows earlier
  have first := parseFrom_of_objection objects knows ChunkSize.default []
  rw [parseFrom_of_objection again knows] at first
  exact (Except.error.inj first).symm

/-! The reading of all arguments. -/

theorem admissible_cons_iff {rest : List String} :
    Admissible earlier (argument :: rest) ↔
      (∀ error, ¬Objection earlier argument error) ∧ Admissible (earlier ++ [argument]) rest := by
  constructor
  · intro admissible
    refine ⟨fun error objects => ?_, fun before other after split error objects => ?_⟩
    · exact admissible [] argument rest rfl error (by rwa [List.append_nil])
    · refine admissible (argument :: before) other after (congrArg _ split) error ?_
      rwa [List.append_assoc] at objects
  · rintro ⟨clear, admissible⟩ before other after split error objects
    cases before with
    | nil =>
        obtain ⟨rfl, rfl⟩ := List.cons.inj split
        exact clear error (by rwa [List.append_nil] at objects)
    | cons first before =>
        obtain ⟨rfl, later⟩ := List.cons.inj split
        exact admissible before other after later error (by rwa [List.append_assoc])

theorem firstObjection_of_objection {first : ArgumentError} {rest : List String}
    (objects : Objection earlier argument first) :
    FirstObjection earlier (argument :: rest) error ↔ error = first := by
  constructor
  · rintro ⟨before, other, after, split, admissible, later⟩
    cases before with
    | nil =>
        obtain ⟨rfl, _⟩ := List.cons.inj split
        rw [List.append_nil] at later
        exact later.unique objects
    | cons _ before =>
        obtain ⟨rfl, _⟩ := List.cons.inj split
        exact absurd objects ((admissible_cons_iff.mp admissible).1 first)
  · rintro rfl
    refine ⟨[], argument, rest, rfl, ?_, by rwa [List.append_nil]⟩
    intro before other after split
    simp at split

theorem firstObjection_cons_iff {rest : List String}
    (clear : ∀ error, ¬Objection earlier argument error) :
    FirstObjection earlier (argument :: rest) error
      ↔ FirstObjection (earlier ++ [argument]) rest error := by
  constructor
  · rintro ⟨before, other, after, split, admissible, objects⟩
    cases before with
    | nil =>
        obtain ⟨rfl, _⟩ := List.cons.inj split
        rw [List.append_nil] at objects
        exact absurd objects (clear error)
    | cons first before =>
        obtain ⟨rfl, later⟩ := List.cons.inj split
        exact ⟨before, other, after, later, (admissible_cons_iff.mp admissible).2,
          by rwa [List.append_assoc]⟩
  · rintro ⟨before, other, after, rfl, admissible, objects⟩
    rw [List.append_assoc] at objects
    exact ⟨argument :: before, other, after, rfl, admissible_cons_iff.mpr ⟨clear, admissible⟩, objects⟩

theorem parseFrom_eq_error_iff (knows : Knows path earlier) (chunkSize : ChunkSize)
    (rest : List String) :
    parseFrom path chunkSize rest = .error error ↔ FirstObjection earlier rest error ∨
      (error = .missingPath ∧ path = none ∧ Admissible earlier rest ∧
        ∀ argument ∈ rest, BeginsWithDash argument) := by
  -- which of the earlier arguments was the path is all that the later ones are judged by
  induction rest generalizing earlier path chunkSize with
  | nil =>
      have none : ¬FirstObjection earlier [] error := by
        rintro ⟨before, argument, after, split, _⟩
        simp at split
      have vacuous : Admissible earlier [] := by
        intro before argument after split
        simp at split
      cases path <;> simp [parseFrom, none, vacuous, eq_comm]
  | cons argument rest ih =>
      rcases sets_or_path_or_objection earlier argument with
        ⟨size, sets⟩ | ⟨plain, given⟩ | ⟨first, objects⟩
      · have clear (error : ArgumentError) : ¬Objection earlier argument error := sets.not_objection
        rw [parseFrom_of_sets sets, ih (knows.behind_dash sets.beginsWithDash),
          firstObjection_cons_iff clear, admissible_cons_iff, List.forall_mem_cons,
          and_iff_right clear, and_iff_right sets.beginsWithDash]
      · have unknown : ¬∃ spelled ∈ earlier, ¬BeginsWithDash spelled := by
          rintro ⟨spelled, listed, unlike⟩
          exact unlike (given spelled listed)
        have clear (error : ArgumentError) : ¬Objection earlier argument error :=
          fun objects => unknown (objects.exists_path plain)
        obtain rfl : path = none := Option.not_isSome_iff_eq_none.mp (mt knows.mp unknown)
        rw [parseFrom_of_path plain, ih (.behind_path plain _ earlier), firstObjection_cons_iff clear]
        simp [plain]
      · rw [parseFrom_of_objection objects knows, firstObjection_of_objection objects,
          admissible_cons_iff]
        simp only [Except.error.injEq, eq_comm]
        constructor
        · exact .inl
        · rintro (same | ⟨_, _, ⟨clear, _⟩, _⟩)
          · exact same
          · exact absurd objects (clear first)

theorem ok_eq_ok_iff {left right : LexArguments} :
    (.ok left : Except ArgumentError LexArguments) = .ok right ↔
      right.path = left.path ∧ right.chunkSize.bytes = left.chunkSize.bytes := by
  obtain ⟨leftPath, leftBytes, _⟩ := left
  obtain ⟨rightPath, rightBytes, _⟩ := right
  simp [eq_comm]

theorem parseFrom_some_eq_ok_iff {path : Path} (knows : Knows (some path) earlier)
    (chunkSize : ChunkSize) (rest : List String) {result : LexArguments} :
    parseFrom (some path) chunkSize rest = .ok result ↔
      ∃ sizes, List.Forall₂ Sets rest sizes ∧ result.path = path ∧
        result.chunkSize.bytes = sizes.getLast?.getD chunkSize.bytes := by
  induction rest generalizing earlier chunkSize with
  | nil =>
      simp only [parseFrom]
      rw [ok_eq_ok_iff]
      constructor
      · rintro ⟨same, last⟩
        exact ⟨[], .nil, same, last⟩
      · rintro ⟨_, ⟨⟩, same, last⟩
        exact ⟨same, last⟩
  | cons argument rest ih =>
      rcases sets_or_path_or_objection earlier argument with
        ⟨size, sets⟩ | ⟨_, given⟩ | ⟨error, objects⟩
      · rw [parseFrom_of_sets sets, ih (knows.behind_dash sets.beginsWithDash), sets.bytes]
        constructor
        · rintro ⟨sizes, all, same, last⟩
          exact ⟨size :: sizes, .cons sets all, same, by rwa [List.getLast?_cons, Option.getD_some]⟩
        · rintro ⟨_, all, same, last⟩
          cases all with
          | cons first all =>
              rw [List.getLast?_cons, Option.getD_some, first.unique sets] at last
              exact ⟨_, all, same, last⟩
      · obtain ⟨spelled, listed, unlike⟩ := knows.mp rfl
        exact absurd (given spelled listed) unlike
      · rw [parseFrom_of_objection objects knows]
        refine iff_of_false nofun ?_
        rintro ⟨_, all, _⟩
        cases all with
        | cons first _ => exact first.not_objection objects

theorem parseFrom_none_eq_ok_iff (knows : Knows none earlier) (chunkSize : ChunkSize)
    (rest : List String) {result : LexArguments} :
    parseFrom none chunkSize rest = .ok result ↔
      ∃ before argument after sizes, rest = before ++ argument :: after ∧
        ¬BeginsWithDash argument ∧ List.Forall₂ Sets (before ++ after) sizes ∧
        result.path = Path.ofString argument ∧
        result.chunkSize.bytes = sizes.getLast?.getD chunkSize.bytes := by
  induction rest generalizing earlier chunkSize with
  | nil => simp [parseFrom]
  | cons first rest ih =>
      rcases sets_or_path_or_objection earlier first with
        ⟨size, sets⟩ | ⟨plain, _⟩ | ⟨error, objects⟩
      · rw [parseFrom_of_sets sets, ih (knows.behind_dash sets.beginsWithDash), sets.bytes]
        constructor
        · rintro ⟨before, argument, after, sizes, rfl, plain, all, same, last⟩
          exact ⟨first :: before, argument, after, size :: sizes, rfl, plain, .cons sets all, same,
            by rwa [List.getLast?_cons, Option.getD_some]⟩
        · rintro ⟨before, argument, after, sizes, split, plain, all, same, last⟩
          cases before with
          | nil =>
              obtain ⟨rfl, _⟩ := List.cons.inj split
              exact absurd sets.beginsWithDash plain
          | cons _ before =>
              obtain ⟨rfl, later⟩ := List.cons.inj split
              cases all with
              | cons one all =>
                  rw [List.getLast?_cons, Option.getD_some, one.unique sets] at last
                  exact ⟨before, argument, after, _, later, plain, all, same, last⟩
      · rw [parseFrom_of_path plain, parseFrom_some_eq_ok_iff (.behind_path plain _ earlier)]
        constructor
        · rintro ⟨sizes, all, same, last⟩
          exact ⟨[], first, rest, sizes, rfl, plain, all, same, last⟩
        · rintro ⟨before, argument, after, sizes, split, _, all, same, last⟩
          cases before with
          | nil =>
              obtain ⟨rfl, rfl⟩ := List.cons.inj split
              exact ⟨sizes, all, same, last⟩
          | cons _ before =>
              obtain ⟨rfl, _⟩ := List.cons.inj split
              cases all with
              | cons one _ => exact absurd one.beginsWithDash plain
      · rw [parseFrom_of_objection objects knows]
        refine iff_of_false nofun ?_
        rintro ⟨before, argument, after, sizes, split, plain, all, _⟩
        cases before with
        | nil =>
            obtain ⟨rfl, _⟩ := List.cons.inj split
            exact Bool.false_ne_true (knows.mpr (objects.exists_path plain))
        | cons _ before =>
            obtain ⟨rfl, _⟩ := List.cons.inj split
            cases all with
            | cons one _ => exact one.not_objection objects

/-- The command takes one path and any options that set the chunk size, wherever they stand; the
last of them counts. Otherwise it fails with what there is to object to the first argument that
cannot stand where it stands, and misses the path only if there is no such argument. -/
theorem parse_exact (arguments : List String) :
    (∀ result, parse arguments = .ok result ↔
      ∃ before argument after sizes, arguments = before ++ argument :: after ∧
        ¬BeginsWithDash argument ∧ List.Forall₂ Sets (before ++ after) sizes ∧
        result.path = Path.ofString argument ∧
        result.chunkSize.bytes = sizes.getLast?.getD ChunkSize.default.bytes) ∧
    (∀ error, parse arguments = .error error ↔
      (∃ before argument after, arguments = before ++ argument :: after ∧ Admissible [] before ∧
        Objection before argument error) ∨
      (error = .missingPath ∧ Admissible [] arguments ∧
        ∀ argument ∈ arguments, BeginsWithDash argument)) ∧
    ∀ left right : ArgumentError, left.message = right.message ↔ left = right := by
  have knows : Knows none [] := by simp [Knows]
  refine ⟨fun result => parseFrom_none_eq_ok_iff knows _ _, fun error => ?_,
    fun left right => ArgumentError.message_injective.eq_iff⟩
  rw [parse, parseFrom_eq_error_iff knows, FirstObjection, and_iff_right rfl]
  rfl

example : parse ["--chunk-size=7", "", "--chunk-size=+05"]
    = .ok ⟨Path.ofString "", ChunkSize.ofNat 5⟩ := rfl

example : parse ["a", "--chunk-size=18446744073709551616", "-"]
    = .error (.invalidChunkSize "18446744073709551616") := rfl

end LexArguments

end FrontEnd
