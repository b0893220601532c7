import FrontEnd.Proofs.Source.Visits

/-! The order of the places of a source. A cursor that moves on comes further down, or further to
the right in its line, so that lines and columns order the places as their offsets do, and what is
printed of a location names one place. -/

namespace FrontEnd

namespace Location

def comparePlace (first second : Location) : Ordering :=
  (compare first.line second.line).then (compare first.column second.column)

variable {first second : Location}

theorem comparePlace_swap (first second : Location) :
    (first.comparePlace second).swap = second.comparePlace first := by
  rw [comparePlace, Ordering.swap_then, ← Std.OrientedCmp.eq_swap, ← Std.OrientedCmp.eq_swap,
    comparePlace]

theorem comparePlace_eq_lt_iff :
    first.comparePlace second = .lt ↔
      first.line < second.line ∨ first.line = second.line ∧ first.column < second.column := by
  rw [comparePlace, Ordering.then_eq_lt, Std.compare_eq_lt, Std.compare_eq_iff_eq, Std.compare_eq_lt]

theorem comparePlace_eq_eq_iff :
    first.comparePlace second = .eq ↔ first.line = second.line ∧ first.column = second.column := by
  rw [comparePlace, Ordering.then_eq_eq, Std.compare_eq_iff_eq, Std.compare_eq_iff_eq]

theorem colon_notMem_toDigits (number : Nat) : ':' ∉ Nat.toDigits 10 number := fun listed =>
  absurd (Nat.isDigit_of_mem_toDigits (by decide) (by decide) listed) (by decide)

/-- The line and the column can be read off what is printed of a location. -/
theorem display_inj :
    first.display = second.display ↔ first.line = second.line ∧ first.column = second.column := by
  constructor
  · intro same
    have characters (location : Location) : location.display.toList
        = Nat.toDigits 10 location.line.toNat ++ ':' :: Nat.toDigits 10 location.column.toNat := by
      rw [display, String.toList_append, String.toList_append, List.append_assoc,
        ← Nat.toList_repr, ← Nat.toList_repr]
      rfl
    have digits : Function.Injective (Nat.toDigits 10) :=
      Function.LeftInverse.injective fun _ => Nat.ofDigitChars_ten_toDigits
    have split := congrArg String.toList same
    rw [characters, characters,
      List.append_cons_inj_of_notMem (colon_notMem_toDigits _) (colon_notMem_toDigits _)] at split
    obtain ⟨lines, _, columns⟩ := split
    exact ⟨UInt32.toNat_inj.mp (digits lines), UInt32.toNat_inj.mp (digits columns)⟩
  · rintro ⟨lines, columns⟩
    rw [display, lines, columns, display]

end Location

namespace Cursor

variable {cursor first middle second : Cursor}

def Precedes (first second : Cursor) : Prop :=
  first.line < second.line ∨ first.line = second.line ∧ first.column < second.column

theorem Precedes.trans (earlier : first.Precedes middle) (later : middle.Precedes second) :
    first.Precedes second := by
  rw [Precedes] at *
  omega

theorem precedes_advance (inside : cursor.isAtEnd = false) : cursor.Precedes cursor.advance := by
  rw [Precedes, advance, if_neg (by simp [inside])]
  simp only []
  split
  · exact .inl (Nat.lt_succ_self _)
  · exact .inr ⟨rfl, Nat.lt_succ_self _⟩

theorem Reaches.eq_or_precedes (walk : first.Reaches second) :
    first = second ∨ first.Precedes second := by
  obtain ⟨steps, rfl⟩ := walk
  induction steps with
  | zero => exact .inl rfl
  | succ steps ih =>
      rw [Function.iterate_succ_apply']
      generalize Cursor.advance^[steps] first = reached at ih ⊢
      cases ended : reached.isAtEnd with
      | true => rwa [Cursor.advance, if_pos ended]
      | false =>
          have next := precedes_advance ended
          rcases ih with rfl | passed
          · exact .inr next
          · exact .inr (passed.trans next)

end Cursor

namespace SourceText.Visits

variable {source : SourceText} {first second cursor : Cursor}

theorem offset_position (visited : source.Visits cursor) :
    cursor.position.offset.toNat = cursor.offset := by
  obtain ⟨_, _, divides⟩ := visits_iff_exists_divides.mp visited
  exact divides.position_offset

theorem isExact (visited : source.Visits cursor) (short : source.length < sourceLimit) :
    cursor.IsExact := by
  obtain ⟨_, _, divides⟩ := visits_iff_exists_divides.mp visited
  exact divides.isExact_of_offset_lt (Nat.lt_of_le_of_lt divides.offset_le short)

theorem reaches_of_offset_le (earlier : source.Visits first) (later : source.Visits second)
    (ordered : first.offset ≤ second.offset) : first.Reaches second := by
  obtain ⟨_, passed, _, here, there⟩ := earlier.between later ordered
  exact ⟨passed.length, here.iterate_eq there⟩

theorem eq_of_offset_eq (earlier : source.Visits first) (later : source.Visits second)
    (same : first.offset = second.offset) : first = second := by
  obtain ⟨_, _, here⟩ := visits_iff_exists_divides.mp earlier
  exact here.unique (later.divides here.whole (same.symm.trans here.offset_eq))

theorem comparePlace_of_offset_lt (earlier : source.Visits first) (later : source.Visits second)
    (short : source.length < sourceLimit) (closer : first.offset < second.offset) :
    first.position.comparePlace second.position = .lt := by
  rcases (earlier.reaches_of_offset_le later closer.le).eq_or_precedes with rfl | precedes
  · exact absurd closer (Nat.lt_irrefl _)
  · have here := earlier.isExact short
    have there := later.isExact short
    rw [Location.comparePlace_eq_lt_iff, UInt32.lt_iff_toNat_lt, UInt32.lt_iff_toNat_lt,
      ← UInt32.toNat_inj, here.line, here.column, there.line, there.column]
    exact precedes

/-- Lines and columns order the places of a source as their offsets do. -/
theorem comparePlace_eq (earlier : source.Visits first) (later : source.Visits second)
    (short : source.length < sourceLimit) :
    first.position.comparePlace second.position = compare first.offset second.offset := by
  rcases Nat.lt_trichotomy first.offset second.offset with closer | same | further
  · rw [earlier.comparePlace_of_offset_lt later short closer, compare_lt_iff_lt.mpr closer]
  · obtain rfl := earlier.eq_of_offset_eq later same
    rw [compare_eq_iff_eq.mpr rfl, Location.comparePlace_eq_eq_iff]
    exact ⟨rfl, rfl⟩
  · rw [← Location.comparePlace_swap, later.comparePlace_of_offset_lt earlier short further,
      compare_gt_iff_gt.mpr further]
    rfl

theorem compare_offset_position (earlier : source.Visits first) (later : source.Visits second) :
    compare first.position.offset second.position.offset = compare first.offset second.offset := by
  rw [← earlier.offset_position, ← later.offset_position]
  simp only [compare, compareOfLessAndEq, UInt32.lt_iff_toNat_lt, UInt32.toNat_inj]

theorem line_column_eq_iff (earlier : source.Visits first) (later : source.Visits second)
    (short : source.length < sourceLimit) :
    first.position.line = second.position.line ∧ first.position.column = second.position.column ↔
      first.position.offset = second.position.offset := by
  rw [← Location.comparePlace_eq_eq_iff, earlier.comparePlace_eq later short,
    ← earlier.compare_offset_position later, Std.compare_eq_iff_eq]

theorem eq_of_display_eq (earlier : source.Visits first) (later : source.Visits second)
    (short : source.length < sourceLimit)
    (same : first.position.display = second.position.display) : first = second := by
  have places := Location.comparePlace_eq_eq_iff.mpr (Location.display_inj.mp same)
  rw [earlier.comparePlace_eq later short, compare_eq_iff_eq] at places
  exact earlier.eq_of_offset_eq later places

end SourceText.Visits

end FrontEnd
