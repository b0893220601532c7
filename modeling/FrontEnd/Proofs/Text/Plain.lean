import FrontEnd.Text.Quoted

/-! Characters that a quoted text shows as they are. Between the blank and the tilde only the
backslash and the quote of the own kind have an escape. -/

namespace FrontEnd.Text

theorem exists_range_of_inRanges {ranges : Array (Nat × Nat)} {code low high : Nat}
    (found : inRanges ranges code low high = true) :
    ∃ range ∈ ranges, range.1 ≤ code ∧ code ≤ range.2 := by
  fun_induction inRanges ranges code low high with
  | case1 low high open_ middle first last hit below ih => exact ih found
  | case2 low high open_ middle first last hit reached above ih => exact ih found
  | case3 low high open_ middle first last hit reached within =>
      exact ⟨_, Array.mem_of_getElem? hit, Nat.le_of_not_lt reached, Nat.le_of_not_lt within⟩
  | case4 => cases found
  | case5 => cases found

structure IsPlain (character : Char) : Prop where
  low : ' ' < character
  high : character ≤ '~'
  unescaped : character ≠ '\\'
  unquoted : character ≠ '"'

theorem unprintableRanges_apart :
    ∀ range ∈ unprintableRanges.toList, range.2 < ' '.toNat ∨ '~'.toNat < range.1 := by
  decide +kernel

variable {character : Char}

namespace IsPlain

theorem isUnprintable_eq_false (plain : IsPlain character) : isUnprintable character = false := by
  rw [← Bool.not_eq_true]
  intro found
  obtain ⟨range, listed, first, last⟩ := exists_range_of_inRanges found
  have low : ' '.toNat < character.toNat := plain.low
  have high : character.toNat ≤ '~'.toNat := plain.high
  rcases unprintableRanges_apart range listed.val with before | after
  · omega
  · omega

theorem ne_of_le_blank (plain : IsPlain character) {control : Char} (early : control ≤ ' ') :
    character ≠ control := by
  rintro rfl
  exact absurd plain.low (Char.not_lt.mpr early)

theorem escape_eq (plain : IsPlain character) : escape '"' character = character.toString := by
  have null : character ≠ '\x00' := plain.ne_of_le_blank (by decide)
  have tab : character ≠ '\t' := plain.ne_of_le_blank (by decide)
  have return_ : character ≠ '\r' := plain.ne_of_le_blank (by decide)
  have newline : character ≠ '\n' := plain.ne_of_le_blank (by decide)
  simp [escape, null, tab, return_, newline, plain.unescaped, plain.unquoted,
    plain.isUnprintable_eq_false]

end IsPlain

theorem foldl_escape_eq {characters : List Char}
    (plain : ∀ character ∈ characters, IsPlain character) (written : String) :
    characters.foldl (fun written character => written ++ escape '"' character) written
      = written ++ String.ofList characters := by
  induction characters generalizing written with
  | nil => simp
  | cons first rest ih =>
      have later := ih (fun other listed => plain other (List.mem_cons_of_mem _ listed))
      rw [List.foldl_cons, (plain first List.mem_cons_self).escape_eq, later, String.append_assoc]
      refine congrArg (written ++ ·) (String.toList_inj.mp ?_)
      simp

/-- A text of plain characters stands as it is between the quotes. -/
theorem quoteString_eq_of_plain {text : String}
    (plain : ∀ character ∈ text.toList, IsPlain character) :
    quoteString text = "\"" ++ text ++ "\"" := by
  rw [quoteString, String.foldl_eq_foldl_toList, foldl_escape_eq plain, String.ofList_toList]

end FrontEnd.Text
