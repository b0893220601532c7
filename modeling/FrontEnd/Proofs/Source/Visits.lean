import FrontEnd.Proofs.Source.Session

/-! The cursors that sessions with a source come to. They stand between its characters, every place
between two characters has one of them, and the one with the smaller offset comes to the other by
advancing. -/

namespace FrontEnd

/-- Some session with the source ends with the cursor. -/
def SourceText.Visits (source : SourceText) (cursor : Cursor) : Prop :=
  ∃ requests, (Cursor.walker.run ⟨source.cursor, []⟩ requests).2.current = cursor

theorem isPrefix_of_size_le {first second text : List Char} (firstPart : first <+: text)
    (secondPart : second <+: text) (smaller : first.utf8Encode.size ≤ second.utf8Encode.size) :
    first <+: second := by
  rcases List.prefix_or_prefix_of_prefix firstPart secondPart with shorter | ⟨passed, whole⟩
  · exact shorter
  · have length := length_le_size_utf8Encode passed
    rw [← whole, List.utf8Encode_append, ByteArray.size_append] at smaller
    have nothing : passed = [] := List.eq_nil_of_length_eq_zero (by omega)
    rw [nothing, List.append_nil] at whole
    exact whole ▸ List.prefix_rfl

theorem eq_of_size_eq {first second text : List Char} (firstPart : first <+: text)
    (secondPart : second <+: text) (same : first.utf8Encode.size = second.utf8Encode.size) :
    first = second :=
  (isPrefix_of_size_le firstPart secondPart same.le).eq_of_length_le
    (isPrefix_of_size_le secondPart firstPart same.ge).length_le

namespace Cursor

variable {source : SourceText} {first second cursor stop : Cursor}

namespace Divides

variable {before ahead : List Char}

theorem unique (here : first.Divides source before ahead)
    (there : second.Divides source before ahead) : first = second := by
  have padded := here.padded.trans there.padded.symm
  have length := here.length.trans there.length.symm
  have path := here.path.trans there.path.symm
  have offset := here.offset.trans there.offset.symm
  have line := here.line.trans there.line.symm
  have column := here.column.trans there.column.symm
  cases first
  cases second
  simp_all

theorem ofShows {zipper : Zipper} (shown : cursor.Shows source zipper) :
    cursor.Divides source zipper.behind.reverse zipper.ahead := by
  rwa [Cursor.Divides, List.reverse_reverse]

theorem iterate_eq {passed : List Char} (here : first.Divides source before (passed ++ ahead))
    (there : second.Divides source (before ++ passed) ahead) :
    Cursor.advance^[passed.length] first = second := by
  have walked := here.iterate passed.length
  rw [List.take_left, List.drop_left] at walked
  exact walked.unique there

end Divides

theorem run_advances (cursor : Cursor) (clones : List Cursor) (count : Nat) :
    (walker.run ⟨cursor, clones⟩ (List.replicate count .advance)).2.current
      = advance^[count] cursor := by
  induction count generalizing cursor with
  | zero => rfl
  | succ count ih => exact ih cursor.advance

end Cursor

namespace SourceText

variable {source : SourceText} {first second cursor stop : Cursor} {before ahead : List Char}

theorem visits_iterate (source : SourceText) (count : Nat) :
    source.Visits (Cursor.advance^[count] source.cursor) :=
  ⟨_, Cursor.run_advances source.cursor [] count⟩

theorem visits_iff_exists_divides :
    source.Visits cursor ↔ ∃ before ahead, cursor.Divides source before ahead := by
  constructor
  · rintro ⟨requests, rfl⟩
    obtain ⟨_, last⟩ := Session.Shows.run
      (⟨Cursor.shows_ofText source, .nil⟩ : Session.Shows ⟨source.cursor, []⟩ source ⟨_, []⟩) requests
    exact ⟨_, _, .ofShows last.current⟩
  · rintro ⟨before, ahead, divides⟩
    have walked := Cursor.divides_iterate_advance source before ahead divides.whole
    rw [divides.unique walked]
    exact source.visits_iterate before.length

namespace Visits

theorem reaches (visited : source.Visits cursor) (walk : cursor.Reaches stop) :
    source.Visits stop := by
  obtain ⟨steps, rfl⟩ := walk
  induction steps with
  | zero => exact visited
  | succ steps ih =>
      obtain ⟨before, ahead, divides⟩ := visits_iff_exists_divides.mp ih
      rw [Function.iterate_succ_apply']
      exact visits_iff_exists_divides.mpr ⟨_, _, divides.advance_take⟩

theorem divides (visited : source.Visits cursor) (whole : before ++ ahead = source.text.toList)
    (place : cursor.offset = before.utf8Encode.size) : cursor.Divides source before ahead := by
  obtain ⟨passed, rest, here⟩ := visits_iff_exists_divides.mp visited
  obtain rfl : passed = before :=
    eq_of_size_eq ⟨rest, here.whole⟩ ⟨ahead, whole⟩ (here.offset_eq.symm.trans place)
  have rest_eq : rest = ahead := List.append_cancel_left (here.whole.trans whole.symm)
  rwa [rest_eq] at here

theorem between (earlier : source.Visits first) (later : source.Visits second)
    (ordered : first.offset ≤ second.offset) :
    ∃ before passed ahead, first.Divides source before (passed ++ ahead) ∧
      second.Divides source (before ++ passed) ahead := by
  obtain ⟨before, rest, here⟩ := visits_iff_exists_divides.mp earlier
  obtain ⟨upTo, ahead, there⟩ := visits_iff_exists_divides.mp later
  rw [here.offset_eq, there.offset_eq] at ordered
  obtain ⟨passed, rfl⟩ := isPrefix_of_size_le ⟨rest, here.whole⟩ ⟨ahead, there.whole⟩ ordered
  have rest_eq : rest = passed ++ ahead := by
    have whole := here.whole.trans there.whole.symm
    rw [List.append_assoc] at whole
    exact List.append_cancel_left whole
  exact ⟨before, passed, ahead, rest_eq ▸ here, there⟩

end Visits

end SourceText

end FrontEnd
