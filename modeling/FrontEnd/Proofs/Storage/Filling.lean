import FrontEnd.Proofs.Storage.Loading
import FrontEnd.Proofs.Storage.Recording

/-! Refilling a buffer from an open file. An operating system hands out what remains of the file in
pieces of any length, with interruptions between them. The buffer is filled as if all came at once,
up to the first read that fails, which fails the whole. -/

namespace FrontEnd

/-- What a read may answer where `rest` remains of a file: some bytes of its front, of which what is
behind them remains, none only where nothing remains, an interruption, or a failure. -/
inductive Handed (remains : ByteArray → Prop) (rest : ByteArray) : Except OsError ByteArray → Prop
  | part {piece later} : 0 < piece.size → rest = piece ++ later → remains later →
      Handed remains rest (.ok piece)
  | ended : rest.size = 0 → remains rest → Handed remains rest (.ok ByteArray.empty)
  | interrupted : remains rest → Handed remains rest (.error .interrupted)
  | failed {cause} : cause ≠ .interrupted → Handed remains rest (.error cause)

theorem overlay_append (first second buffer : ByteArray) :
    overlay (first ++ second) buffer
      = first ++ overlay second (buffer.extract first.size buffer.size) := by
  by_cases within : first.size ≤ buffer.size
  · simp only [overlay, ByteArray.size_append, ByteArray.size_extract, ByteArray.extract_extract,
      ByteArray.append_assoc]
    congr 3
    omega
  · have past : buffer.size ≤ first.size := by omega
    simp only [overlay, ByteArray.size_append, ByteArray.append_assoc,
      extract_eq_empty_of_le past, ByteArray.size_empty]
    rw [extract_eq_empty_of_le (by omega), extract_eq_empty_of_le (by simp)]

def overlayAt (start : Nat) (bytes buffer : ByteArray) : ByteArray :=
  buffer.extract 0 start ++ overlay bytes (buffer.extract start buffer.size)

theorem overlayAt_append (front back bytes : ByteArray) :
    overlayAt front.size bytes (front ++ back) = front ++ overlay bytes back := by
  rw [overlayAt, ByteArray.extract_append_eq_left rfl,
    ByteArray.extract_append_eq_right rfl (ByteArray.size_append ..)]

theorem size_overlayAt {start : Nat} {bytes buffer : ByteArray}
    (fits : start + bytes.size ≤ buffer.size) : (overlayAt start bytes buffer).size = buffer.size := by
  have short : bytes.size ≤ (buffer.extract start buffer.size).size := by
    rw [ByteArray.size_extract, Nat.min_self]
    omega
  rw [overlayAt, ByteArray.size_append, size_overlay short, ByteArray.size_extract,
    ByteArray.size_extract]
  omega

namespace Disk

variable {σ η : Type}

def Hands (disk : Disk σ η) (handle : η) (remains : σ → ByteArray → Prop) : Prop :=
  ∀ world rest room, remains world rest → 0 < room →
    Handed (remains (disk.read world handle room).2) rest (disk.read world handle room).1

/-- What comes of reads one behind the other, each with the room that those before it have left:
the bytes they hand out, and how it ends. It ends when no room is left, when a read hands out
nothing, or when one fails; an interrupted read is made again. -/
inductive Feeds (disk : Disk σ η) (handle : η) :
    σ → Nat → ByteArray → Except OsError Unit → σ → Prop
  | full {world} : disk.Feeds handle world 0 ByteArray.empty (.ok ()) world
  | ended {world after room} : 0 < room →
      disk.read world handle room = (.ok ByteArray.empty, after) →
      disk.Feeds handle world room ByteArray.empty (.ok ()) after
  | failed {world after room cause} : 0 < room → cause ≠ .interrupted →
      disk.read world handle room = (.error cause, after) →
      disk.Feeds handle world room ByteArray.empty (.error cause) after
  | part {world next after room piece bytes ending} : 0 < piece.size →
      disk.read world handle room = (.ok piece, next) →
      disk.Feeds handle next (room - piece.size) bytes ending after →
      disk.Feeds handle world room (piece ++ bytes) ending after
  | interrupted {world next after room bytes ending} : 0 < room →
      disk.read world handle room = (.error .interrupted, next) →
      disk.Feeds handle next room bytes ending after →
      disk.Feeds handle world room bytes ending after

def fillBuffer (disk : Disk σ η) (world : σ) (handle : η) (buffer : ByteArray) (filled : Nat) :
    Except OsError Nat × ByteArray × σ :=
  if filled < buffer.size then
    match outcome : disk.read world handle (buffer.size - filled) with
    | (.ok bytes, after) =>
        if bytes.size = 0 then (.ok filled, buffer, after)
        else
          have := disk.size_read_le outcome
          disk.fillBuffer after handle (overlayAt filled bytes buffer) (filled + bytes.size)
    | (.error .interrupted, after) =>
        have := disk.interruptions_read_lt outcome
        disk.fillBuffer after handle buffer filled
    | (.error cause, after) => (.error cause, buffer, after)
  else (.ok filled, buffer, world)
termination_by (buffer.size - filled, disk.interruptions world handle)
decreasing_by
  · left
    rw [size_overlayAt (by omega)]
    omega
  · right
    assumption

variable {disk : Disk σ η} {world after : σ} {handle : η} {room : Nat} {bytes front back : ByteArray}
variable {ending : Except OsError Unit} {remains : σ → ByteArray → Prop}

theorem fillBuffer_eq_of_read (disk : Disk σ η) (world : σ) (handle : η) (front : ByteArray)
    (vacant : ¬back.size = 0) :
    disk.fillBuffer world handle (front ++ back) front.size
      = match disk.read world handle back.size with
        | (.ok bytes, after) =>
            if bytes.size = 0 then (.ok front.size, front ++ back, after)
            else disk.fillBuffer after handle (front ++ overlay bytes back) (front.size + bytes.size)
        | (.error cause, after) =>
            if cause = .interrupted then disk.fillBuffer after handle (front ++ back) front.size
            else (.error cause, front ++ back, after) := by
  have left : (front ++ back).size - front.size = back.size := by
    rw [ByteArray.size_append]
    omega
  rw [fillBuffer, if_pos (by omega)]
  split
  · rename_i bytes after found
    rw [left] at found
    simp only [found, overlayAt_append]
  · rename_i after found
    rw [left] at found
    simp only [found, if_true]
  · rename_i cause after lasting found
    rw [left] at found
    simp only [found, if_neg lasting]

namespace Feeds

theorem fill_eq (feeds : disk.Feeds handle world room bytes ending after)
    (filled : ByteArray) :
    disk.fill world handle room filled = (ending.map fun _ => filled ++ bytes, after) := by
  induction feeds generalizing filled with
  | full => rw [fill, if_pos rfl, ByteArray.append_empty]; rfl
  | ended vacant outcome =>
      rw [fill_eq_of_read handle disk _ (Nat.ne_of_gt vacant), outcome, ByteArray.append_empty]
      rfl
  | failed vacant lasting outcome =>
      rw [fill_eq_of_read handle disk _ (Nat.ne_of_gt vacant), outcome]
      exact if_neg lasting
  | part more outcome _ ih =>
      have short := disk.size_read_le outcome
      rw [fill_eq_of_read handle disk _ (by omega), outcome, ← ByteArray.append_assoc, ← ih]
      exact if_neg (Nat.ne_of_gt more)
  | interrupted vacant outcome _ ih =>
      rw [fill_eq_of_read handle disk _ (Nat.ne_of_gt vacant), outcome, ← ih]
      exact if_pos rfl

theorem fillBuffer_eq (feeds : disk.Feeds handle world back.size bytes ending after)
    (front : ByteArray) :
    disk.fillBuffer world handle (front ++ back) front.size
      = (ending.map fun _ => front.size + bytes.size, front ++ overlay bytes back, after) := by
  generalize size : back.size = room at feeds
  -- A piece that was read joins the front, and the rest of the buffer is the new back.
  induction feeds generalizing front back with
  | full =>
      rw [fillBuffer, if_neg (by rw [ByteArray.size_append]; omega), overlay_empty]
      rfl
  | ended vacant outcome =>
      rw [fillBuffer_eq_of_read disk _ handle front (by omega), size, outcome, overlay_empty]
      rfl
  | failed vacant lasting outcome =>
      rw [fillBuffer_eq_of_read disk _ handle front (by omega), size, outcome, overlay_empty]
      exact if_neg lasting
  | @part world next after room piece bytes ending more outcome rest ih =>
      have short := disk.size_read_le outcome
      have left : (back.extract piece.size back.size).size = room - piece.size := by
        rw [ByteArray.size_extract]
        omega
      have later := ih (front ++ piece) left
      rw [ByteArray.size_append, ByteArray.append_assoc, ByteArray.append_assoc] at later
      rw [fillBuffer_eq_of_read disk _ handle front (by omega), size, outcome, overlay_append,
        ByteArray.size_append, ← Nat.add_assoc, ← later]
      exact if_neg (Nat.ne_of_gt more)
  | interrupted vacant outcome _ ih =>
      rw [fillBuffer_eq_of_read disk _ handle front (by omega), size, outcome, ← ih front size]
      exact if_pos rfl

theorem size_le (feeds : disk.Feeds handle world room bytes ending after) :
    bytes.size ≤ room := by
  induction feeds with
  | full | ended | failed => exact Nat.zero_le _
  | part more outcome _ ih =>
      have short := disk.size_read_le outcome
      rw [ByteArray.size_append]
      omega
  | interrupted _ _ _ ih => exact ih

end Feeds

theorem exists_feeds (disk : Disk σ η) (world : σ) (handle : η) (room : Nat) :
    ∃ bytes ending after, disk.Feeds handle world room bytes ending after := by
  fun_induction Disk.fill disk world handle room ByteArray.empty with
  | case1 world filled => exact ⟨_, _, _, .full⟩
  | case2 world room filled vacant bytes after outcome nothing =>
      obtain rfl := ByteArray.size_eq_zero_iff.mp nothing
      exact ⟨_, _, _, .ended (Nat.pos_of_ne_zero vacant) outcome⟩
  | case3 world room filled vacant piece next outcome more ih =>
      obtain ⟨bytes, ending, after, rest⟩ := ih
      exact ⟨_, _, _, .part (Nat.pos_of_ne_zero more) outcome rest⟩
  | case4 world room filled vacant next outcome closer ih =>
      obtain ⟨bytes, ending, after, rest⟩ := ih
      exact ⟨_, _, _, .interrupted (Nat.pos_of_ne_zero vacant) outcome rest⟩
  | case5 world room filled vacant cause after lasting outcome =>
      exact ⟨_, _, _, .failed (Nat.pos_of_ne_zero vacant) lasting outcome⟩

theorem Hands.handed (hands : disk.Hands handle remains) {rest : ByteArray}
    (stands : remains world rest) (vacant : 0 < room) {answer : Except OsError ByteArray}
    (outcome : disk.read world handle room = (answer, after)) :
    Handed (remains after) rest answer := by
  have handed := hands world rest room stands vacant
  rwa [outcome] at handed

theorem Hands.exists_append (hands : disk.Hands handle remains) {rest : ByteArray}
    (stands : remains world rest) (feeds : disk.Feeds handle world room bytes ending after) :
    ∃ later, rest = bytes ++ later ∧
      (ending = .ok () → remains after later ∧ (bytes.size = room ∨ later.size = 0)) := by
  induction feeds generalizing rest with
  | full => exact ⟨rest, by rw [ByteArray.empty_append], fun _ => ⟨stands, .inl rfl⟩⟩
  | ended vacant outcome =>
      refine ⟨rest, by rw [ByteArray.empty_append], fun _ => ?_⟩
      cases hands.handed stands vacant outcome with
      | part more => exact absurd more (Nat.lt_irrefl _)
      | ended nothing kept => exact ⟨kept, .inr nothing⟩
  | failed vacant lasting outcome => exact ⟨rest, by rw [ByteArray.empty_append], nofun⟩
  | part more outcome fed ih =>
      have short := disk.size_read_le outcome
      cases hands.handed stands (by omega) outcome with
      | ended => exact absurd more (Nat.lt_irrefl _)
      | part _ whole left =>
          obtain ⟨later, split, finished⟩ := ih left
          refine ⟨later, by rw [whole, split, ByteArray.append_assoc], fun succeeded => ?_⟩
          obtain ⟨kept, all⟩ := finished succeeded
          have inside := fed.size_le
          refine ⟨kept, all.imp_left fun filled => ?_⟩
          rw [ByteArray.size_append]
          omega
  | interrupted vacant outcome _ ih =>
      cases hands.handed stands vacant outcome with
      | interrupted kept => exact ih kept
      | failed lasting => exact absurd rfl lasting

/-! A disk that answers reads by a script shows that every division into pieces, with any
interruptions and failures between them, is the behaviour of some disk. -/

inductive ReadStep where
  | piece (more : Nat)
  | interrupted
  | failing (cause : OsError)

def scripted : Disk (ByteArray × List ReadStep) Unit where
  openFile world _ := (.ok (), world)
  seek world _ _ := (.ok (), world)
  read world _ room :=
    let hand (count : Nat) (steps : List ReadStep) :
        Except OsError ByteArray × ByteArray × List ReadStep :=
      (.ok (world.1.extract 0 count), world.1.extract count world.1.size, steps)
    match world.2 with
    | [] => hand room []
    | .piece more :: steps => hand (min (more + 1) room) steps
    | .interrupted :: steps => (.error .interrupted, world.1, steps)
    | .failing cause :: steps => (.error cause, world.1, steps)
  close world _ := world
  interruptions world _ := world.2.length
  size_read_le := by
    rintro ⟨rest, steps⟩ after handle room bytes outcome
    rcases steps with _ | ⟨step | _ | _, steps⟩ <;> cases outcome <;>
      rw [ByteArray.size_extract] <;> omega
  interruptions_read_lt := by
    rintro ⟨rest, steps⟩ after handle room outcome
    rcases steps with _ | ⟨step | _ | _, steps⟩ <;> cases outcome <;> exact Nat.lt_succ_self _

theorem extract_append_rest (content : ByteArray) (count : Nat) :
    content.extract 0 count ++ content.extract count content.size = content := by
  by_cases within : count ≤ content.size
  · rw [← ByteArray.extract_eq_extract_append_extract count (Nat.zero_le _) within,
      ByteArray.extract_zero_size]
  · have past : content.size ≤ count := by omega
    rw [extract_eq_empty_of_le past content.size, ByteArray.append_empty, ← extract_min_size,
      Nat.min_eq_right past, ByteArray.extract_zero_size]

theorem handed_extract {remains : ByteArray → Prop} {rest : ByteArray} {count : Nat}
    (positive : 0 < count) (left : remains (rest.extract count rest.size)) :
    Handed remains rest (.ok (rest.extract 0 count)) := by
  by_cases nothing : rest.size = 0
  · obtain rfl := ByteArray.size_eq_zero_iff.mp nothing
    rw [extract_eq_empty_of_le (by simp)] at left ⊢
    exact .ended nothing left
  · refine .part ?_ ?_ left
    · rw [ByteArray.size_extract]
      omega
    · exact (extract_append_rest rest count).symm

theorem scripted_hands : scripted.Hands () fun world rest => world.1 = rest := by
  rintro ⟨rest, steps⟩ _ room rfl vacant
  rcases steps with _ | ⟨more | _ | cause, steps⟩
  · exact handed_extract vacant rfl
  · exact handed_extract (by omega) rfl
  · exact .interrupted rfl
  · by_cases again : cause = .interrupted
    · subst again
      exact .interrupted rfl
    · exact .failed again

theorem mem_of_scripted_read {world after : ByteArray × List ReadStep} {room : Nat}
    {answer : Except OsError ByteArray} (outcome : scripted.read world () room = (answer, after))
    {step : ReadStep} (listed : step ∈ after.2) : step ∈ world.2 := by
  obtain ⟨rest, steps⟩ := world
  rcases steps with _ | ⟨more | _ | cause, steps⟩ <;> cases outcome
  · exact listed
  all_goals exact List.mem_cons_of_mem _ listed

theorem scripted_lasting {world after : ByteArray × List ReadStep} {room : Nat} {bytes : ByteArray}
    {cause : OsError} (harmless : ∀ cause, .failing cause ∉ world.2) :
    ¬scripted.Feeds () world room bytes (.error cause) after := by
  intro feeds
  generalize failure : (Except.error cause : Except OsError Unit) = ending at feeds
  induction feeds with
  | full | ended => cases failure
  | @failed world after room found vacant lasting outcome =>
      obtain ⟨rest, steps⟩ := world
      rcases steps with _ | ⟨more | _ | other, steps⟩ <;> cases outcome
      · exact lasting rfl
      · exact harmless _ List.mem_cons_self
  | part _ outcome _ ih =>
      exact ih (fun cause listed => harmless cause (mem_of_scripted_read outcome listed)) failure
  | interrupted _ outcome _ ih =>
      exact ih (fun cause listed => harmless cause (mem_of_scripted_read outcome listed)) failure

/-- Whatever pieces a disk hands out and however often it interrupts, as long as no read fails a
buffer gets as much of the front of what remains of the file as there is and as it takes, the rest
of the buffer stays as it was, and the file stands behind those bytes. Where a read fails before the
buffer is full or the file ends, its failure is the result. -/
theorem fill_exact (hands : disk.Hands handle remains) {rest : ByteArray}
    (stands : remains world rest) (buffer : ByteArray) :
    (∀ bytes cause after, disk.Feeds handle world buffer.size bytes (.error cause) after →
      disk.fill world handle buffer.size ByteArray.empty = (.error cause, after) ∧
      disk.fillBuffer world handle buffer 0 = (.error cause, overlay bytes buffer, after)) ∧
    ((∀ bytes cause after, ¬disk.Feeds handle world buffer.size bytes (.error cause) after) →
      ∃ after count, count = min buffer.size rest.size ∧
        remains after (rest.extract count rest.size) ∧
        disk.fill world handle buffer.size ByteArray.empty = (.ok (rest.extract 0 count), after) ∧
        disk.fillBuffer world handle buffer 0
          = (.ok count, rest.extract 0 count ++ buffer.extract count buffer.size, after)) := by
  have filled {bytes : ByteArray} {ending : Except OsError Unit} {after : σ}
      (feeds : disk.Feeds handle world buffer.size bytes ending after) :
      disk.fill world handle buffer.size ByteArray.empty = (ending.map fun _ => bytes, after) ∧
      disk.fillBuffer world handle buffer 0
        = (ending.map fun _ => bytes.size, overlay bytes buffer, after) := by
    have list := feeds.fill_eq ByteArray.empty
    have inPlace := feeds.fillBuffer_eq ByteArray.empty
    simp only [ByteArray.empty_append, ByteArray.size_empty, Nat.zero_add] at list inPlace
    exact ⟨list, inPlace⟩
  refine ⟨fun bytes cause after feeds => filled feeds, fun lasting => ?_⟩
  obtain ⟨bytes, ending, after, feeds⟩ := disk.exists_feeds world handle buffer.size
  cases ending with
  | error cause => exact absurd feeds (lasting bytes cause after)
  | ok done =>
      obtain ⟨later, rfl, finished⟩ := hands.exists_append stands feeds
      obtain ⟨kept, all⟩ := finished rfl
      have short := feeds.size_le
      have count : bytes.size = min buffer.size (bytes ++ later).size := by
        rw [ByteArray.size_append]
        omega
      refine ⟨after, bytes.size, count, ?_, ?_⟩
      · rwa [ByteArray.extract_append_eq_right rfl (ByteArray.size_append ..)]
      · rw [ByteArray.extract_append_eq_left rfl]
        exact filled feeds

theorem fill_exact_short_reads :
    let content := "abcde".toUTF8
    let buffer := "uvwxyz!".toUTF8
    (∃ after, scripted.fillBuffer
        (content, [.piece 1, .interrupted, .interrupted, .piece 0]) () buffer 0
      = (.ok 5, "abcdez!".toUTF8, after)) ∧
    ∃ after, scripted.fillBuffer
        (content, [.piece 1, .interrupted, .failing .isDirectory]) () buffer 0
      = (.error .isDirectory, "abwxyz!".toUTF8, after) := by
  intro content buffer
  constructor
  · have lasting (bytes : ByteArray) (cause : OsError) (after : ByteArray × List ReadStep) :
        ¬scripted.Feeds () (content, [.piece 1, .interrupted, .interrupted, .piece 0])
          buffer.size bytes (.error cause) after := scripted_lasting (by simp)
    obtain ⟨after, count, size, -, -, filled⟩ := (fill_exact scripted_hands rfl buffer).2 lasting
    obtain rfl : count = 5 := size
    have whole : content.extract 0 5 ++ buffer.extract 5 buffer.size = "abcdez!".toUTF8 := by
      decide +kernel
    exact ⟨after, whole ▸ filled⟩
  · have feeds : scripted.Feeds () (content, [.piece 1, .interrupted, .failing .isDirectory])
        buffer.size ("ab".toUTF8 ++ ByteArray.empty) (.error .isDirectory) ("cde".toUTF8, []) :=
      .part (by decide +kernel) rfl (.interrupted (by decide +kernel) rfl
        (.failed (by decide +kernel) (by decide) rfl))
    have filled := ((fill_exact scripted_hands rfl buffer).1 _ _ _ feeds).2
    have whole : overlay ("ab".toUTF8 ++ ByteArray.empty) buffer = "abwxyz!".toUTF8 := by
      decide +kernel
    exact ⟨_, whole ▸ filled⟩

end Disk

theorem FileReader.read_of_feeds {σ η : Type} {disk : Disk σ η} {world moved after : σ} {handle : η}
    {reader : FileReader η} {position count : Nat} {bytes : ByteArray} {ending : Except OsError Unit}
    {events : Array Event} (held : reader.handle = some handle) (positive : 0 < count)
    (sought : disk.seekTo world handle position = (.ok (), moved, events))
    (feeds : disk.Feeds handle moved count bytes ending after) :
    (reader.read disk world position count).result
        = (ending.map fun _ => bytes).mapError (reader.fail .reading) ∧
      ((reader.read disk world position count).file.isOpen = true ↔ ending = .ok ()) := by
  have filled := feeds.fill_eq ByteArray.empty
  rw [ByteArray.empty_append] at filled
  rw [read, if_neg (Nat.ne_of_gt positive), acquire, held]
  simp only [sought, filled]
  cases ending with
  | ok done => exact ⟨rfl, by simp [Except.map, isOpen, held]⟩
  | error cause => exact ⟨rfl, by simp [Except.map, abandon, close, isOpen, held]⟩

end FrontEnd
