import MbedtlsKcp.Mp4List

/-!
# Recordings that are written and read back

A line of at most 127 bytes is read as a whole.  The end of a longer one is left
for another round, which counts it once more if it returns at all.
-/

namespace MbedtlsKcp

namespace Mp4List

open ByteBuffers CStrings DecimalText

/-! ## The file written -/

theorem foldlM_setFileList {recordings : List FileList}
    (named : ∀ recording ∈ recordings, recording.Named)
    (file : Option (List UInt8)) :
    ((∀ recording ∈ recordings,
        (recording.text recording.name).length < bufSize) →
      ∃ after, recordings.foldlM setFileList file = some after ∧
        after.getD [] = file.getD [] ++ recordings.flatMap FileList.line) ∧
    ∀ after, recordings.foldlM setFileList file = some after →
      ∀ recording ∈ recordings,
        (recording.text recording.name).length < bufSize := by
  induction recordings generalizing file with
  | nil =>
      refine ⟨fun _ => ⟨file, rfl, ?_⟩, ?_⟩
      · rw [List.flatMap_nil, List.append_nil]
      · intro after _ recording member
        exact absurd member List.not_mem_nil
  | cons recording rest ih =>
      obtain ⟨first, others⟩ := List.forall_mem_cons.mp named
      obtain ⟨writes, fails⟩ := first.setFileList file
      constructor
      · intro short
        obtain ⟨fits, later⟩ := List.forall_mem_cons.mp short
        obtain ⟨after, isAfter, contents⟩ :=
          (ih others (some (file.getD [] ++ recording.line))).1 later
        refine ⟨after, ?_, ?_⟩
        · rw [List.foldlM_cons, writes fits]
          exact isAfter
        · rw [contents, Option.getD_some, List.flatMap_cons, List.append_assoc]
      · intro after isAfter
        rw [List.foldlM_cons] at isAfter
        obtain ⟨next, written, later⟩ := Option.bind_eq_some_iff.mp isAfter
        refine List.forall_mem_cons.mpr ⟨?_, (ih others next).2 after later⟩
        by_contra long
        rw [fails (Nat.le_of_not_lt long)] at written
        cases written

/-! ## One line -/

section Lines

variable {recording : FileList} {list after : List FileList}
variable {num count : Nat}

theorem readLines_short (named : recording.Named)
    (short : (recording.text recording.name).length ≤ 124)
    (rest : List UInt8) :
    readLines num list (chunks (recording.line ++ rest)) =
      (readLine list num (recording.text recording.name)).bind fun list =>
        readLines (num + 1) list (chunks rest) := by
  have string : cString (recording.text recording.name ++ [0, 13] ++ [10] ++ [0]) =
      recording.text recording.name := by
    simp only [List.append_assoc, List.cons_append]
    exact cString_append _ (zero_not_mem_text recording)
  rw [(chunks_line named rest).1 short, readLines, string]

/-- The round after a line that was cut. -/
theorem readLines_long (named : recording.Named)
    (long : 125 ≤ (recording.text recording.name).length)
    (fits : (recording.text recording.name).length < bufSize)
    (rest : List UInt8) :
    readLines num list (chunks (recording.line ++ rest)) =
      (readLine list num (recording.text recording.name)).bind fun list =>
        (readLine list (num + 1) (cString
          ([0, 13].drop (127 - (recording.text recording.name).length) ++
            [10] ++ [0]))).bind fun list =>
          readLines (num + 2) list (chunks rest) := by
  rw [(chunks_line named rest).2 long fits, readLines, cString_chunk]
  rfl

/-- A cut line is counted twice, if reading goes on at all. -/
theorem count_of_long (named : recording.Named)
    (long : 125 ≤ (recording.text recording.name).length)
    (fits : (recording.text recording.name).length < bufSize)
    {rest : List UInt8}
    (reads : readLines num list (chunks (recording.line ++ rest)) =
      some (count, after)) :
    ∃ next, readLines (num + 2) next (chunks rest) = some (count, after) := by
  rw [readLines_long named long fits] at reads
  obtain ⟨next, -, later⟩ := Option.bind_eq_some_iff.mp reads
  obtain ⟨last, isLast, later⟩ := Option.bind_eq_some_iff.mp later
  exact ⟨last, later⟩

end Lines

/-! ## All lines -/

/-- The rounds count every line, and one of 128 bytes and more twice. -/
theorem count_of_readLines {recordings : List FileList}
    (named : ∀ recording ∈ recordings, recording.Named)
    (fit : ∀ recording ∈ recordings,
      (recording.text recording.name).length < bufSize)
    {num count : Nat} {list after : List FileList}
    (reads : readLines num list (chunks (recordings.flatMap FileList.line)) =
      some (count, after)) :
    num + recordings.length ≤ count ∧
      (count = num + recordings.length → ∀ recording ∈ recordings,
        (recording.text recording.name).length ≤ 124) := by
  induction recordings generalizing num list with
  | nil =>
      rw [List.flatMap_nil, chunks, readLines] at reads
      cases reads
      refine ⟨Nat.le_refl _, ?_⟩
      intro _ recording member
      exact absurd member List.not_mem_nil
  | cons recording rest ih =>
      obtain ⟨first, others⟩ := List.forall_mem_cons.mp named
      obtain ⟨fits, fitRest⟩ := List.forall_mem_cons.mp fit
      rw [List.flatMap_cons] at reads
      rw [List.length_cons]
      by_cases short : (recording.text recording.name).length ≤ 124
      · rw [readLines_short first short] at reads
        obtain ⟨next, -, later⟩ := Option.bind_eq_some_iff.mp reads
        obtain ⟨atLeast, exact⟩ := ih others fitRest later
        refine ⟨by omega, ?_⟩
        intro same
        exact List.forall_mem_cons.mpr ⟨short, exact (by omega)⟩
      · obtain ⟨next, later⟩ := count_of_long first (by omega) fits reads
        obtain ⟨atLeast, -⟩ := ih others fitRest later
        refine ⟨by omega, ?_⟩
        intro same
        omega

theorem readLine_eq_some {recording : FileList} (named : recording.Named)
    {list next : List FileList} {num : Nat}
    (reads : readLine list num (recording.text recording.name) = some next) :
    ∃ old read, list[num]? = some old ∧ recording.readInto old = some read ∧
      next = list.set num read := by
  rw [readLine_text named] at reads
  obtain ⟨old, isOld, later⟩ := Option.bind_eq_some_iff.mp reads
  obtain ⟨read, isRead, rfl⟩ := Option.map_eq_some_iff.mp later
  exact ⟨old, read, isOld, isRead, rfl⟩

/-- Every recording is read into the entry of its place. -/
theorem entries_of_readLines {recordings : List FileList}
    (named : ∀ recording ∈ recordings, recording.Named)
    (short : ∀ recording ∈ recordings,
      (recording.text recording.name).length ≤ 124)
    {num count : Nat} {list after : List FileList}
    (reads : readLines num list (chunks (recordings.flatMap FileList.line)) =
      some (count, after)) :
    (∀ j < num, after[j]? = list[j]?) ∧
      ∀ i recording, recordings[i]? = some recording →
        ∃ old read, list[num + i]? = some old ∧
          recording.readInto old = some read ∧ after[num + i]? = some read := by
  induction recordings generalizing num list with
  | nil =>
      rw [List.flatMap_nil, chunks, readLines] at reads
      cases reads
      refine ⟨fun _ _ => rfl, ?_⟩
      intro i recording absent
      rw [List.getElem?_nil] at absent
      cases absent
  | cons recording rest ih =>
      obtain ⟨first, others⟩ := List.forall_mem_cons.mp named
      obtain ⟨fits, shortRest⟩ := List.forall_mem_cons.mp short
      rw [List.flatMap_cons, readLines_short first fits] at reads
      obtain ⟨next, isNext, later⟩ := Option.bind_eq_some_iff.mp reads
      obtain ⟨old, read, isOld, isRead, rfl⟩ := readLine_eq_some first isNext
      obtain ⟨before, entries⟩ := ih others shortRest later
      constructor
      · intro j earlier
        rw [before j (by omega), List.getElem?_set_ne (by omega)]
      · intro i other isOther
        cases i with
        | zero =>
            cases isOther
            have inside := (List.getElem?_eq_some_iff.mp isOld).1
            refine ⟨old, read, isOld, isRead, ?_⟩
            rw [Nat.add_zero, before num (Nat.lt_succ_self _),
              List.getElem?_set_self inside]
        | succ i =>
            have place : num + 1 + i = num + (i + 1) := by omega
            obtain ⟨oldOther, readOther, isOldOther, isReadOther, isAfter⟩ :=
              entries i other isOther
            rw [place, List.getElem?_set_ne (by omega)] at isOldOther
            rw [place] at isAfter
            exact ⟨oldOther, readOther, isOldOther, isReadOther, isAfter⟩

/-- Short lines are all read. -/
theorem readLines_returns {recordings : List FileList}
    (named : ∀ recording ∈ recordings, recording.Named)
    (short : ∀ recording ∈ recordings, recording.name ≠ [] ∧
      (recording.text recording.name).length ≤ 124)
    {num : Nat} {list : List FileList}
    (room : num + recordings.length ≤ list.length)
    (fields : ∀ entry ∈ list, entry.fileName.length = bufSize) :
    ∃ after, readLines num list (chunks (recordings.flatMap FileList.line)) =
      some (num + recordings.length, after) := by
  induction recordings generalizing num list with
  | nil =>
      rw [List.flatMap_nil, chunks]
      exact ⟨list, rfl⟩
  | cons recording rest ih =>
      obtain ⟨first, others⟩ := List.forall_mem_cons.mp named
      obtain ⟨⟨notEmpty, fits⟩, shortRest⟩ := List.forall_mem_cons.mp short
      rw [List.length_cons] at room
      have inside : num < list.length := by omega
      have field := fields _ (List.getElem_mem inside)
      have length : (recording.name ++
          list[num].fileName.drop recording.name.length).length = bufSize := by
        have := first.length_lt
        rw [List.length_append, List.length_drop]
        omega
      rw [List.flatMap_cons, readLines_short first fits, readLine_text first,
        List.getElem?_eq_getElem inside, Option.bind_some,
        readInto_of_name first notEmpty field, Option.map_some,
        Option.bind_some, List.length_cons, Nat.add_comm rest.length,
        ← Nat.add_assoc]
      apply ih others shortRest
      · rw [List.length_set]
        omega
      · intro entry member
        rcases List.mem_or_eq_of_mem_set member with old | rfl
        · exact fields entry old
        · exact length

/-! ## The round trip -/

/-- The recordings are written, and their number, names and timestamps are what
is read. -/
def RoundTrips (recordings list : List FileList) : Prop :=
  ∃ file after, recordings.foldlM setFileList none = some file ∧
    getFileList file list = some (recordings.length, after) ∧
    ∀ (i : Nat) (recording : FileList), recordings[i]? = some recording →
      ∃ read : FileList, after[i]? = some read ∧
        readString read.fileName = some recording.name ∧
        read.startTimestamp = recording.startTimestamp ∧
        read.stopTimestamp = recording.stopTimestamp

/-- The name is not empty, the line fits in one round, and the list has a
terminator where the name will end. -/
def Kept (recordings list : List FileList) : Prop :=
  ∀ (i : Nat) (recording : FileList), recordings[i]? = some recording →
    recording.name ≠ [] ∧ (recording.text recording.name).length ≤ 124 ∧
      ∃ entry : FileList, list[i]? = some entry ∧
        entry.fileName[recording.name.length]? = some 0

theorem getFileList_eq (file : Option (List UInt8)) (list : List FileList) :
    getFileList file list = readLines 0 list (chunks (file.getD [])) := by
  cases file with
  | none => rw [Option.getD_none, chunks, getFileList, readLines]
  | some stream => rfl

section RoundTrip

variable {recordings list : List FileList}

theorem RoundTrips.kept
    (named : ∀ recording ∈ recordings, recording.Named)
    (fields : ∀ entry ∈ list, entry.fileName.length = bufSize)
    (roundTrips : RoundTrips recordings list) : Kept recordings list := by
  obtain ⟨writes, fit⟩ := foldlM_setFileList named none
  obtain ⟨file, after, written, reads, found⟩ := roundTrips
  have fits := fit file written
  obtain ⟨whole, isWhole, contents⟩ := writes fits
  rw [written] at isWhole
  cases isWhole
  rw [getFileList_eq, contents, Option.getD_none, List.nil_append] at reads
  have short := (count_of_readLines named fits reads).2 (by omega)
  intro i recording isRecording
  have member := List.mem_of_getElem? isRecording
  obtain ⟨old, read, isOld, isRead, isAfter⟩ :=
    (entries_of_readLines named short reads).2 i recording isRecording
  rw [Nat.zero_add] at isOld isAfter
  obtain ⟨same, isSame, values⟩ := found i recording isRecording
  rw [isAfter] at isSame
  cases isSame
  obtain ⟨notEmpty, ends⟩ := (readInto_iff (named recording member)
    (fields old (List.mem_of_getElem? isOld))).mp ⟨read, isRead, values⟩
  exact ⟨notEmpty, short recording member, old, isOld, ends⟩

theorem Kept.roundTrips
    (named : ∀ recording ∈ recordings, recording.Named)
    (room : recordings.length ≤ list.length)
    (fields : ∀ entry ∈ list, entry.fileName.length = bufSize)
    (kept : Kept recordings list) : RoundTrips recordings list := by
  have short : ∀ recording ∈ recordings, recording.name ≠ [] ∧
      (recording.text recording.name).length ≤ 124 := by
    intro recording member
    obtain ⟨i, isRecording⟩ := List.mem_iff_getElem?.mp member
    obtain ⟨notEmpty, fits, -⟩ := kept i recording isRecording
    exact ⟨notEmpty, fits⟩
  obtain ⟨file, written, contents⟩ := (foldlM_setFileList named none).1
    fun recording member =>
      Nat.lt_of_le_of_lt (short recording member).2 (by decide)
  obtain ⟨after, reads⟩ := readLines_returns named short
    (by omega : 0 + recordings.length ≤ list.length) fields
  refine ⟨file, after, written, ?_, ?_⟩
  · rw [getFileList_eq, contents, Option.getD_none, List.nil_append, reads,
      Nat.zero_add]
  · intro i recording isRecording
    have member := List.mem_of_getElem? isRecording
    obtain ⟨notEmpty, -, entry, isEntry, ends⟩ := kept i recording isRecording
    obtain ⟨old, read, isOld, isRead, isAfter⟩ := (entries_of_readLines named
      (fun recording member => (short recording member).2) reads).2
        i recording isRecording
    rw [Nat.zero_add] at isOld isAfter
    rw [isEntry] at isOld
    cases isOld
    obtain ⟨same, isSame, values⟩ := (readInto_iff (named recording member)
      (fields entry (List.mem_of_getElem? isEntry))).mpr ⟨notEmpty, ends⟩
    rw [isRead] at isSame
    cases isSame
    exact ⟨read, isAfter, values⟩

/-- Recordings come back exactly when their names are not empty, their lines
are short and the list has terminators where the names end. -/
theorem roundTrips_iff_kept
    (named : ∀ recording ∈ recordings, recording.Named)
    (room : recordings.length ≤ list.length)
    (fields : ∀ entry ∈ list, entry.fileName.length = bufSize) :
    RoundTrips recordings list ↔ Kept recordings list :=
  ⟨RoundTrips.kept named fields, Kept.roundTrips named room fields⟩

end RoundTrip

/-- A recording of a name, with timestamps of 32 bits. -/
def recording (fileName : String) : FileList where
  fileName := snprintf (List.replicate bufSize 0) bufSize (ascii fileName)
  recordEventType := -1
  startTimestamp := 4294967294
  stopTimestamp := 4294967295
  durationTime := 1

theorem field_recording (fileName : String) :
    (recording fileName).fileName.length = bufSize := by
  rw [recording, length_snprintf (by rw [List.length_replicate]),
    List.length_replicate]

theorem name_recording {fileName : String} (clear : 0 ∉ ascii fileName)
    (short : (ascii fileName).length < bufSize) :
    (recording fileName).name = ascii fileName := by
  rw [FileList.name, recording, cString_snprintf (by decide) clear]
  exact List.take_of_length_le (Nat.le_sub_one_of_lt short)

theorem named_recording {fileName : String} (clear : 0 ∉ ascii fileName)
    (short : (ascii fileName).length < bufSize)
    (noComma : comma ∉ ascii fileName)
    (noSpace : ∀ byte ∈ ascii fileName, HexScanning.isSpace byte = false) :
    (recording fileName).Named where
  duration := by
    change (1 : UInt32) ≠ 0
    decide
  field := field_recording fileName
  terminated := by
    rw [recording, snprintf, if_neg (by decide), Terminated, overwrite]
    simp
  noComma := by rwa [name_recording clear short]
  noSpace := by rwa [name_recording clear short]

/-- Two recordings read into a list with names of the same length. -/
theorem roundTrips_iff_kept_two :
    RoundTrips [recording "a.mp4", recording "b.mp4"]
        [recording "", recording "c.mp4"] ↔
      Kept [recording "a.mp4", recording "b.mp4"]
        [recording "", recording "c.mp4"] := by
  refine roundTrips_iff_kept ?_ (Nat.le_refl 2) ?_
  · intro written member
    rcases List.mem_cons.mp member with rfl | member
    · exact named_recording (by decide) (by decide) (by decide)
        (by decide +kernel)
    · rw [List.mem_singleton.mp member]
      exact named_recording (by decide) (by decide) (by decide)
        (by decide +kernel)
  · intro entry member
    rcases List.mem_cons.mp member with rfl | member
    · exact field_recording _
    · rw [List.mem_singleton.mp member]
      exact field_recording _

/-- A name read into a longer one keeps the end of it. -/
theorem not_forall_listed_roundTrip :
    ¬ ∀ recordings list : List FileList,
      (∀ recording ∈ recordings, recording.Named) →
      recordings.length ≤ list.length →
      (∀ entry ∈ list, entry.fileName.length = bufSize) →
      RoundTrips recordings list := by
  intro holds
  have named : ∀ written ∈ [recording "a.mp4"], written.Named := by
    intro written member
    rw [List.mem_singleton.mp member]
    exact named_recording (by decide) (by decide) (by decide)
      (by decide +kernel)
  have fields : ∀ entry ∈ [recording "abc.mp4"],
      entry.fileName.length = bufSize := by
    intro entry member
    rw [List.mem_singleton.mp member]
    exact field_recording _
  obtain ⟨-, -, entry, isEntry, ends⟩ :=
    (holds [recording "a.mp4"] [recording "abc.mp4"] named (Nat.le_refl 1)
      fields).kept named fields 0 _ rfl
  cases isEntry
  rw [name_recording (by decide) (by decide)] at ends
  exact absurd ends (by decide +kernel)

end Mp4List

end MbedtlsKcp
