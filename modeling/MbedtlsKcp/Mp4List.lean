import MbedtlsKcp.DecimalText

/-!
# The list of recordings

`mp4_list.c`.  `MP4_LIST_SetFileList` appends a line to the file, its text
followed by a NUL, CR and LF; `MP4_LIST_GetFileList` reads the file through a
buffer of 128 bytes.  The file can always be opened and written.  `none` is a
NULL pointer that is read or an access outside a buffer or the list.
-/

namespace MbedtlsKcp

namespace Mp4List

open ByteBuffers CStrings DecimalText HexScanning

/-- `fileList`. -/
structure FileList where
  fileName : List UInt8
  recordEventType : Int
  startTimestamp : UInt32
  stopTimestamp : UInt32
  durationTime : UInt32

def comma : UInt8 := 44

/-- `sizeof(buf)`, `sizeof(buffer)` and the size of the field. -/
def bufSize : Nat := 128

/-! ## Writing -/

/-- `"%s,%ld,%ld,%ld,%d"`; both record modes print it, and `%ld` prints the 32
bits of a timestamp without a sign. -/
def FileList.text (list : FileList) (fileName : List UInt8) : List UInt8 :=
  fileName ++ [comma] ++ decimal list.startTimestamp.toNat ++ [comma] ++
    decimal list.stopTimestamp.toNat ++ [comma] ++
      decimal list.durationTime.toNat ++ [comma] ++
        signed list.recordEventType

/-- `MP4_LIST_SetFileList`: the file after it. -/
def setFileList (file : Option (List UInt8)) (list : FileList) :
    Option (Option (List UInt8)) :=
  if list.durationTime = 0 then some file
  else do
    let fileName ← readString list.fileName
    let buf ← copyInto (List.replicate bufSize 0) 0
      (list.text fileName ++ [0])
    let text ← readString buf
    some (some (file.getD [] ++ (text ++ [0] ++ [13, 10])))

/-! ## Reading -/

/-- What `fgets` stores of a stream, and what is left of it. -/
def fgets : Nat → List UInt8 → List UInt8 × List UInt8
  | 0, stream => ([], stream)
  | _ + 1, [] => ([], [])
  | room + 1, byte :: stream =>
      if byte = 10 then ([10], stream)
      else (byte :: (fgets room stream).1, (fgets room stream).2)

theorem length_fgets_le (room : Nat) (stream : List UInt8) :
    (fgets room stream).2.length ≤ stream.length := by
  induction stream generalizing room with
  | nil => cases room <;> exact Nat.le_refl 0
  | cons byte stream ih =>
      cases room with
      | zero => exact Nat.le_refl _
      | succ room =>
          rw [fgets]
          split
          · exact Nat.le_succ _
          · exact (ih room).trans (Nat.le_succ _)

/-- What the calls of `fgets(buffer, sizeof(buffer), fp)` store until the end
of the file. -/
def chunks (stream : List UInt8) : List (List UInt8) :=
  match stream with
  | [] => []
  | byte :: rest =>
      (fgets (bufSize - 1) (byte :: rest)).1 ::
        chunks (fgets (bufSize - 1) (byte :: rest)).2
termination_by stream.length
decreasing_by
  rw [bufSize, fgets]
  split
  · exact Nat.lt_succ_self _
  · exact Nat.lt_succ_of_le (length_fgets_le _ _)

/-- `strtok_r`: the token and the text behind its delimiter. -/
def strtok (rest : List UInt8) : Option (List UInt8 × List UInt8) :=
  let start := rest.dropWhile (· = comma)
  if start = [] then none
  else
    some (start.takeWhile (· ≠ comma), (start.dropWhile (· ≠ comma)).drop 1)

/-- A byte that `MP4_LIST_Trim` skips. -/
def isTrimmed (byte : UInt8) : Bool :=
  byte = 10 ∨ byte = 32 ∨ byte = 9 ∨ byte = 13

/-- `MP4_LIST_Trim`; a token of the buffer fits in `trimString`. -/
def trim (str : List UInt8) : List UInt8 :=
  str.filter fun byte => !isTrimmed byte

/-- `timestamp = atoi(result)`, kept in 32 bits. -/
def timestampOf (result : List UInt8) : UInt32 :=
  UInt32.ofNat (atoi (trim result) % 2 ^ 32).toNat

/-- What is stored of a line whose first token is there.  The name is copied
without its terminator, and a missing token is a NULL given to
`MP4_LIST_Trim`. -/
def FileList.read (entry : FileList) (result rest : List UInt8) :
    Option FileList := do
  let fileName ← copyInto entry.fileName 0 (trim result)
  let start ← strtok rest
  let stop ← strtok start.2
  some { entry with
    fileName := fileName
    startTimestamp := timestampOf start.1
    stopTimestamp := timestampOf stop.1 }

/-- One round of the loop of `MP4_LIST_GetFileList`. -/
def readLine (list : List FileList) (num : Nat) (buffer : List UInt8) :
    Option (List FileList) :=
  if buffer = [] then some list
  else
    match strtok buffer with
    | none => some list
    | some found =>
        (list[num]?).bind fun entry =>
          (entry.read found.1 found.2).map (list.set num ·)

/-- The rounds of the loop: the number they count and the list. -/
def readLines : Nat → List FileList → List (List UInt8) →
    Option (Nat × List FileList)
  | num, list, [] => some (num, list)
  | num, list, chunk :: rest =>
      (readLine list num (cString (chunk ++ [0]))).bind fun list =>
        readLines (num + 1) list rest

/-- `MP4_LIST_GetFileList`. -/
def getFileList (file : Option (List UInt8)) (list : List FileList) :
    Option (Nat × List FileList) :=
  match file with
  | none => some (0, list)
  | some stream => readLines 0 list (chunks stream)

/-! ## Texts -/

/-- The string of the name field. -/
def FileList.name (list : FileList) : List UInt8 :=
  cString list.fileName

/-- The bytes appended for a recording. -/
def FileList.line (list : FileList) : List UInt8 :=
  list.text list.name ++ [0] ++ [13, 10]

/-- A recording whose name is a string of its field, without commas and white
space. -/
structure FileList.Named (list : FileList) : Prop where
  duration : list.durationTime ≠ 0
  field : list.fileName.length = bufSize
  terminated : Terminated list.fileName
  noComma : comma ∉ list.name
  noSpace : ∀ byte ∈ list.name, isSpace byte = false

theorem FileList.clear (list : FileList) : 0 ∉ list.name :=
  not_mem_cString list.fileName

theorem FileList.Named.length_lt {list : FileList} (named : list.Named) :
    list.name.length < bufSize := by
  rw [← named.field]
  exact length_cString_lt named.terminated

/-- A byte of a text is in the name, a comma or part of a number. -/
theorem not_mem_text {list : FileList} {byte : UInt8}
    (notName : byte ∉ list.name) (notComma : byte ≠ comma)
    (notDigit : isDigit byte = false) (notMinus : byte ≠ 45) :
    byte ∉ list.text list.name := by
  have number := not_mem_decimal notDigit
  have event := not_mem_signed notDigit notMinus list.recordEventType
  simp only [FileList.text, List.mem_append, List.mem_singleton, not_or]
  exact ⟨⟨⟨⟨⟨⟨⟨⟨notName, notComma⟩, number _⟩, notComma⟩, number _⟩, notComma⟩,
    number _⟩, notComma⟩, event⟩

theorem zero_not_mem_text (list : FileList) : 0 ∉ list.text list.name :=
  not_mem_text list.clear (by decide) (by decide) (by decide)

theorem FileList.Named.newline_not_mem_text {list : FileList}
    (named : list.Named) : 10 ∉ list.text list.name := by
  refine not_mem_text ?_ (by decide) (by decide) (by decide)
  intro member
  exact Bool.false_ne_true ((named.noSpace 10 member).symm.trans (by decide))

/-- A line is written when its text fits in the buffer. -/
theorem FileList.Named.setFileList {list : FileList} (named : list.Named)
    (file : Option (List UInt8)) :
    ((list.text list.name).length < bufSize →
      setFileList file list = some (some (file.getD [] ++ list.line))) ∧
    (bufSize ≤ (list.text list.name).length →
      setFileList file list = none) := by
  have name : readString list.fileName = some list.name :=
    if_pos named.terminated
  have length : (list.text list.name ++ [0]).length =
      (list.text list.name).length + 1 := by
    rw [List.length_append, List.length_singleton]
  have size : (List.replicate bufSize (0 : UInt8)).length = bufSize :=
    List.length_replicate
  rw [Mp4List.setFileList, if_neg named.duration, name]
  simp only [Option.bind_eq_bind, Option.bind_some]
  constructor
  · intro fits
    have read : readString (overwrite (List.replicate bufSize 0) 0
        (list.text list.name ++ [0])) = some (list.text list.name) := by
      rw [overwrite, List.take_zero, List.nil_append, List.append_assoc,
        List.singleton_append]
      exact (readString_append_cons_iff 0 _ (zero_not_mem_text list)).mpr rfl
    rw [copyInto_eq_some (by rw [length, size]; omega), Option.bind_some, read]
    rfl
  · intro long
    rw [copyInto, if_neg (by rw [length, size]; omega)]
    rfl

/-! ## Lines that are read -/

/-- A line that fits is read to its end. -/
theorem fgets_newline {room : Nat} {front : List UInt8} (rest : List UInt8)
    (noNewline : 10 ∉ front) (fits : front.length < room) :
    fgets room (front ++ 10 :: rest) = (front ++ [10], rest) := by
  induction front generalizing room with
  | nil =>
      cases room with
      | zero => cases fits
      | succ room => rfl
  | cons byte front ih =>
      cases room with
      | zero => cases fits
      | succ room =>
          obtain ⟨notThis, later⟩ := not_or.mp (mt List.mem_cons.mpr noNewline)
          rw [List.cons_append, fgets, if_neg fun same => notThis same.symm,
            ih later (Nat.lt_of_succ_lt_succ fits)]
          rfl

/-- A longer one is cut where the buffer is full. -/
theorem fgets_full {front : List UInt8} (rest : List UInt8)
    (noNewline : 10 ∉ front) :
    fgets front.length (front ++ rest) = (front, rest) := by
  induction front with
  | nil => rfl
  | cons byte front ih =>
      obtain ⟨notThis, later⟩ := not_or.mp (mt List.mem_cons.mpr noNewline)
      rw [List.cons_append, List.length_cons, fgets,
        if_neg fun same => notThis same.symm, ih later]

theorem chunks_eq {stream front rest : List UInt8} (some : stream ≠ [])
    (reads : fgets (bufSize - 1) stream = (front, rest)) :
    chunks stream = front :: chunks rest := by
  cases stream with
  | nil => exact absurd rfl some
  | cons byte stream => rw [chunks, reads]

/-- What of NUL and CR is read with the text, and what with the newline. -/
theorem chunks_line {list : FileList} (named : list.Named) (rest : List UInt8) :
    ((list.text list.name).length ≤ 124 →
      chunks (list.line ++ rest) =
        (list.text list.name ++ [0, 13] ++ [10]) :: chunks rest) ∧
    (125 ≤ (list.text list.name).length →
      (list.text list.name).length < bufSize →
      chunks (list.line ++ rest) =
        (list.text list.name ++
          [0, 13].take (127 - (list.text list.name).length)) ::
        ([0, 13].drop (127 - (list.text list.name).length) ++ [10]) ::
          chunks rest) := by
  have noNewline := named.newline_not_mem_text
  have noNewlineTail : ∀ part : List UInt8, part ⊆ [0, 13] → 10 ∉ part := by
    intro part inside member
    exact absurd (inside member) (by decide)
  rw [FileList.line]
  generalize list.text list.name = text at *
  constructor
  · intro short
    refine chunks_eq (by simp) ?_
    have whole : text ++ [0] ++ [13, 10] ++ rest =
        (text ++ [0, 13]) ++ 10 :: rest := by
      simp
    rw [whole]
    refine fgets_newline rest ?_ ?_
    · rw [List.mem_append, not_or]
      exact ⟨noNewline, noNewlineTail _ (List.Subset.refl _)⟩
    · rw [List.length_append, bufSize]
      change text.length + 2 < 127
      omega
  · intro long fits
    rw [bufSize] at fits
    generalize isCut : 127 - text.length = cut
    have first : 10 ∉ text ++ [0, 13].take cut := by
      rw [List.mem_append, not_or]
      exact ⟨noNewline, noNewlineTail _ (List.take_subset _ _)⟩
    have full : (text ++ [0, 13].take cut).length = bufSize - 1 := by
      rw [List.length_append, List.length_take, bufSize]
      change text.length + min cut 2 = 127
      omega
    have whole : text ++ [0] ++ [13, 10] ++ rest =
        (text ++ [0, 13].take cut) ++ ([0, 13].drop cut ++ 10 :: rest) := by
      rw [List.append_assoc text ([0, 13].take cut),
        ← List.append_assoc (([0, 13] : List UInt8).take cut),
        List.take_append_drop]
      simp
    have firstRead : fgets (bufSize - 1) (text ++ [0] ++ [13, 10] ++ rest) =
        (text ++ [0, 13].take cut, [0, 13].drop cut ++ 10 :: rest) := by
      rw [whole, ← full]
      exact fgets_full _ first
    have secondRead : fgets (bufSize - 1) ([0, 13].drop cut ++ 10 :: rest) =
        ([0, 13].drop cut ++ [10], rest) := by
      refine fgets_newline rest (noNewlineTail _ (List.drop_subset _ _)) ?_
      rw [List.length_drop, bufSize]
      change 2 - cut < 127
      omega
    rw [chunks_eq (by simp) firstRead, chunks_eq (by simp) secondRead]

/-! ## What is made of a line -/

/-- The string in the buffer is the text, wherever the line was cut. -/
theorem cString_chunk (list : FileList) (cut : Nat) (rest : List UInt8) :
    cString (list.text list.name ++ [0, 13].take cut ++ 0 :: rest) =
      list.text list.name := by
  rw [List.append_assoc]
  cases cut with
  | zero => exact cString_append rest (zero_not_mem_text list)
  | succ cut =>
      rw [List.take_succ_cons]
      exact cString_append _ (zero_not_mem_text list)

theorem strtok_append {token rest : List UInt8} (notEmpty : token ≠ [])
    (noComma : comma ∉ token) :
    strtok (token ++ comma :: rest) = some (token, rest) := by
  have others : ∀ byte ∈ token, decide (byte ≠ comma) = true := by
    intro byte member
    rw [decide_eq_true_iff]
    rintro rfl
    exact noComma member
  have start : (token ++ comma :: rest).dropWhile (· = comma) =
      token ++ comma :: rest := by
    cases token with
    | nil => exact absurd rfl notEmpty
    | cons byte token =>
        have differs := of_decide_eq_true (others byte List.mem_cons_self)
        exact List.dropWhile_cons_of_neg (by simpa using differs)
  rw [strtok, start, if_neg (by simp), List.takeWhile_append_of_pos others,
    List.dropWhile_append_of_pos others]
  simp

theorem strtok_comma (rest : List UInt8) : strtok (comma :: rest) = strtok rest := by
  rw [strtok, List.dropWhile_cons_of_pos (by simp)]
  rfl

theorem trim_eq {str : List UInt8} (clear : ∀ byte ∈ str, isSpace byte = false) :
    trim str = str := by
  rw [trim, List.filter_eq_self]
  intro byte member
  have spaces : isTrimmed byte = true → isSpace byte = true := by
    intro trimmed
    rcases of_decide_eq_true trimmed with rfl | rfl | rfl | rfl <;> rfl
  rw [Bool.not_eq_true', ← Bool.not_eq_true]
  intro trimmed
  exact Bool.false_ne_true ((clear byte member).symm.trans (spaces trimmed))

theorem trim_decimal (number : Nat) : trim (decimal number) = decimal number :=
  trim_eq fun byte member =>
    (isDigit_space_sign byte (isDigit_of_mem_decimal member)).1

/-- Every timestamp survives `atoi`. -/
theorem timestampOf_decimal (timestamp : UInt32) :
    timestampOf (decimal timestamp.toNat) = timestamp := by
  have small := timestamp.toNat_lt
  have back : (timestamp.toNat : Int).bmod (2 ^ 32) % 2 ^ 32 =
      timestamp.toNat := by
    rw [Int.bmod_def]
    split <;> omega
  rw [timestampOf, trim_decimal, atoi_decimal (by omega), back,
    Int.toNat_natCast]
  exact UInt32.ofNat_toNat

/-- A text starts with its name, unless that is empty. -/
theorem strtok_text {list : FileList} (named : list.Named) :
    ∃ rest, strtok (list.text list.name) =
        some (if list.name = [] then decimal list.startTimestamp.toNat
          else list.name, rest) ∧
      (list.name ≠ [] → ∃ more last,
        strtok rest = some (decimal list.startTimestamp.toNat, more) ∧
        strtok more = some (decimal list.stopTimestamp.toNat, last)) := by
  have number : ∀ n rest, strtok (decimal n ++ comma :: rest) =
      some (decimal n, rest) := fun n rest =>
    strtok_append (decimal_ne_nil n) (not_mem_decimal (by decide) n)
  have whole : list.text list.name = list.name ++ comma ::
      (decimal list.startTimestamp.toNat ++ comma ::
        (decimal list.stopTimestamp.toNat ++ comma ::
          (decimal list.durationTime.toNat ++ comma ::
            signed list.recordEventType))) := by
    simp [FileList.text]
  rw [whole]
  by_cases empty : list.name = []
  · rw [empty, if_pos rfl, List.nil_append, strtok_comma, number]
    exact ⟨_, rfl, fun some => absurd rfl some⟩
  · rw [if_neg empty, strtok_append empty named.noComma]
    exact ⟨_, rfl, fun _ => ⟨_, _, number _ _, number _ _⟩⟩

/-- What an entry becomes when a recording is read into it. -/
def FileList.readInto (list entry : FileList) : Option FileList :=
  (strtok (list.text list.name)).bind fun found => entry.read found.1 found.2

theorem readLine_text {list : FileList} (named : list.Named)
    (entries : List FileList) (num : Nat) :
    readLine entries num (list.text list.name) =
      (entries[num]?).bind fun entry =>
        (list.readInto entry).map (entries.set num ·) := by
  obtain ⟨rest, found, -⟩ := strtok_text named
  have some : list.text list.name ≠ [] := by
    simp [FileList.text]
  rw [readLine, if_neg some]
  simp only [FileList.readInto, found, Option.bind_some]

/-- The name is copied, and what was behind it in the field stays. -/
theorem readInto_of_name {list entry : FileList} (named : list.Named)
    (notEmpty : list.name ≠ []) (field : entry.fileName.length = bufSize) :
    list.readInto entry = some { entry with
      fileName := list.name ++ entry.fileName.drop list.name.length
      startTimestamp := list.startTimestamp
      stopTimestamp := list.stopTimestamp } := by
  obtain ⟨rest, found, numbers⟩ := strtok_text named
  obtain ⟨more, last, start, stop⟩ := numbers notEmpty
  have fits : 0 + list.name.length ≤ entry.fileName.length := by
    have := named.length_lt
    omega
  rw [FileList.readInto, found, if_neg notEmpty, Option.bind_some,
    FileList.read, trim_eq named.noSpace, copyInto_eq_some fits]
  simp only [Option.bind_eq_bind, Option.bind_some, start, stop,
    timestampOf_decimal, overwrite, List.take_zero, List.nil_append,
    Nat.zero_add]

/-- A name is read back where the byte behind it was a terminator. -/
theorem readInto_iff {list entry : FileList} (named : list.Named)
    (field : entry.fileName.length = bufSize) :
    (∃ read, list.readInto entry = some read ∧
        readString read.fileName = some list.name ∧
        read.startTimestamp = list.startTimestamp ∧
        read.stopTimestamp = list.stopTimestamp) ↔
      list.name ≠ [] ∧ entry.fileName[list.name.length]? = some 0 := by
  by_cases empty : list.name = []
  · refine iff_of_false ?_ (fun both => both.1 empty)
    rintro ⟨read, isRead, name, -⟩
    obtain ⟨rest, found, -⟩ := strtok_text named
    rw [FileList.readInto, found, if_pos empty, Option.bind_some,
      FileList.read, trim_decimal] at isRead
    obtain ⟨fileName, copied, later⟩ := Option.bind_eq_some_iff.mp isRead
    obtain ⟨start, -, later⟩ := Option.bind_eq_some_iff.mp later
    obtain ⟨stop, -, isRead⟩ := Option.bind_eq_some_iff.mp later
    cases isRead
    rw [copyInto] at copied
    split at copied
    case isTrue =>
      cases copied
      have digits := not_mem_decimal (by decide : isDigit 0 = false)
        list.startTimestamp.toNat
      rw [overwrite, List.take_zero, List.nil_append,
        readString_append_of_not_mem _ digits, empty] at name
      obtain ⟨rest, -, same⟩ := Option.map_eq_some_iff.mp name
      exact decimal_ne_nil _ (List.append_eq_nil_iff.mp same).1
    case isFalse => cases copied
  · have inside : list.name.length < entry.fileName.length := by
      rw [field]
      exact named.length_lt
    have name : readString (list.name ++ entry.fileName.drop list.name.length) =
        some list.name ↔ entry.fileName[list.name.length]? = some 0 := by
      rw [List.drop_eq_getElem_cons inside,
        readString_append_cons_iff _ _ list.clear,
        List.getElem?_eq_getElem inside, Option.some.injEq]
    rw [readInto_of_name named empty field, ← name]
    constructor
    · rintro ⟨read, isRead, same, -, -⟩
      cases isRead
      exact ⟨empty, same⟩
    · rintro ⟨-, same⟩
      exact ⟨_, rfl, same, rfl, rfl⟩

end Mp4List

end MbedtlsKcp
