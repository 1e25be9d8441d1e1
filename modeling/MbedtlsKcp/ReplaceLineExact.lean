import MbedtlsKcp.ReplaceLine

/-!
# When replaced lines are right

What the code writes is the file with each of its pieces replaced, dropped or
kept, and what it is to write is the file with each of its lines replaced or
kept.  Both are pieces and marks, and agree for every new content exactly when
these are the same.
-/

namespace MbedtlsKcp

namespace ReplaceLine

open CStrings LineStreams

variable {patterns : Patterns} {content : List UInt8}

/-! ## Pieces -/

theorem fgets_append (room : Nat) (stream : List UInt8) :
    (Mp4List.fgets room stream).1 ++ (Mp4List.fgets room stream).2 =
      stream := by
  induction stream generalizing room with
  | nil => cases room <;> rfl
  | cons byte stream ih =>
      cases room with
      | zero => rfl
      | succ room =>
          rw [Mp4List.fgets]
          split
          case isTrue same => rw [same]; rfl
          case isFalse => rw [List.cons_append, ih]

theorem fgets_piece {room : Nat} {byte : UInt8} {stream : List UInt8}
    (positive : 0 < room) :
    Piece 10 room (Mp4List.fgets room (byte :: stream)).1 := by
  induction stream generalizing room byte with
  | nil =>
      cases room with
      | zero => cases positive
      | succ room =>
          rw [Mp4List.fgets]
          split
          · exact ⟨by simp, by simp, by simp⟩
          · cases room <;> exact ⟨by simp, by simp [Mp4List.fgets], by simp [Mp4List.fgets]⟩
  | cons next stream ih =>
      cases room with
      | zero => cases positive
      | succ room =>
          rw [Mp4List.fgets]
          split
          · exact ⟨by simp, by simp, by simp⟩
          case isFalse other =>
            cases room with
            | zero => exact ⟨by simp, by simp [Mp4List.fgets], by simp [Mp4List.fgets]⟩
            | succ room =>
                have rest : Piece 10 (room + 1)
                    (Mp4List.fgets (room + 1) (next :: stream)).1 :=
                  ih (Nat.succ_pos room)
                refine ⟨List.cons_ne_nil _ _, Nat.succ_le_succ rest.fits, ?_⟩
                rw [List.dropLast_cons_of_ne_nil rest.some]
                exact mt List.mem_cons.1
                  (not_or.2 ⟨Ne.symm other, rest.inside⟩)

theorem fgets_ends {room : Nat} {stream : List UInt8}
    (noNewline : 10 ∉ (Mp4List.fgets room stream).1)
    (short : (Mp4List.fgets room stream).1.length < room) :
    (Mp4List.fgets room stream).2 = [] := by
  induction stream generalizing room with
  | nil => cases room <;> rfl
  | cons byte stream ih =>
      cases room with
      | zero => cases short
      | succ room =>
          rw [Mp4List.fgets] at noNewline short ⊢
          split at noNewline
          · exact absurd List.mem_cons_self noNewline
          case isFalse other =>
            rw [if_neg other] at short ⊢
            exact ih (fun member => noNewline (List.mem_cons_of_mem _ member))
              (Nat.lt_of_succ_lt_succ short)

theorem pieces_cut (stream : List UInt8) :
    Cut 10 (maxLineLength - 1) (pieces stream) ∧
      (pieces stream).flatten = stream := by
  induction stream using pieces.induct with
  | case1 =>
      rw [pieces]
      exact ⟨.nil, rfl⟩
  | case2 byte rest ih =>
      obtain ⟨cut, whole⟩ := ih
      rw [pieces]
      constructor
      · refine .cons (fgets_piece (by decide)) (fun noNewline short => ?_) cut
        rw [fgets_ends noNewline short, pieces]
      · rw [List.flatten_cons, whole, fgets_append]

theorem flatten_pieces (stream : List UInt8) :
    (pieces stream).flatten = stream :=
  (pieces_cut stream).2

/-- The last piece of a line has its newline. -/
theorem newline_mem_last {front last : List UInt8}
    (member : last ∈ (pieces (front ++ [10])).getLast?) : 10 ∈ last := by
  obtain ⟨before, split⟩ := List.getLast?_eq_some_iff.1 member
  have whole := congrArg List.getLast? (flatten_pieces (front ++ [10]))
  rw [split, List.flatten_append, List.flatten_singleton,
    List.getLast?_append, List.getLast?_append, List.getLast?_singleton,
    Option.some_or] at whole
  cases ending : last.getLast? with
  | none =>
      have some := (pieces_cut (front ++ [10])).1.some_of_mem
        (List.mem_of_getLast? member)
      exact absurd (List.getLast?_eq_none_iff.1 ending) some
  | some byte =>
      rw [ending, Option.some_or] at whole
      obtain rfl := Option.some.inj whole
      exact List.mem_of_getLast? ending

theorem pieces_line {front : List UInt8} (rest : List UInt8) :
    pieces (front ++ 10 :: rest) = pieces (front ++ [10]) ++ pieces rest := by
  have cut := (pieces_cut (front ++ [10])).1.append (pieces_cut rest).1
    fun last => newline_mem_last
  refine (pieces_cut _).1.unique cut ?_
  rw [List.flatten_append, flatten_pieces, flatten_pieces, flatten_pieces,
    List.append_assoc]
  rfl

/-- The pieces of a file are those of its lines. -/
theorem pieces_eq_flatMap (stream : List UInt8) :
    pieces stream = (lines 10 stream).flatMap pieces := by
  induction stream using line_induction (10 : UInt8) with
  | nil => rw [pieces, lines, List.flatMap_nil]
  | last line some noStop =>
      rw [lines_last some noStop, List.flatMap_singleton]
  | line front rest noStop ih =>
      rw [lines_line rest noStop, pieces_line, ih, List.flatMap_cons]

/-- A line that is short enough is one piece. -/
theorem length_pieces_eq_one {line : List UInt8} (some : line ≠ [])
    (inside : 10 ∉ line.dropLast) :
    (pieces line).length = 1 ↔ line.length < maxLineLength := by
  constructor
  · intro one
    obtain ⟨piece, single⟩ := List.length_eq_one_iff.1 one
    have cut := (pieces_cut line).1
    have whole := flatten_pieces line
    rw [single] at cut whole
    cases cut with
    | cons isPiece ends rest =>
        have fits := isPiece.fits
        rw [List.flatten_singleton] at whole
        rw [whole] at fits
        rw [maxLineLength] at fits ⊢
        omega
  · intro short
    have alone : Cut 10 (maxLineLength - 1) [line] :=
      .cons ⟨some, by omega, inside⟩ (fun _ _ => rfl) .nil
    rw [(pieces_cut line).1.unique alone (by
      rw [flatten_pieces, List.flatten_singleton])]
    rfl

/-! ## The loop -/

/-- What becomes of a piece, as pieces and marks. -/
def itemOf (patterns : Patterns) (piece : List UInt8) :
    Option (Option (List UInt8)) :=
  match fate patterns piece with
  | .replaced => some none
  | .dropped => none
  | .kept => some (some piece)

theorem itemOf_kept (piece result : List UInt8)
    (kept : itemOf patterns piece = some (some result)) : result = piece := by
  rw [itemOf] at kept
  split at kept
  · cases kept
  · cases kept
  · exact (Option.some.inj (Option.some.inj kept)).symm

theorem itemOf_eq_some_iff {piece : List UInt8} :
    itemOf patterns piece = some (some piece) ↔
      fate patterns piece = .kept := by
  rw [itemOf]
  cases fate patterns piece with
  | replaced => simp
  | dropped => simp
  | kept => simp

variable {newContent : List UInt8}

theorem readPiece_temp {piece : List UInt8} (noZero : 0 ∉ piece)
    (progress : Progress) :
    (readPiece patterns newContent progress piece).temp =
      progress.temp ++ fill (newContent ++ [10])
        (itemOf patterns piece).toList := by
  have buffer : cString (piece ++ [0]) = piece := cString_append [] noZero
  rw [readPiece, buffer, itemOf]
  cases fate patterns piece with
  | replaced => simp [fill]
  | dropped => simp [fill]
  | kept => simp [fill]

theorem readPiece_found {piece : List UInt8} (noZero : 0 ∉ piece)
    (progress : Progress) :
    (readPiece patterns newContent progress piece).found = true ↔
      progress.found = true ∨ fate patterns piece = .replaced := by
  have buffer : cString (piece ++ [0]) = piece := cString_append [] noZero
  rw [readPiece, buffer]
  cases fate patterns piece with
  | replaced => simp
  | dropped => simp
  | kept => simp

/-- The temporary file after the loop. -/
theorem foldl_temp {read : List (List UInt8)}
    (noZero : ∀ piece ∈ read, 0 ∉ piece) (progress : Progress) :
    (read.foldl (readPiece patterns newContent) progress).temp =
      progress.temp ++ fill (newContent ++ [10])
        (read.filterMap (itemOf patterns)) := by
  induction read generalizing progress with
  | nil => exact (List.append_nil _).symm
  | cons piece read ih =>
      obtain ⟨here, later⟩ := List.forall_mem_cons.1 noZero
      have items : (piece :: read).filterMap (itemOf patterns) =
          (itemOf patterns piece).toList ++
            read.filterMap (itemOf patterns) := by
        rw [List.filterMap_cons]
        cases itemOf patterns piece <;> rfl
      rw [List.foldl_cons, ih later, readPiece_temp here, items, fill_append,
        List.append_assoc]

/-- Whether a piece has been replaced. -/
theorem foldl_found {read : List (List UInt8)}
    (noZero : ∀ piece ∈ read, 0 ∉ piece) (progress : Progress) :
    (read.foldl (readPiece patterns newContent) progress).found = true ↔
      progress.found = true ∨ ∃ piece ∈ read, fate patterns piece = .replaced := by
  induction read generalizing progress with
  | nil => simp
  | cons piece read ih =>
      obtain ⟨here, later⟩ := List.forall_mem_cons.1 noZero
      rw [List.foldl_cons, ih later, readPiece_found here, or_assoc]
      simp only [List.mem_cons, exists_eq_or_imp]

/-! ## The lines -/

theorem fate_cases (piece : List UInt8) :
    fate patterns piece =
      if Meets patterns piece then .replaced
      else if patterns.searchString <:+: piece ∧
          ¬ patterns.ckCont <:+: piece then .dropped
      else .kept := by
  rw [fate]
  simp only [strstr, decide_eq_true_eq]
  by_cases looked : patterns.searchString <:+: piece ∧
      ¬ patterns.ckCont <:+: piece
  · have meets : Meets patterns piece ↔
        ∀ ignorContent ∈ patterns.ignorContent, ¬ ignorContent <:+: piece :=
      ⟨fun meets => meets.2.2, fun absent => ⟨looked.1, looked.2, absent⟩⟩
    rw [if_pos looked, if_pos looked]
    simp only [meets]
    cases patterns.ignorContent with
    | none => simp
    | some ignorContent =>
        by_cases ignored : ignorContent <:+: piece
        · simp [ignored]
        · simp [ignored]
  · rw [if_neg looked, if_neg looked,
      if_neg fun meets => looked ⟨meets.1, meets.2.1⟩]

theorem fate_eq_replaced_iff {piece : List UInt8} :
    fate patterns piece = .replaced ↔ Meets patterns piece := by
  rw [fate_cases]
  split_ifs with meets looked
  · simp [meets]
  · simp [meets]
  · simp [meets]

theorem ignored_of_dropped {piece : List UInt8}
    (dropped : fate patterns piece = .dropped) :
    ∃ ignorContent ∈ patterns.ignorContent, ignorContent <:+: piece := by
  rw [fate_cases] at dropped
  split_ifs at dropped with meets looked
  rw [Meets, ← and_assoc] at meets
  have ignored := not_and.1 meets looked
  push Not at ignored
  exact ignored

/-- No piece of a line to replace is dropped. -/
theorem itemOf_ne_none {block : List (List UInt8)}
    (meets : Meets patterns block.flatten) :
    ∀ piece ∈ block, itemOf patterns piece ≠ none := by
  intro piece member none
  have dropped : fate patterns piece = .dropped := by
    rw [itemOf] at none
    cases known : fate patterns piece with
    | replaced => simp [known] at none
    | dropped => rfl
    | kept => simp [known] at none
  obtain ⟨ignorContent, ignoring, found⟩ := ignored_of_dropped dropped
  exact meets.2.2 ignorContent ignoring
    (found.trans (List.infix_of_mem_flatten member))

/-- What the file is to become, as pieces and marks. -/
def dueItems (patterns : Patterns) (content : List UInt8) :
    List (Option (List UInt8)) :=
  ((lines 10 content).map pieces).flatMap
    (markBlock fun block => Meets patterns block.flatten)

theorem dueItems_line {front : List UInt8} (rest : List UInt8)
    (noNewline : 10 ∉ front) :
    dueItems patterns (front ++ 10 :: rest) =
      markBlock (fun block => Meets patterns block.flatten)
        (pieces (front ++ [10])) ++ dueItems patterns rest := by
  rw [dueItems, lines_line rest noNewline]
  rfl

theorem marked_markBlock (line : List UInt8) :
    Marked 10 (maxLineLength - 1)
      (markBlock (fun block => Meets patterns block.flatten) (pieces line)) := by
  rw [markBlock]
  split
  · exact .mark .nil
  · exact .of_cut (pieces_cut line).1

theorem marked_dueItems (content : List UInt8) :
    Marked 10 (maxLineLength - 1) (dueItems patterns content) := by
  induction content using line_induction (10 : UInt8) with
  | nil => exact .nil
  | last line some noNewline =>
      rw [dueItems, lines_last some noNewline, List.map_singleton,
        List.flatMap_singleton]
      exact marked_markBlock line
  | line front rest noNewline ih =>
      rw [dueItems_line rest noNewline]
      refine (marked_markBlock (front ++ [10])).append ih ?_
      intro last member piece isPiece
      rw [markBlock] at member
      split at member
      · obtain rfl := Option.some.inj member
        cases isPiece
      · rw [List.getLast?_map] at member
        obtain ⟨_, found, rfl⟩ := Option.map_eq_some_iff.1 member
        obtain rfl := Option.some.inj isPiece
        exact newline_mem_last found

theorem fill_dueItems (newContent content : List UInt8) :
    fill (newContent ++ [10]) (dueItems patterns content) =
      withReplaced patterns newContent content := by
  rw [dueItems, withReplaced]
  induction lines 10 content with
  | nil => rfl
  | cons line rest ih =>
      rw [List.map_cons, List.flatMap_cons, fill_append, ih, List.flatMap_cons,
        markBlock, flatten_pieces]
      split
      · simp [fill]
      · rw [fill_pieces, flatten_pieces]

/-- What the code writes, line by line. -/
theorem codeItems_eq (content : List UInt8) :
    (pieces content).filterMap (itemOf patterns) =
      ((lines 10 content).map pieces).flatMap
        (·.filterMap (itemOf patterns)) := by
  rw [pieces_eq_flatMap, List.filterMap_flatMap, List.flatMap_map]

/-! ## The files -/

section Files

variable {disk : Disk} {filename path : String} {fp tempFp : Nat}

/-- What opening a path for writing leaves. -/
structure Opened (disk : Disk) (path : String) (opened : Nat × Disk) :
    Prop where
  entry : opened.2.entry = disk.entry
  leads : opened.2.fileAt path = some opened.1
  empty : opened.2.contents opened.1 = []
  others : ∀ other file, disk.fileAt other = some file →
    opened.2.fileAt other = some file ∧
      (opened.1 = file ↔ disk.fileAt path = some file)
  contents : ∀ file, file ≠ opened.1 →
    opened.2.contents file = disk.contents file

theorem opened_openWrite (disk : Disk) (path : String) :
    Opened disk path (disk.openWrite path) := by
  cases known : disk.fileAt path with
  | some file =>
      have opens : disk.openWrite path = (file, disk.store file []) := by
        rw [Disk.openWrite, known]
      rw [opens]
      refine ⟨rfl, known, Function.update_self _ _ _, ?_, ?_⟩
      · intro other file' leads
        exact ⟨leads, by rw [known, Option.some.injEq]⟩
      · exact fun file' apart => Function.update_of_ne apart _ _
  | none =>
      have fresh : ∀ other file, disk.fileAt other = some file →
          disk.next ≠ file ∧ disk.entry other ≠ disk.entry path := by
        intro other file leads
        refine ⟨(disk.bounded _ _ leads).ne', fun same => ?_⟩
        rw [Disk.fileAt, same] at leads
        rw [Disk.fileAt, leads] at known
        cases known
      have opens : (disk.openWrite path).1 = disk.next ∧
          (disk.openWrite path).2.entry = disk.entry ∧
          (disk.openWrite path).2.file =
            Function.update disk.file (disk.entry path) (some disk.next) ∧
          (disk.openWrite path).2.contents =
            Function.update disk.contents disk.next [] := by
        rw [Disk.openWrite, known]
        exact ⟨rfl, rfl, rfl, rfl⟩
      obtain ⟨number, entry, files, contents⟩ := opens
      refine ⟨entry, ?_, ?_, ?_, ?_⟩
      · rw [Disk.fileAt, entry, files, number, Function.update_self]
      · rw [contents, number, Function.update_self]
      · intro other file leads
        obtain ⟨apart, elsewhere⟩ := fresh other file leads
        constructor
        · rw [Disk.fileAt, entry, files, Function.update_of_ne elsewhere]
          exact leads
        · rw [number, known]
          exact ⟨fun same => absurd same apart, fun impossible => by cases impossible⟩
      · intro file apart
        rw [number] at apart
        rw [contents, Function.update_of_ne apart]

theorem read_remove :
    (disk.remove path).read filename =
      if disk.entry path = disk.entry filename then none
      else disk.read filename := by
  have leads : (disk.remove path).fileAt filename =
      if disk.entry path = disk.entry filename then none
      else disk.fileAt filename := by
    have unfolded : (disk.remove path).fileAt filename =
        Function.update disk.file (disk.entry path) none
          (disk.entry filename) := rfl
    rw [unfolded]
    split
    case isTrue same => rw [same, Function.update_self]
    case isFalse apart => exact Function.update_of_ne (Ne.symm apart) _ _
  rw [Disk.read, leads]
  split
  · rfl
  · rfl

/-- The file that has taken the place of another. -/
theorem read_rename (temp : disk.fileAt path = some tempFp)
    (leads : disk.fileAt filename = some fp) (apart : tempFp ≠ fp) :
    ((disk.remove filename).rename path filename).read filename =
      some (disk.contents tempFp) := by
  have entries : disk.entry path ≠ disk.entry filename := by
    intro same
    rw [Disk.fileAt, same] at temp
    exact apart (Option.some.inj (temp.symm.trans leads))
  have gone : (disk.remove filename).fileAt filename = none :=
    Function.update_self _ _ _
  have stays : (disk.remove filename).fileAt path = some tempFp :=
    (Function.update_of_ne entries _ _).trans temp
  have moves : ¬ ((disk.remove filename).fileAt path = none ∨
      (disk.remove filename).fileAt path =
        (disk.remove filename).fileAt filename) := by
    rw [stays, gone]
    simp
  have after : ((disk.remove filename).rename path filename).fileAt filename =
      some tempFp := by
    rw [Disk.rename, if_neg moves]
    exact (Function.update_self _ _ _).trans stays
  have kept : ((disk.remove filename).rename path filename).contents =
      disk.contents := by
    rw [Disk.rename, if_neg moves]
    rfl
  rw [Disk.read, after, kept]
  rfl

end Files

/-! ## The file afterwards -/

section After

variable {disk : Disk} {filename : String}

theorem noZero_pieces (noZero : 0 ∉ content) :
    ∀ piece ∈ pieces content, 0 ∉ piece := by
  intro piece member zero
  refine noZero ?_
  rw [← flatten_pieces content]
  exact List.mem_flatten_of_mem member zero

/-- The loop over what is read of a file. -/
def readAll (patterns : Patterns) (newContent content : List UInt8) :
    Progress :=
  (pieces content).foldl (readPiece patterns newContent) {}

theorem replaceLine_eq {fp tempFp : Nat} {opened : Disk} {read : List UInt8}
    (leads : disk.fileAt filename = some fp)
    (opens : disk.openWrite tempConf = (tempFp, opened))
    (reads : opened.contents fp = read) :
    replaceLineWithString disk filename patterns newContent =
      some (
        let progress := readAll patterns newContent read
        let stored := opened.store tempFp progress.temp
        if progress.found then (stored.remove filename).rename tempConf filename
        else stored.remove "temp.conf") := by
  rw [replaceLineWithString, leads]
  simp only [Option.bind_eq_bind, Option.bind_some, opens, reads, ite_self]
  rfl

/-- A file that is its own temporary file is lost. -/
theorem replaceLine_same (reads : disk.read filename = some content)
    (same : disk.fileAt tempConf = disk.fileAt filename) :
    ∃ after, replaceLineWithString disk filename patterns newContent =
        some after ∧
      after.read filename =
        if disk.entry "temp.conf" = disk.entry filename then none
        else some [] := by
  obtain ⟨fp, leads, rfl⟩ := Option.map_eq_some_iff.1 reads
  have opened := opened_openWrite disk tempConf
  generalize opens : disk.openWrite tempConf = result at opened
  obtain ⟨tempFp, next⟩ := result
  obtain ⟨stays, aliased⟩ := opened.others filename fp leads
  obtain rfl : tempFp = fp := aliased.2 (same.trans leads)
  have nothing : readAll patterns newContent [] = {} := by
    rw [readAll, pieces]
    rfl
  refine ⟨_, replaceLine_eq leads opens opened.empty, ?_⟩
  have entry : (next.store tempFp []).entry = disk.entry := opened.entry
  have leadsStill : (next.store tempFp []).fileAt filename = some tempFp := stays
  have stored : (next.store tempFp []).contents tempFp = [] :=
    Function.update_self _ _ _
  dsimp only
  rw [nothing, if_neg Bool.false_ne_true, read_remove, entry, Disk.read,
    leadsStill, Option.map_some, stored]

/-- Another file is left as it is when nothing is replaced, and else holds
what the loop has written. -/
theorem replaceLine_apart (reads : disk.read filename = some content)
    (noZero : 0 ∉ content)
    (apart : disk.fileAt tempConf ≠ disk.fileAt filename) :
    ∃ after, replaceLineWithString disk filename patterns newContent =
        some after ∧
      (NoneReplaced patterns content → after.read filename =
        if disk.entry "temp.conf" = disk.entry filename then none
        else some content) ∧
      (¬ NoneReplaced patterns content → after.read filename =
        some (fill (newContent ++ [10])
          ((pieces content).filterMap (itemOf patterns)))) := by
  obtain ⟨fp, leads, rfl⟩ := Option.map_eq_some_iff.1 reads
  have opened := opened_openWrite disk tempConf
  generalize opens : disk.openWrite tempConf = result at opened
  obtain ⟨tempFp, next⟩ := result
  obtain ⟨stays, aliased⟩ := opened.others filename fp leads
  have other : tempFp ≠ fp :=
    fun file => apart ((aliased.1 file).trans leads.symm)
  have contents : next.contents fp = disk.contents fp :=
    opened.contents fp other.symm
  have strings := noZero_pieces noZero
  refine ⟨_, replaceLine_eq leads opens contents, ?_⟩
  have replaces :
      (readAll patterns newContent (disk.contents fp)).found = true ↔
        ¬ NoneReplaced patterns (disk.contents fp) := by
    rw [readAll, foldl_found strings, NoneReplaced]
    push Not
    exact or_iff_right Bool.false_ne_true
  have temp : (readAll patterns newContent (disk.contents fp)).temp =
      fill (newContent ++ [10])
        ((pieces (disk.contents fp)).filterMap (itemOf patterns)) :=
    foldl_temp strings {}
  dsimp only
  rw [temp]
  generalize fill (newContent ++ [10])
    ((pieces (disk.contents fp)).filterMap (itemOf patterns)) = written
  have entry : (next.store tempFp written).entry = disk.entry := opened.entry
  have leadsStill : (next.store tempFp written).fileAt filename = some fp :=
    stays
  have tempStill : (next.store tempFp written).fileAt tempConf = some tempFp :=
    opened.leads
  have kept : (next.store tempFp written).contents fp = disk.contents fp :=
    (Function.update_of_ne other.symm _ _).trans contents
  have stored : (next.store tempFp written).contents tempFp = written :=
    Function.update_self _ _ _
  constructor
  · intro none
    rw [if_neg fun found => replaces.1 found none, read_remove, entry,
      Disk.read, leadsStill, Option.map_some, kept]
  · intro some
    rw [if_pos (replaces.2 some), read_rename tempStill leadsStill other, stored]

/-! ## When the lines are right -/

theorem withReplaced_ne_nil (newContent : List UInt8) (some : content ≠ []) :
    withReplaced patterns newContent content ≠ [] := by
  intro empty
  rw [withReplaced, List.flatMap_eq_nil_iff] at empty
  have none : lines 10 content = [] := by
    by_contra nonempty
    obtain ⟨line, member⟩ := List.exists_mem_of_ne_nil _ nonempty
    have nothing := empty line member
    split at nothing
    · simp at nothing
    · exact (lines_some member).1 nothing
  rw [← flatten_lines content, none] at some
  exact some rfl

/-- Without a line to replace nothing changes. -/
theorem withReplaced_of_none (newContent : List UInt8)
    (none : ∀ line ∈ lines 10 content, ¬ Meets patterns line) :
    withReplaced patterns newContent content = content := by
  have same : (lines 10 content).flatMap (fun line =>
      if Meets patterns line then newContent ++ [10] else line) =
        (lines 10 content).flatMap id :=
    List.flatMap_congr fun line member => if_neg (none line member)
  rw [withReplaced, same, List.flatMap_id, flatten_lines]

/-- A short line is its only piece. -/
theorem pieces_short {line : List UInt8} (member : line ∈ lines 10 content)
    (short : line.length < maxLineLength) : pieces line = [line] := by
  obtain ⟨some, inside⟩ := lines_some member
  obtain ⟨piece, single⟩ := List.length_eq_one_iff.1
    ((length_pieces_eq_one some inside).2 short)
  have whole := flatten_pieces line
  rw [single, List.flatten_singleton] at whole
  rw [single, whole]

theorem mem_pieces {line piece : List UInt8} (member : line ∈ lines 10 content)
    (inside : piece ∈ pieces line) : piece ∈ pieces content := by
  rw [pieces_eq_flatMap]
  exact List.mem_flatMap.2 ⟨line, member, inside⟩

/-- When the lines fit the code writes what is due. -/
theorem codeItems_eq_dueItems (fits : ∀ line ∈ lines 10 content,
    if Meets patterns line then line.length < maxLineLength
    else ∀ piece ∈ pieces line, fate patterns piece = .kept) :
    (pieces content).filterMap (itemOf patterns) =
      dueItems patterns content := by
  rw [codeItems_eq, dueItems, List.flatMap_map, List.flatMap_map]
  refine List.flatMap_congr fun line member => ?_
  have fit := fits line member
  rw [markBlock, flatten_pieces]
  split
  case isTrue meets =>
    rw [if_pos meets] at fit
    have item : itemOf patterns line = some none := by
      rw [itemOf, fate_eq_replaced_iff.2 meets]
    rw [pieces_short member fit, List.filterMap_cons_some item,
      List.filterMap_nil]
  case isFalse fails =>
    rw [if_neg fails] at fit
    rw [← List.filterMap_eq_map]
    refine List.filterMap_congr fun piece inside => ?_
    exact itemOf_eq_some_iff.2 (fit piece inside)

/-- When the code writes what is due the lines fit. -/
theorem fits_of_codeItems (same : (pieces content).filterMap (itemOf patterns) =
      dueItems patterns content) :
    ∀ line ∈ lines 10 content,
      if Meets patterns line then line.length < maxLineLength
      else ∀ piece ∈ pieces line, fate patterns piece = .kept := by
  rw [codeItems_eq, dueItems] at same
  intro line member
  have blocks := single_or_kept itemOf_kept
    (fun block meets => itemOf_ne_none meets) ?_ same (pieces line)
    (List.mem_map_of_mem member)
  · rw [flatten_pieces] at blocks
    obtain ⟨some, inside⟩ := lines_some member
    split
    case isTrue meets =>
      rw [if_pos meets] at blocks
      exact (length_pieces_eq_one some inside).1 blocks
    case isFalse fails =>
      rw [if_neg fails] at blocks
      exact fun piece within => itemOf_eq_some_iff.1 (blocks piece within)
  · intro block found
    obtain ⟨line, member, rfl⟩ := List.mem_map.1 found
    intro none
    have whole := flatten_pieces line
    rw [none] at whole
    exact (lines_some member).1 whole.symm

/-- Two new contents are enough to tell what is written. -/
theorem items_unique {first second : List (Option (List UInt8))}
    (marked : Marked 10 (maxLineLength - 1) first)
    (other : Marked 10 (maxLineLength - 1) second)
    (same : ∀ newContent : List UInt8, 0 ∉ newContent →
      fill (newContent ++ [10]) first = fill (newContent ++ [10]) second) :
    first = second :=
  marked.unique 1 2 other (by decide) (by decide) (by decide) (by decide)
    (same [1] (by decide)) (same [2] (by decide))

theorem Manageable.replacesLines (reads : disk.read filename = some content)
    (noZero : 0 ∉ content)
    (manageable : Manageable disk filename patterns content) :
    ReplacesLines disk filename patterns content := by
  intro newContent _
  by_cases same : disk.fileAt tempConf = disk.fileAt filename
  · obtain rfl := manageable.apart.resolve_right (not_not.2 same)
    have none : NoneReplaced patterns [] := by
      intro piece member
      rw [pieces] at member
      cases member
    obtain ⟨after, returned, left⟩ := replaceLine_same reads same
    refine ⟨after, returned, ?_⟩
    rw [left, if_neg (manageable.stays none)]
    rfl
  · obtain ⟨after, returned, unchanged, changed⟩ :=
      replaceLine_apart reads noZero same
    refine ⟨after, returned, ?_⟩
    by_cases none : NoneReplaced patterns content
    · have keeps : ∀ line ∈ lines 10 content, ¬ Meets patterns line := by
        obtain ⟨-, keeps⟩ | fits := manageable.fits
        · exact keeps
        · intro line member meets
          have short := fits line member
          rw [if_pos meets] at short
          have whole : line ∈ pieces content := by
            refine mem_pieces member ?_
            rw [pieces_short member short]
            exact List.mem_singleton_self line
          exact none line whole (fate_eq_replaced_iff.2 meets)
      rw [unchanged none, if_neg (manageable.stays none),
        withReplaced_of_none newContent keeps]
    · have fits := manageable.fits.resolve_left fun unreplaced =>
        none unreplaced.1
      rw [changed none, codeItems_eq_dueItems fits, fill_dueItems]

theorem ReplacesLines.manageable (reads : disk.read filename = some content)
    (noZero : 0 ∉ content)
    (replaces : ReplacesLines disk filename patterns content) :
    Manageable disk filename patterns content := by
  by_cases same : disk.fileAt tempConf = disk.fileAt filename
  · obtain ⟨after, returned, exactly⟩ := replaces [] (by decide)
    obtain ⟨_, again, left⟩ := replaceLine_same reads same
    obtain rfl := Option.some.inj (returned.symm.trans again)
    rw [left] at exactly
    split at exactly
    · cases exactly
    case isFalse stays =>
      have empty : content = [] := by
        by_contra some
        exact withReplaced_ne_nil [] some (Option.some.inj exactly).symm
      subst empty
      refine ⟨.inl rfl, fun _ => stays, .inr fun line member => ?_⟩
      rw [lines] at member
      cases member
  · by_cases none : NoneReplaced patterns content
    · have left : ∀ newContent, 0 ∉ newContent →
          disk.entry "temp.conf" ≠ disk.entry filename ∧
            withReplaced patterns newContent content = content := by
        intro newContent string
        obtain ⟨after, returned, exactly⟩ := replaces newContent string
        obtain ⟨_, again, unchanged, -⟩ := replaceLine_apart reads noZero same
        obtain rfl := Option.some.inj (returned.symm.trans again)
        rw [unchanged none] at exactly
        split at exactly
        · cases exactly
        case isFalse stays => exact ⟨stays, (Option.some.inj exactly).symm⟩
      have items : dueItems patterns content = (pieces content).map some := by
        refine items_unique (marked_dueItems content)
          (.of_cut (pieces_cut content).1) fun newContent string => ?_
        rw [fill_dueItems, fill_pieces, flatten_pieces, (left newContent string).2]
      refine ⟨.inr same, fun _ => (left [] (by decide)).1, .inl ⟨none, ?_⟩⟩
      intro line member meets
      have marks : Option.none ∈ dueItems patterns content := by
        refine List.mem_flatMap.2 ⟨pieces line, List.mem_map_of_mem member, ?_⟩
        rw [markBlock, flatten_pieces, if_pos meets]
        exact List.mem_singleton_self _
      rw [items] at marks
      obtain ⟨_, -, impossible⟩ := List.mem_map.1 marks
      cases impossible
    · have items : (pieces content).filterMap (itemOf patterns) =
          dueItems patterns content := by
        refine items_unique (.filterMap (pieces_cut content).1 itemOf_kept)
          (marked_dueItems content) fun newContent string => ?_
        obtain ⟨after, returned, exactly⟩ := replaces newContent string
        obtain ⟨_, again, -, changed⟩ := replaceLine_apart reads noZero same
        obtain rfl := Option.some.inj (returned.symm.trans again)
        rw [changed none] at exactly
        rw [fill_dueItems]
        exact Option.some.inj exactly
      exact ⟨.inr same, fun unreplaced => absurd unreplaced none,
        .inr (fits_of_codeItems items)⟩

/-- The lines of a file are replaced as they should be, whatever the new
content, exactly when they are manageable. -/
theorem replacesLines_iff_manageable
    (reads : disk.read filename = some content) (noZero : 0 ∉ content) :
    ReplacesLines disk filename patterns content ↔
      Manageable disk filename patterns content :=
  ⟨ReplacesLines.manageable reads noZero, Manageable.replacesLines reads noZero⟩

end After

/-! ## Two files -/

def conf : String := "/parameter/wifi/wpa.conf"

/-- A disk with one file. -/
def oneFile (content : List UInt8) : Disk where
  entry path := if path = conf then 0 else if path = tempConf then 1 else 2
  file slot := if slot = 0 then some 0 else none
  contents _ := content
  next := 1
  bounded := by
    intro slot file' leads
    split at leads
    · obtain rfl := Option.some.inj leads
      exact Nat.one_pos
    · cases leads

/-- Lines with an `s` are looked for, but for those with an `i` or a `k`. -/
def someLines : Patterns where
  searchString := [115]
  ignorContent := some [105]
  ckCont := [107]

/-- A line to replace, and one to keep. -/
theorem replacesLines_two :
    (oneFile [115, 10, 120, 10]).read conf = some [115, 10, 120, 10] ∧
    0 ∉ [115, 10, 120, (10 : UInt8)] ∧
    ReplacesLines (oneFile [115, 10, 120, 10]) conf someLines
      [115, 10, 120, 10] := by
  refine ⟨by decide +kernel, by decide, (replacesLines_iff_manageable
    (by decide +kernel) (by decide)).2
      ⟨.inr (by decide +kernel), fun _ => by decide +kernel, .inr ?_⟩⟩
  have both : lines 10 [115, 10, 120, (10 : UInt8)] = [[115, 10], [120, 10]] := by
    decide
  have first : Meets someLines [115, 10] := by decide
  have second : ¬ Meets someLines [120, 10] := by decide
  have whole : pieces [120, 10] = [[120, 10]] :=
    pieces_short (both ▸ List.mem_cons_of_mem _ (List.mem_singleton_self _))
      (by decide)
  have kept : fate someLines [120, 10] = .kept := by decide
  rw [both]
  simp only [List.forall_mem_cons, first, second, whole, kept, if_true, if_false]
  decide

/-- A line with `s` and `i` is to stay, and disappears beside one that is
replaced. -/
theorem not_forall_replacesLines : ¬ ∀ disk filename patterns content,
    disk.read filename = some content → 0 ∉ content →
      ReplacesLines disk filename patterns content := by
  intro all
  obtain ⟨after, returned, exactly⟩ := all (oneFile [115, 10, 115, 105, 10]) conf
    someLines [115, 10, 115, 105, 10] (by decide +kernel) (by decide) [110]
      (by decide)
  have left : (replaceLineWithString (oneFile [115, 10, 115, 105, 10]) conf
      someLines [110]).bind (·.read conf) = some [110, 10] := by
    decide +kernel
  rw [returned, Option.bind_some, exactly] at left
  exact absurd left (by decide)

end ReplaceLine

end MbedtlsKcp
