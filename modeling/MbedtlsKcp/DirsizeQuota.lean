import Mathlib.Data.List.Sort
import MbedtlsKcp.DirsizeManager

/-!
# The quota of a directory

What the walk has counted is what the loop of `free_up_space` starts from, and
it deletes from the oldest file on while the rest is too large.  That keeps
the quota as long as the sums stay in the range of `long` and the walk has
seen the directory, which it has not when `dir_path` is a symbolic link.
-/

namespace MbedtlsKcp

namespace DirsizeManager

open PrefixEvictions DirectoryListings

/-! ## The walk -/

/-- Whether the walk over the entries of a directory comes to their end. -/
def walks (system : System) (path : Path) : Listing → Bool
  | .nil => true
  | .regular name _ _ rest =>
      system.lstat (path ++ [name]) && walks system path rest
  | .directory name entries rest =>
      system.lstat (path ++ [name]) && system.opendir (path ++ [name]) &&
        walks system (path ++ [name]) entries && walks system path rest
  | .other name _ rest =>
      system.lstat (path ++ [name]) && walks system path rest

/-- The files that the walk meets before a call fails. -/
def walked (system : System) (path : Path) : Listing → List FileInfo
  | .nil => []
  | .regular name size mtime rest =>
      if system.lstat (path ++ [name]) = false then []
      else ⟨path ++ [name], size, mtime⟩ :: walked system path rest
  | .directory name entries rest =>
      if system.lstat (path ++ [name]) = false then []
      else if system.opendir (path ++ [name]) = false then []
      else
        walked system (path ++ [name]) entries ++
          if walks system (path ++ [name]) entries then
            walked system path rest
          else []
  | .other name _ rest =>
      if system.lstat (path ++ [name]) = false then []
      else walked system path rest

/-- A walk that comes to the end has met all files. -/
theorem walked_eq_files {system : System} {path : Path} {listing : Listing}
    (ends : walks system path listing = true) :
    walked system path listing = listing.files path := by
  induction listing generalizing path with
  | nil => rfl
  | regular name size mtime rest ih =>
      simp only [walks, Bool.and_eq_true] at ends
      simp [walked, Listing.files, ends.1, ih ends.2]
  | directory name entries rest entriesIH restIH =>
      simp only [walks, Bool.and_eq_true] at ends
      obtain ⟨⟨⟨seen, opened⟩, inside⟩, later⟩ := ends
      simp [walked, Listing.files, seen, opened, inside, entriesIH inside,
        restIH later]
  | other name target rest ih =>
      simp only [walks, Bool.and_eq_true] at ends
      simp [walked, Listing.files, ends.1, ih ends.2]

/-- What a walk returns that met the given files. -/
def walkResult (list : FileList) (met : List FileInfo) (ends : Bool) :
    Option (Int × FileList) :=
  if list.totalSize + load File.size met ≤ longMax then
    some (if ends then dmSuccess else dmError,
      ⟨list.files ++ met, list.totalSize + load File.size met⟩)
  else none

/-- The sums of a walk so far are in the range of `long`. -/
def FileList.InRange (list : FileList) : Prop :=
  0 ≤ list.totalSize ∧ list.totalSize ≤ longMax

theorem walkResult_nil {list : FileList} (inRange : list.InRange)
    (ends : Bool) :
    walkResult list [] ends =
      some (if ends then dmSuccess else dmError, list) := by
  simp [walkResult, inRange.2]

theorem addToFileList_eq {list : FileList} (inRange : list.InRange)
    (file : FileInfo) :
    addToFileList list file =
      if list.totalSize + file.size ≤ longMax then
        some ⟨list.files ++ [file], list.totalSize + file.size⟩
      else none := by
  have low : longMin ≤ list.totalSize + file.size := by
    have := inRange.1
    unfold longMin
    omega
  by_cases fits : list.totalSize + (file.size : Int) ≤ longMax
  · simp [addToFileList, long, low, fits]
  · simp [addToFileList, long, fits]

/-- A list that has taken more files. -/
def FileList.append (list : FileList) (met : List FileInfo) : FileList where
  files := list.files ++ met
  totalSize := list.totalSize + load File.size met

theorem FileList.InRange.append {list : FileList} (inRange : list.InRange)
    {met : List FileInfo}
    (fits : list.totalSize + load File.size met ≤ longMax) :
    (list.append met).InRange := by
  have := inRange.1
  exact ⟨by simp only [FileList.append]; omega, fits⟩

/-- Two walks after each other are one walk. -/
theorem walkResult_append (list : FileList) (first second : List FileInfo)
    (ends : Bool) :
    walkResult list (first ++ second) ends =
      if list.totalSize + load File.size first ≤ longMax then
        walkResult (list.append first) second ends
      else none := by
  have sum : list.totalSize + load File.size (first ++ second) =
      list.totalSize + load File.size first + load File.size second := by
    rw [load_append]
    omega
  by_cases fits : list.totalSize + (load File.size first : Int) ≤ longMax
  · simp only [walkResult, FileList.append, sum, if_pos fits,
      List.append_assoc]
  · have beyond : ¬ list.totalSize + (load File.size first : Int) +
        (load File.size second : Int) ≤ longMax := by
      omega
    simp only [walkResult, sum, if_neg fits, if_neg beyond]

theorem collectEntries_eq (system : System) (path : Path) (listing : Listing)
    {list : FileList} (inRange : list.InRange) :
    collectEntries system path listing list =
      walkResult list (walked system path listing)
        (walks system path listing) := by
  induction listing generalizing path list with
  | nil => exact (walkResult_nil inRange true).symm
  | regular name size mtime rest ih =>
      cases seen : system.lstat (path ++ [name]) with
      | false =>
          simp [collectEntries, walked, walks, seen, walkResult_nil inRange]
      | true =>
          have split := walkResult_append list [⟨path ++ [name], size, mtime⟩]
            (walked system path rest) (walks system path rest)
          simp only [collectEntries, walked, walks, seen, Bool.true_eq_false,
            if_false, Bool.true_and, addToFileList_eq inRange]
          simp only [List.singleton_append, load_cons, load_nil,
            Nat.add_zero] at split
          rw [split]
          split_ifs with fits
          · exact ih path (inRange.append (by simpa using fits))
          · rfl
  | directory name entries rest entriesIH restIH =>
      cases seen : system.lstat (path ++ [name]) with
      | false =>
          simp [collectEntries, walked, walks, seen, walkResult_nil inRange]
      | true =>
          cases opened : system.opendir (path ++ [name]) with
          | false =>
              simp [collectEntries, walked, walks, seen, opened,
                walkResult_nil inRange]
          | true =>
              simp only [collectEntries, walked, walks, seen, opened,
                Bool.true_eq_false, if_false, Bool.true_and,
                entriesIH _ inRange]
              rw [walkResult_append]
              by_cases fits : list.totalSize +
                  (load File.size (walked system (path ++ [name]) entries) :
                    Int) ≤ longMax
              · have inner : walkResult list
                    (walked system (path ++ [name]) entries)
                    (walks system (path ++ [name]) entries) =
                      some (if walks system (path ++ [name]) entries then
                          dmSuccess else dmError,
                        list.append (walked system (path ++ [name]) entries)) :=
                  if_pos fits
                rw [inner, if_pos fits]
                cases inside : walks system (path ++ [name]) entries with
                | false =>
                    exact (walkResult_nil (inRange.append fits) false).symm
                | true => exact restIH path (inRange.append fits)
              · have inner : walkResult list
                    (walked system (path ++ [name]) entries)
                    (walks system (path ++ [name]) entries) = none :=
                  if_neg fits
                rw [inner, if_neg fits]
                rfl
  | other name target rest ih =>
      cases seen : system.lstat (path ++ [name]) with
      | false =>
          simp [collectEntries, walked, walks, seen, walkResult_nil inRange]
      | true =>
          simpa [collectEntries, walked, walks, seen] using ih path inRange

/-- Whether the walk over what `dir_path` names comes to its end. -/
def Directory.walks (dir : Directory) (system : System) : Bool :=
  system.lstat [] && (dir.isLink ||
    system.opendir [] && DirsizeManager.walks system [] dir.entries)

/-- The files that the walk over what `dir_path` names counts. -/
def Directory.counted (dir : Directory) (system : System) : List FileInfo :=
  if system.lstat [] = false then []
  else if dir.isLink then []
  else if system.opendir [] = false then []
  else walked system [] dir.entries

theorem collectFiles_eq (system : System) (dir : Directory) :
    collectFiles system dir initFileList =
      walkResult initFileList (dir.counted system) (dir.walks system) := by
  have inRange : initFileList.InRange := ⟨by decide, by decide⟩
  unfold collectFiles Directory.counted Directory.walks
  cases system.lstat [] with
  | false => exact (walkResult_nil inRange false).symm
  | true =>
      cases dir.isLink with
      | true => exact (walkResult_nil inRange true).symm
      | false =>
          cases system.opendir [] with
          | false => exact (walkResult_nil inRange false).symm
          | true => exact collectEntries_eq system [] dir.entries inRange

theorem collectFiles_of_fits {system : System} {dir : Directory}
    (fits : (load File.size (dir.counted system) : Int) ≤ longMax) :
    collectFiles system dir initFileList =
      some (if dir.walks system then dmSuccess else dmError,
        ⟨dir.counted system, load File.size (dir.counted system)⟩) := by
  rw [collectFiles_eq]
  simp [walkResult, initFileList, fits]

theorem collectFiles_of_over {system : System} {dir : Directory}
    (beyond : ¬ (load File.size (dir.counted system) : Int) ≤ longMax) :
    collectFiles system dir initFileList = none := by
  rw [collectFiles_eq]
  simp [walkResult, initFileList, beyond]

theorem counted_of_link {dir : Directory} (system : System)
    (link : dir.isLink = true) : dir.counted system = [] := by
  simp [Directory.counted, link]

theorem counted_eq_files {dir : Directory} {system : System}
    (ends : dir.walks system = true) (link : dir.isLink = false) :
    dir.counted system = dir.entries.files [] := by
  simp only [Directory.walks, link, Bool.false_or, Bool.and_eq_true] at ends
  obtain ⟨seen, opened, inside⟩ := ends
  simp [Directory.counted, seen, link, opened, walked_eq_files inside]

/-! ## The deletions -/

/-- The loop deletes from the front of the sorted files, each time because the
rest is too large, and when it succeeds the rest is not. -/
theorem freeLoop_evicted (system : System) (requiredSpace : Int)
    (entries : Listing) (files : List FileInfo) :
    ∃ kept,
      Evicted File.size requiredSpace files
        (freeLoop system requiredSpace entries (load File.size files)
          files).deleted kept ∧
      (freeLoop system requiredSpace entries (load File.size files)
          files).entries =
        entries.unlinkAll (freeLoop system requiredSpace entries
          (load File.size files) files).deleted ∧
      ((freeLoop system requiredSpace entries (load File.size files)
          files).ret = dmSuccess → load File.size kept ≤ requiredSpace) := by
  induction files generalizing entries with
  | nil =>
      refine ⟨[], Evicted.none [], rfl, ?_⟩
      simp only [freeLoop]
      split
      · intro impossible
        cases impossible
      · intro _
        omega
  | cons file files ih =>
      simp only [freeLoop]
      split
      · rename_i exceeds
        split
        · have rest : (load File.size (file :: files) : Int) - file.size =
              load File.size files := by
            rw [load_cons]
            omega
          rw [rest]
          obtain ⟨kept, evicted, left, fits⟩ :=
            ih (entries.unlink file.path)
          exact ⟨kept, evicted.cons exceeds, left, fits⟩
        · refine ⟨file :: files, Evicted.none _, rfl, ?_⟩
          intro impossible
          cases impossible
      · rename_i within
        exact ⟨file :: files, Evicted.none _, rfl, fun _ => by omega⟩

/-- What a successful call promises of its deletions and of what is left, when
a file of the given size is to come into the directory. -/
structure KeepsQuota (listing : Listing) (newSize : Nat) (limit : Int)
    (outcome : Outcome) : Prop where
  fits : outcome.entries.total ≤ limit
  original : ∀ file ∈ outcome.deleted, file ∈ listing.files []
  needed : ∀ before file after,
    outcome.deleted = before ++ file :: after →
      limit < (listing.unlinkAll before).total + newSize
  oldest : ∀ kept ∈ listing.files [], kept ∉ outcome.deleted →
    ∀ gone ∈ outcome.deleted, gone.mtime ≤ kept.mtime

theorem mtime_le_of_compare {first second : FileInfo}
    (ordered : compareFilesByAge first second ≤ 0) :
    first.mtime ≤ second.mtime := by
  unfold compareFilesByAge at ordered
  split_ifs at ordered <;> omega

/-- Freeing space in a directory that has been counted whole leaves at most
what is required, and deletes for need only and the oldest files first. -/
theorem freeUpSpace_keeps {system : System} {dir : Directory}
    {limit space : Int} {newSize : Nat} (room : space + newSize = limit)
    (frees : (freeUpSpace system dir.entries
      ⟨dir.entries.files [], load File.size (dir.entries.files [])⟩
      space).ret = dmSuccess) :
    (freeUpSpace system dir.entries
      ⟨dir.entries.files [], load File.size (dir.entries.files [])⟩
      space).entries.total ≤ space ∧
    ∀ (ret : Int) (entries : Listing), entries.total ≤ limit →
      KeepsQuota dir.entries newSize limit
        ⟨ret, entries, (freeUpSpace system dir.entries
          ⟨dir.entries.files [], load File.size (dir.entries.files [])⟩
          space).deleted⟩ := by
  have perm := system.qsort.perm (dir.entries.files [])
  have sorted := system.qsort.sorted (dir.entries.files [])
  unfold freeUpSpace at frees ⊢
  rw [← load_perm File.size perm] at frees ⊢
  obtain ⟨kept, evicted, left, light⟩ := freeLoop_evicted system
    space dir.entries (system.qsort.sort (dir.entries.files []))
  generalize freeLoop system space dir.entries
    (load File.size (system.qsort.sort (dir.entries.files [])))
    (system.qsort.sort (dir.entries.files [])) = outcome at *
  have split : (dir.entries.files []).Perm (outcome.deleted ++ kept) := by
    rw [evicted.split]
    exact perm.symm
  constructor
  · rw [left, Listing.total_unlinkAll dir.distinct split]
    exact light frees
  · intro ret entries fits
    refine ⟨fits, ?_, ?_, ?_⟩
    · intro file gone
      exact split.mem_iff.2 (List.mem_append_left _ gone)
    · intro before file after same
      -- what is left before a deletion is the file and what comes after it
      have rest : (dir.entries.files []).Perm
          (before ++ file :: (after ++ kept)) := by
        rw [same, List.append_assoc, List.cons_append] at split
        exact split
      rw [Listing.total_unlinkAll dir.distinct rest]
      have := evicted.heavy before file after same
      omega
    · intro file member stays gone goneMember
      have left : file ∈ kept := by
        obtain deleted | left := List.mem_append.1 (split.mem_iff.1 member)
        · exact absurd deleted stays
        · exact left
      exact mtime_le_of_compare
        (evicted.ordered sorted gone goneMember file left)

/-- With nothing to delete no space can be freed. -/
theorem freeUpSpace_nil (system : System) (entries : Listing)
    {requiredSpace : Int} (negative : requiredSpace < 0) :
    (freeUpSpace system entries ⟨[], 0⟩ requiredSpace).ret = dmNoSpace := by
  have empty : system.qsort.sort [] = [] :=
    List.perm_nil.1 (system.qsort.perm [])
  simp [freeUpSpace, empty, freeLoop, negative]

/-- Without a deletion only the size counts. -/
theorem keepsQuota_of_untouched {listing entries : Listing} {newSize : Nat}
    {limit : Int} (fits : entries.total ≤ limit) (ret : Int) :
    KeepsQuota listing newSize limit ⟨ret, entries, []⟩ where
  fits := fits
  original file impossible := by cases impossible
  needed before file after impossible := by simp at impossible
  oldest kept _ _ gone impossible := by cases impossible

/-! ## The copy -/

/-- The size of all files once the one at a destination has a new size. -/
def totalWith (target : Option Path) (size : Nat) (entries : Listing) : Int :=
  match target with
  | none => entries.total
  | some path =>
      (entries.total : Int) - ((entries.sizeAt path).getD 0 : Nat) + size

theorem total_store {target : Option Path} {size : Nat} {mtime : Int}
    {entries after : Listing}
    (stored : store target size mtime entries = some after) :
    after.total = totalWith target size entries := by
  cases target with
  | none =>
      obtain rfl := Option.some.inj stored
      rfl
  | some path =>
      have counted := Listing.total_write stored
      simp only [totalWith]
      omega

theorem totalWith_le (target : Option Path) (size : Nat) (entries : Listing) :
    totalWith target size entries ≤ entries.total + size := by
  cases target with
  | none => simp [totalWith]
  | some path =>
      simp only [totalWith]
      omega

theorem stored_le (source : Source) (target : Option Path) (fileSize : Nat) :
    source.stored target fileSize ≤ fileSize := by
  unfold Source.stored
  split
  · split
    · exact Nat.zero_le _
    · exact Nat.le_refl _
  · exact Nat.le_refl _

/-- A copy that succeeds has given the destination the size of the source. -/
theorem copyFile_stored {system : System} {source : Source} {fileSize : Nat}
    {entries : Listing}
    (copied : (copyFile system source fileSize entries).1 = dmSuccess) :
    store (entries.target source.filename)
        (source.stored (entries.target source.filename) fileSize) system.now
        entries =
      some (copyFile system source fileSize entries).2 := by
  by_cases opened : system.openSource = false ∨ source.stat entries = none
  · rw [copyFile, if_pos opened] at copied
    cases copied
  · by_cases created : system.openDestination = false
    · rw [copyFile, if_neg opened, if_pos created] at copied
      cases copied
    · simp only [copyFile, if_neg opened, if_neg created] at copied ⊢
      cases empties : store (entries.target source.filename) 0 system.now
          entries with
      | none =>
          rw [empties] at copied
          cases copied
      | some emptied =>
          simp only [empties] at copied ⊢
          split_ifs at copied ⊢
          · cases copied
          · cases copied
          · cases stores : store (entries.target source.filename)
                (source.stored (entries.target source.filename) fileSize)
                system.now entries with
            | none =>
                rw [stores] at copied
                cases copied
            | some after => rfl

theorem copyFile_total {system : System} {source : Source} {fileSize : Nat}
    {entries : Listing}
    (copied : (copyFile system source fileSize entries).1 = dmSuccess) :
    ((copyFile system source fileSize entries).2.total : Int) =
      totalWith (entries.target source.filename)
        (source.stored (entries.target source.filename) fileSize) entries :=
  total_store (copyFile_stored copied)

theorem copyFile_total_le {system : System} {source : Source} {fileSize : Nat}
    {entries : Listing}
    (copied : (copyFile system source fileSize entries).1 = dmSuccess) :
    (copyFile system source fileSize entries).2.total ≤
      entries.total + fileSize := by
  have exact := copyFile_total copied
  have grown := totalWith_le (entries.target source.filename)
    (source.stored (entries.target source.filename) fileSize) entries
  have short := stored_le source (entries.target source.filename) fileSize
  omega

/-! ## The quota -/

/-- `max_size_kb * 1024` is in the range of `long`. -/
def LimitInRange (maxSizeKb : Int) : Prop :=
  longMin ≤ maxSizeKb * 1024 ∧ maxSizeKb * 1024 ≤ longMax

/-- `dm_clean_dir_to_size` has defined behaviour and, when it succeeds, keeps
the quota. -/
def CleanKeepsQuota (system : System) (dir : Directory)
    (maxSizeKb : Int) : Prop :=
  ∃ outcome, dmCleanDirToSize system dir maxSizeKb = some outcome ∧
    (outcome.ret = dmSuccess →
      KeepsQuota dir.entries 0 (maxSizeKb * 1024) outcome)

/-- `dm_save_file_to_dir` has defined behaviour and, when it succeeds, keeps
the quota. -/
def SaveKeepsQuota (system : System) (dir : Directory) (source : Source)
    (maxSizeKb : Int) : Prop :=
  ∃ outcome, dmSaveFileToDir system dir source maxSizeKb = some outcome ∧
    (outcome.ret = dmSuccess →
      KeepsQuota dir.entries ((source.stat dir.entries).getD 0)
        (maxSizeKb * 1024) outcome)

/-- No sum leaves the range of `long`, and a walk that comes to its end has
not passed over what is too large because `dir_path` is a link. -/
structure CleanInRange (system : System) (dir : Directory)
    (maxSizeKb : Int) : Prop where
  counted : (load File.size (dir.counted system) : Int) ≤ longMax
  limit : dir.walks system = true → LimitInRange maxSizeKb
  link : dir.walks system = true → dir.isLink = true →
    maxSizeKb * 1024 < 0 ∨ dir.entries.total ≤ maxSizeKb * 1024

/-- The same for a file of the given size that is to be saved. -/
structure SaveInRange (system : System) (dir : Directory) (source : Source)
    (maxSizeKb : Int) (fileSize : Nat) : Prop where
  limit : LimitInRange maxSizeKb
  counted : fileSize ≤ maxSizeKb * 1024 →
    (load File.size (dir.counted system) : Int) ≤ longMax
  wanted : fileSize ≤ maxSizeKb * 1024 → dir.walks system = true →
    (load File.size (dir.counted system) : Int) + fileSize ≤ longMax
  link : fileSize ≤ maxSizeKb * 1024 → dir.walks system = true →
    dir.isLink = true →
    (copyFile system source fileSize dir.entries).1 = dmSuccess →
      totalWith (dir.entries.target source.filename)
        (source.stored (dir.entries.target source.filename) fileSize)
        dir.entries ≤ maxSizeKb * 1024

theorem long_eq {value : Int} (low : longMin ≤ value)
    (high : value ≤ longMax) : long value = some value :=
  if_pos ⟨low, high⟩

theorem eq_of_long {value result : Int} (is : long value = some result) :
    result = value := by
  unfold long at is
  split at is
  · exact (Option.some.inj is).symm
  · cases is

theorem long_of_not {value : Int} (out : ¬ (longMin ≤ value ∧ value ≤ longMax)) :
    long value = none :=
  if_neg out

/-- What `dm_clean_dir_to_size` does, with the walk taken out. -/
theorem dmCleanDirToSize_eq (system : System) (dir : Directory)
    (maxSizeKb : Int) :
    dmCleanDirToSize system dir maxSizeKb =
      if (load File.size (dir.counted system) : Int) ≤ longMax then
        if dir.walks system then
          (long (maxSizeKb * 1024)).map fun maxSizeBytes : Int =>
            if maxSizeBytes < load File.size (dir.counted system) then
              freeUpSpace system dir.entries ⟨dir.counted system,
                load File.size (dir.counted system)⟩ maxSizeBytes
            else ⟨dmSuccess, dir.entries, []⟩
        else some ⟨dmError, dir.entries, []⟩
      else none := by
  unfold dmCleanDirToSize
  by_cases counted : (load File.size (dir.counted system) : Int) ≤ longMax
  · rw [collectFiles_of_fits counted, if_pos counted]
    cases dir.walks system with
    | false => rfl
    | true =>
        cases limit : long (maxSizeKb * 1024) with
        | none => rfl
        | some maxSizeBytes =>
            simp only [Option.bind_eq_bind, Option.bind_some, if_true,
              ne_eq, not_true_eq_false, if_false, Option.map_some]
            split <;> rfl
  · rw [collectFiles_of_over counted, if_neg counted]
    rfl

/-- What `dm_save_file_to_dir` does when it has counted the directory. -/
def saveCounted (system : System) (dir : Directory) (source : Source)
    (maxSizeBytes : Int) (fileSize : Nat) (counted : List FileInfo) :
    Outcome :=
  let freed :=
    if maxSizeBytes < (load File.size counted : Int) + fileSize then
      freeUpSpace system dir.entries ⟨counted, load File.size counted⟩
        (maxSizeBytes - fileSize)
    else ⟨dmSuccess, dir.entries, []⟩
  if freed.ret ≠ dmSuccess then ⟨dmNoSpace, freed.entries, freed.deleted⟩
  else
    let copied := copyFile system source fileSize freed.entries
    ⟨copied.1, copied.2, freed.deleted⟩

/-- What `dm_save_file_to_dir` does with a source of the given size, with the
walk taken out. -/
theorem dmSaveFileToDir_eq {system : System} {dir : Directory}
    {source : Source} {maxSizeKb : Int} {fileSize : Nat}
    (found : source.stat dir.entries = some fileSize)
    (limit : LimitInRange maxSizeKb) (small : fileSize ≤ maxSizeKb * 1024) :
    dmSaveFileToDir system dir source maxSizeKb =
      if (load File.size (dir.counted system) : Int) ≤ longMax then
        if dir.walks system then
          (long (load File.size (dir.counted system) + fileSize)).map
            fun _ => saveCounted system dir source (maxSizeKb * 1024)
              fileSize (dir.counted system)
        else some ⟨dmError, dir.entries, []⟩
      else none := by
  unfold dmSaveFileToDir
  rw [found]
  simp only [long_eq limit.1 limit.2, Option.bind_eq_bind, Option.bind_some,
    if_neg (Int.not_lt.2 small)]
  by_cases counted : (load File.size (dir.counted system) : Int) ≤ longMax
  · rw [collectFiles_of_fits counted, if_pos counted]
    cases dir.walks system with
    | false => rfl
    | true =>
        cases sum : long (load File.size (dir.counted system) + fileSize) with
        | none => simp [sum]
        | some wanted =>
            have exact := eq_of_long sum
            subst exact
            simp only [Option.bind_some, if_true, sum, ne_eq,
              not_true_eq_false, if_false, Option.map_some, saveCounted]
            generalize (if maxSizeKb * 1024 <
                (load File.size (dir.counted system) : Int) + fileSize then
              freeUpSpace system dir.entries ⟨dir.counted system,
                load File.size (dir.counted system)⟩
                (maxSizeKb * 1024 - fileSize)
              else ⟨dmSuccess, dir.entries, []⟩) = freed
            split <;> rfl
  · rw [collectFiles_of_over counted, if_neg counted]
    rfl

theorem clean_iff (system : System) (dir : Directory) (maxSizeKb : Int) :
    CleanKeepsQuota system dir maxSizeKb ↔
      CleanInRange system dir maxSizeKb := by
  unfold CleanKeepsQuota
  rw [dmCleanDirToSize_eq]
  by_cases counted : (load File.size (dir.counted system) : Int) ≤ longMax
  · rw [if_pos counted]
    cases ends : dir.walks system with
    | false =>
        refine iff_of_true ⟨_, rfl, fun impossible => ?_⟩
          ⟨counted, fun impossible => ?_, fun impossible => ?_⟩
        · cases impossible
        · simp [ends] at impossible
        · simp [ends] at impossible
    | true =>
        by_cases limit : LimitInRange maxSizeKb
        · simp only [if_true, long_eq limit.1 limit.2, Option.map_some,
            Option.some.injEq, exists_eq_left']
          cases link : dir.isLink with
          | true =>
              have nothing : ((0 : Nat) : Int) = 0 := rfl
              simp only [counted_of_link system link, load_nil, nothing]
              by_cases negative : maxSizeKb * 1024 < 0
              · rw [if_pos negative, freeUpSpace_nil system _ negative]
                refine iff_of_true (fun impossible => ?_)
                  ⟨counted, fun _ => limit, fun _ _ => .inl negative⟩
                cases impossible
              · rw [if_neg negative]
                constructor
                · intro keeps
                  exact ⟨counted, fun _ => limit,
                    fun _ _ => .inr (keeps rfl).fits⟩
                · intro inRange _
                  obtain impossible | fits := inRange.link ends link
                  · exact absurd impossible negative
                  · exact keepsQuota_of_untouched fits _
          | false =>
              rw [counted_eq_files ends link]
              refine iff_of_true (fun succeeds => ?_)
                ⟨counted, fun _ => limit, fun _ linked => ?_⟩
              · split at succeeds
                · rename_i exceeds
                  rw [if_pos exceeds]
                  have room : maxSizeKb * 1024 + ((0 : Nat) : Int) =
                      maxSizeKb * 1024 := by
                    simp
                  have frees := freeUpSpace_keeps room succeeds
                  exact frees.2 _ _ frees.1
                · rename_i within
                  rw [if_neg within]
                  rw [Listing.load_files] at within
                  exact keepsQuota_of_untouched (by omega) _
              · simp [link] at linked
        · have beyond : long (maxSizeKb * 1024) = none := long_of_not limit
          refine iff_of_false ?_ fun inRange => limit (inRange.limit ends)
          rw [beyond]
          simp
  · refine iff_of_false ?_ fun inRange => counted inRange.counted
    rw [if_neg counted]
    simp

/-- A directory that has been counted whole keeps the quota. -/
theorem saveCounted_keeps {system : System} {dir : Directory}
    {source : Source} {maxSizeBytes : Int} {fileSize : Nat}
    (succeeds : (saveCounted system dir source maxSizeBytes fileSize
      (dir.entries.files [])).ret = dmSuccess) :
    KeepsQuota dir.entries fileSize maxSizeBytes
      (saveCounted system dir source maxSizeBytes fileSize
        (dir.entries.files [])) := by
  unfold saveCounted at succeeds ⊢
  by_cases exceeds : maxSizeBytes <
      (load File.size (dir.entries.files []) : Int) + fileSize
  · simp only [if_pos exceeds] at succeeds ⊢
    split_ifs at succeeds ⊢ with fails
    · cases succeeds
    · have room : maxSizeBytes - fileSize + fileSize = maxSizeBytes := by
        omega
      have frees := freeUpSpace_keeps room (not_not.1 fails)
      refine frees.2 _ _ ?_
      have grown := copyFile_total_le succeeds
      have left := frees.1
      omega
  · simp only [if_neg exceeds, ne_eq, not_true_eq_false, if_false] at succeeds ⊢
    rw [Listing.load_files] at exceeds
    have grown := copyFile_total_le succeeds
    exact keepsQuota_of_untouched (by omega) _

/-- Behind a link nothing is counted, and the file is copied at once. -/
theorem saveCounted_link (system : System) (dir : Directory)
    (source : Source) {maxSizeBytes : Int} {fileSize : Nat}
    (small : fileSize ≤ maxSizeBytes) :
    saveCounted system dir source maxSizeBytes fileSize [] =
      ⟨(copyFile system source fileSize dir.entries).1,
        (copyFile system source fileSize dir.entries).2, []⟩ := by
  have within : ¬ maxSizeBytes < ((load File.size [] : Nat) : Int) + fileSize := by
    simp only [load_nil]
    omega
  simp only [saveCounted, if_neg within, ne_eq, not_true_eq_false, if_false]

theorem save_iff (system : System) (dir : Directory) (source : Source)
    (maxSizeKb : Int) :
    SaveKeepsQuota system dir source maxSizeKb ↔
      ∀ fileSize, source.stat dir.entries = some fileSize →
        SaveInRange system dir source maxSizeKb fileSize := by
  unfold SaveKeepsQuota
  cases found : source.stat dir.entries with
  | none =>
      refine iff_of_true ⟨⟨dmSrcFileError, dir.entries, []⟩, ?_,
        fun impossible => ?_⟩ fun fileSize impossible => ?_
      · simp [dmSaveFileToDir, found]
      · cases impossible
      · cases impossible
  | some fileSize =>
      have only : (∀ size, some fileSize = some size →
          SaveInRange system dir source maxSizeKb size) ↔
            SaveInRange system dir source maxSizeKb fileSize := by
        simp
      rw [only, Option.getD_some]
      by_cases limit : LimitInRange maxSizeKb
      · by_cases small : (fileSize : Int) ≤ maxSizeKb * 1024
        · rw [dmSaveFileToDir_eq found limit small]
          by_cases counted :
              (load File.size (dir.counted system) : Int) ≤ longMax
          · rw [if_pos counted]
            cases ends : dir.walks system with
            | false =>
                refine iff_of_true ⟨_, rfl, fun impossible => ?_⟩
                  ⟨limit, fun _ => counted, fun _ impossible => ?_,
                    fun _ impossible => ?_⟩
                · cases impossible
                · simp [ends] at impossible
                · simp [ends] at impossible
            | true =>
                by_cases wanted : (load File.size (dir.counted system) : Int) +
                    fileSize ≤ longMax
                · have sum : long (load File.size (dir.counted system) +
                      fileSize) =
                      some ((load File.size (dir.counted system) : Int) +
                        fileSize) := by
                    refine long_eq ?_ wanted
                    unfold longMin
                    omega
                  simp only [if_true, sum, Option.map_some,
                    Option.some.injEq, exists_eq_left']
                  cases link : dir.isLink with
                  | false =>
                      rw [counted_eq_files ends link]
                      refine iff_of_true saveCounted_keeps
                        ⟨limit, fun _ => counted, fun _ _ => wanted,
                          fun _ _ linked => ?_⟩
                      simp [link] at linked
                  | true =>
                      rw [counted_of_link system link,
                        saveCounted_link system dir source small]
                      constructor
                      · intro keeps
                        refine ⟨limit, fun _ => counted, fun _ _ => wanted,
                          fun _ _ _ copied => ?_⟩
                        rw [← copyFile_total copied]
                        exact (keeps copied).fits
                      · intro inRange copied
                        have fits := inRange.link small ends link copied
                        rw [← copyFile_total copied] at fits
                        exact keepsQuota_of_untouched fits _
                · have beyond : long (load File.size (dir.counted system) +
                      fileSize) = none :=
                    long_of_not fun inside => wanted inside.2
                  refine iff_of_false ?_ fun inRange =>
                    wanted (inRange.wanted small ends)
                  simp [beyond]
          · refine iff_of_false ?_ fun inRange =>
              counted (inRange.counted small)
            rw [if_neg counted]
            simp
        · refine iff_of_true ⟨⟨dmFileTooLarge, dir.entries, []⟩, ?_,
            fun impossible => ?_⟩ ⟨limit, fun fits => ?_, fun fits => ?_,
              fun fits => ?_⟩
          · simp [dmSaveFileToDir, found, long_eq limit.1 limit.2,
              Int.not_le.1 small]
          · cases impossible
          · exact absurd fits small
          · exact absurd fits small
          · exact absurd fits small
      · have beyond : long (maxSizeKb * 1024) = none := long_of_not limit
        refine iff_of_false ?_ fun inRange => limit inRange.limit
        simp [dmSaveFileToDir, found, beyond]

/-- The size that is reported of a directory is the one of its files, in whole
kilobytes. -/
theorem dmGetDirSize_eq {system : System} {dir : Directory}
    (ends : dir.walks system = true) (link : dir.isLink = false)
    (fits : (dir.entries.total : Int) ≤ longMax) :
    dmGetDirSize system dir =
      some (dmSuccess, some ((dir.entries.total : Int) / 1024)) := by
  have counted := counted_eq_files ends link
  have sum : load File.size (dir.counted system) = dir.entries.total := by
    rw [counted, Listing.load_files]
  unfold dmGetDirSize
  rw [collectFiles_of_fits (by rw [sum]; exact fits), sum, ends]
  rfl

/-- A sort that keeps files of one age in their order. -/
def stableSort : QSort where
  sort := List.insertionSort fun first second => first.mtime ≤ second.mtime
  perm := List.perm_insertionSort _
  sorted files := by
    have total : Std.Total fun first second : FileInfo =>
        first.mtime ≤ second.mtime :=
      ⟨fun first second => Int.le_total first.mtime second.mtime⟩
    have trans : IsTrans FileInfo fun first second =>
        first.mtime ≤ second.mtime :=
      ⟨fun _ _ _ => Int.le_trans⟩
    refine (List.pairwise_insertionSort (fun first second : FileInfo =>
      first.mtime ≤ second.mtime) files).imp ?_
    intro first second older
    unfold compareFilesByAge
    split_ifs <;> omega

/-- A system on which every call succeeds. -/
def calm : System where
  lstat _ := true
  opendir _ := true
  unlink _ := true
  openSource := true
  openDestination := true
  reads := true
  writes := true
  now := 0
  qsort := stableSort

/-- A directory with one file of two kilobytes, or a link to it. -/
def twoKilobytes (isLink : Bool) : Directory where
  isLink := isLink
  entries := .regular "a" 2048 0 .nil
  distinct := by decide

end DirsizeManager

end MbedtlsKcp
