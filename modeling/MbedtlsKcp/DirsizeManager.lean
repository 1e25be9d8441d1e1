import MbedtlsKcp.DirectoryListings

/-!
# Keeping a directory below a size

`dirsize_manager.c` walks a directory, deletes its oldest files until the rest
fits, and copies a file into it.  A result of `none` is an overflow of a
`long`, which leaves the behaviour undefined.  Allocations succeed, and the
paths below the directory are shorter than `PATH_MAX`.
-/

namespace MbedtlsKcp

namespace DirsizeManager

open PrefixEvictions DirectoryListings

def dmSuccess : Int := 0

def dmError : Int := -1

def dmFileTooLarge : Int := -2

def dmNoSpace : Int := -3

def dmSrcFileError : Int := -4

def dmDstFileError : Int := -5

def longMin : Int := -2 ^ 63

def longMax : Int := 2 ^ 63 - 1

/-- The value of an expression of type `long`. -/
def long (value : Int) : Option Int :=
  if longMin ≤ value ∧ value ≤ longMax then some value else none

/-- `FileInfo`. -/
abbrev FileInfo := File

/-- `FileList`. -/
structure FileList where
  files : List FileInfo
  totalSize : Int

def initFileList : FileList where
  files := []
  totalSize := 0

def addToFileList (list : FileList) (file : FileInfo) : Option FileList := do
  let totalSize ← long (list.totalSize + file.size)
  return ⟨list.files ++ [file], totalSize⟩

def compareFilesByAge (first second : FileInfo) : Int :=
  (if first.mtime > second.mtime then 1 else 0) -
    (if first.mtime < second.mtime then 1 else 0)

/-- What `qsort` makes of a list with `compare_files_by_age`: it may leave
files of one age in any order. -/
structure QSort where
  sort : List FileInfo → List FileInfo
  perm : ∀ files, (sort files).Perm files
  sorted : ∀ files, (sort files).Pairwise fun first second =>
    compareFilesByAge first second ≤ 0

/-- How the calls to the system go, by the path they are given. -/
structure System where
  lstat : Path → Bool
  opendir : Path → Bool
  unlink : Path → Bool
  openSource : Bool
  openDestination : Bool
  reads : Bool
  writes : Bool
  now : Int
  qsort : QSort

/-- What `dir_path` names: a directory, or a symbolic link to one. -/
structure Directory where
  isLink : Bool
  entries : Listing
  distinct : entries.Distinct

/-- What `src_path` names, which may be a file below the directory. -/
inductive Place
  | inaccessible
  | irregular
  | outside (size : Nat)
  | inside (path : Path)
  deriving DecidableEq

/-- `src_path` with its last component. -/
structure Source where
  filename : String
  place : Place

/-- The result, the entries afterwards, and the files that were deleted, the
first one first. -/
structure Outcome where
  ret : Int
  entries : Listing
  deleted : List FileInfo
  deriving DecidableEq

/-- The loop of `collect_files` over the entries of a directory. -/
def collectEntries (system : System) (path : Path) :
    Listing → FileList → Option (Int × FileList)
  | .nil, list => some (dmSuccess, list)
  | .regular name size mtime rest, list =>
      if system.lstat (path ++ [name]) = false then some (dmError, list)
      else do
        let list ← addToFileList list ⟨path ++ [name], size, mtime⟩
        collectEntries system path rest list
  | .directory name entries rest, list =>
      if system.lstat (path ++ [name]) = false then some (dmError, list)
      else if system.opendir (path ++ [name]) = false then
        some (dmError, list)
      else do
        let (ret, list) ← collectEntries system (path ++ [name]) entries list
        if ret ≠ dmSuccess then some (dmError, list)
        else collectEntries system path rest list
  | .other name _ rest, list =>
      if system.lstat (path ++ [name]) = false then some (dmError, list)
      else collectEntries system path rest list

/-- `collect_files` for `dir_path`.  `lstat` does not follow a link. -/
def collectFiles (system : System) (dir : Directory) (list : FileList) :
    Option (Int × FileList) :=
  if system.lstat [] = false then some (dmError, list)
  else if dir.isLink then some (dmSuccess, list)
  else if system.opendir [] = false then some (dmError, list)
  else collectEntries system [] dir.entries list

/-- The loop of `free_up_space` over the sorted files. -/
def freeLoop (system : System) (requiredSpace : Int) :
    Listing → Int → List FileInfo → Outcome
  | entries, totalSize, [] =>
      ⟨if requiredSpace < totalSize then dmNoSpace else dmSuccess, entries, []⟩
  | entries, totalSize, file :: files =>
      if requiredSpace < totalSize then
        if system.unlink file.path then
          let outcome := freeLoop system requiredSpace
            (entries.unlink file.path) (totalSize - file.size) files
          { outcome with deleted := file :: outcome.deleted }
        else ⟨dmError, entries, []⟩
      else ⟨dmSuccess, entries, []⟩

def freeUpSpace (system : System) (entries : Listing) (list : FileList)
    (requiredSpace : Int) : Outcome :=
  freeLoop system requiredSpace entries list.totalSize
    (system.qsort.sort list.files)

/-- `stat` of `src_path`: the size of a regular file. -/
def Source.stat (source : Source) (entries : Listing) : Option Nat :=
  match source.place with
  | .inaccessible => none
  | .irregular => none
  | .outside size => some size
  | .inside path => entries.sizeAt path

/-- The entries when the file of a destination gets a content; one outside
the directory does not change them. -/
def store (target : Option Path) (size : Nat) (mtime : Int)
    (entries : Listing) : Option Listing :=
  match target with
  | none => some entries
  | some path => entries.write path size mtime

/-- What `copy_file` finds to copy: opening the destination has emptied the
source when they are one file. -/
def Source.stored (source : Source) (target : Option Path)
    (fileSize : Nat) : Nat :=
  match source.place, target with
  | .inside path, some destination =>
      if path = destination then 0 else fileSize
  | _, _ => fileSize

/-- `copy_file` of a source of the given size to `dir_path` and its own
name. -/
def copyFile (system : System) (source : Source) (fileSize : Nat)
    (entries : Listing) : Int × Listing :=
  if system.openSource = false ∨ source.stat entries = none then
    (dmSrcFileError, entries)
  else if system.openDestination = false then (dmDstFileError, entries)
  else
    let target := entries.target source.filename
    match store target 0 system.now entries with
    | none => (dmDstFileError, entries)
    | some emptied =>
        let stored := source.stored target fileSize
        if stored ≠ 0 ∧ system.writes = false then
          (dmDstFileError, emptied.unlink [source.filename])
        else if system.reads = false then
          (dmSrcFileError, emptied.unlink [source.filename])
        else
          match store target stored system.now entries with
          | none => (dmDstFileError, entries)
          | some entries => (dmSuccess, entries)

def dmSaveFileToDir (system : System) (dir : Directory) (source : Source)
    (maxSizeKb : Int) : Option Outcome :=
  match source.stat dir.entries with
  | none => some ⟨dmSrcFileError, dir.entries, []⟩
  | some fileSize => do
      let maxSizeBytes ← long (maxSizeKb * 1024)
      if maxSizeBytes < fileSize then
        return ⟨dmFileTooLarge, dir.entries, []⟩
      let (ret, list) ← collectFiles system dir initFileList
      if ret ≠ dmSuccess then return ⟨dmError, dir.entries, []⟩
      let wanted ← long (list.totalSize + fileSize)
      let freed :=
        if maxSizeBytes < wanted then
          freeUpSpace system dir.entries list (maxSizeBytes - fileSize)
        else ⟨dmSuccess, dir.entries, []⟩
      if freed.ret ≠ dmSuccess then
        return ⟨dmNoSpace, freed.entries, freed.deleted⟩
      let (ret, entries) := copyFile system source fileSize freed.entries
      return ⟨ret, entries, freed.deleted⟩

/-- `dm_get_dir_size`, with what it writes to `*size_kb`. -/
def dmGetDirSize (system : System) (dir : Directory) :
    Option (Int × Option Int) := do
  let (ret, list) ← collectFiles system dir initFileList
  if ret ≠ dmSuccess then return (dmError, none)
  return (dmSuccess, some (list.totalSize / 1024))

def dmCleanDirToSize (system : System) (dir : Directory) (maxSizeKb : Int) :
    Option Outcome := do
  let (ret, list) ← collectFiles system dir initFileList
  if ret ≠ dmSuccess then return ⟨dmError, dir.entries, []⟩
  let maxSizeBytes ← long (maxSizeKb * 1024)
  if maxSizeBytes < list.totalSize then
    return freeUpSpace system dir.entries list maxSizeBytes
  return ⟨dmSuccess, dir.entries, []⟩

end DirsizeManager

end MbedtlsKcp
