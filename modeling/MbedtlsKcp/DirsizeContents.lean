import Mathlib.Logic.Function.Basic
import MbedtlsKcp.ChunkedTransfers
import MbedtlsKcp.DirsizeManager
import MbedtlsKcp.FileTrees

/-!
# Saving the contents of a file

`dm_save_file_to_dir` with the bytes of the files and the calls of `copy_file`
one by one.  The walk over the directory and the deletions are those of the
listing of the tree.
-/

namespace MbedtlsKcp

namespace SavedFiles

open PrefixEvictions DirectoryListings FileTrees ChunkedTransfers DirsizeManager

/-- A directory and the contents of files; a file without contents is not
there. -/
structure Disk where
  entries : Tree
  contents : Inode → Option (List UInt8)

/-- The size of a file. -/
def Disk.size (disk : Disk) (inode : Inode) : Nat :=
  ((disk.contents inode).getD []).length

/-- What is read under `dir_path` and a name. -/
def Disk.bytesAt (disk : Disk) (name : String) : Option (List UInt8) :=
  (disk.entries.fileAt name).bind disk.contents

/-- The disk without the files that `free_up_space` has deleted. -/
def Disk.evict (disk : Disk) (deleted : List FileInfo) : Disk :=
  { disk with entries := disk.entries.unlinkAll deleted }

/-- What `dir_path` names, with the inode that the next new file gets. -/
structure Volume where
  isLink : Bool
  disk : Disk
  mtime : Inode → Int
  fresh : Inode
  distinct : (disk.entries.listing disk.size mtime).Distinct
  unused : fresh ∉ disk.entries.inodes
  absent : disk.contents fresh = none

def Volume.directory (volume : Volume) : Directory where
  isLink := volume.isLink
  entries := volume.disk.entries.listing volume.disk.size volume.mtime
  distinct := volume.distinct

/-- What `src_path` names, which may be a file below the directory. -/
inductive Origin
  | inaccessible
  | irregular
  | outside (inode : Inode)
  | inside (path : Path)
  deriving DecidableEq

/-- `src_path` with its last component. -/
structure SourceFile where
  filename : String
  origin : Origin

def SourceFile.inode (source : SourceFile) (entries : Tree) : Option Inode :=
  match source.origin with
  | .inaccessible => none
  | .irregular => none
  | .outside inode => some inode
  | .inside path => entries.inodeAt path

/-- The bytes of a regular file. -/
def SourceFile.bytes (source : SourceFile) (disk : Disk) :
    Option (List UInt8) :=
  (source.inode disk.entries).bind disk.contents

/-- How the reads and writes of `copy_file` go, and its `unlink`. -/
structure CopyCalls extends Transfers where
  unlinkDestination : Bool

/-- The size of `buffer`. -/
def bufferSize : Nat := 4096

def result : Ending → Int
  | .whole => dmSuccess
  | .readFailed => dmSrcFileError
  | .writeFailed => dmDstFileError

/-- Give an opened file a content. -/
def store (inode : Option Inode) (bytes : List UInt8)
    (contents : Inode → Option (List UInt8)) : Inode → Option (List UInt8) :=
  match inode with
  | none => contents
  | some inode => Function.update contents inode (some bytes)

/-- The loop of `copy_file` over what the source has left, and what follows
it. -/
def copyOpened (calls : CopyCalls) (fresh : Inode) (filename : String)
    (disk : Disk) (opened : Tree.Opened) (data : List UInt8) : Int × Disk :=
  let copied := transfer bufferSize calls.toTransfers data
  let entries := opened.entries disk.entries
  let contents := store (opened.inode fresh) copied.2 disk.contents
  if result copied.1 ≠ dmSuccess ∧ calls.unlinkDestination then
    (result copied.1, ⟨entries.unlink [filename], contents⟩)
  else (result copied.1, ⟨entries, contents⟩)

/-- What opening the destination leaves of the source, which it empties when
they are one file. -/
def SourceFile.left (source : SourceFile) (fresh : Inode) (disk : Disk)
    (opened : Tree.Opened) : List UInt8 :=
  let emptied := store (opened.inode fresh) [] disk.contents
  ((source.inode disk.entries).bind emptied).getD []

def copyFile (system : System) (calls : CopyCalls) (fresh : Inode)
    (source : SourceFile) (disk : Disk) : Int × Disk :=
  if system.openSource = false ∨ source.bytes disk = none then
    (dmSrcFileError, disk)
  else if system.openDestination = false then (dmDstFileError, disk)
  else
    match disk.entries.openAt fresh source.filename with
    | none => (dmDstFileError, disk)
    | some opened =>
        copyOpened calls fresh source.filename disk opened
          (source.left fresh disk opened)

/-- `dm_save_file_to_dir`, with the disk afterwards. -/
def dmSaveFileToDir (system : System) (calls : CopyCalls) (volume : Volume)
    (source : SourceFile) (maxSizeKb : Int) : Option (Int × Disk) :=
  match source.bytes volume.disk with
  | none => some (dmSrcFileError, volume.disk)
  | some bytes => do
      let maxSizeBytes ← long (maxSizeKb * 1024)
      if maxSizeBytes < bytes.length then
        return (dmFileTooLarge, volume.disk)
      let (ret, list) ← collectFiles system volume.directory initFileList
      if ret ≠ dmSuccess then return (dmError, volume.disk)
      let wanted ← long (list.totalSize + bytes.length)
      let freed :=
        if maxSizeBytes < wanted then
          freeUpSpace system volume.directory.entries list
            (maxSizeBytes - bytes.length)
        else ⟨dmSuccess, volume.directory.entries, []⟩
      let disk := volume.disk.evict freed.deleted
      if freed.ret ≠ dmSuccess then return (dmNoSpace, disk)
      return copyFile system calls volume.fresh source disk

/-! ## Opening and copying -/

variable {system : System} {calls : CopyCalls} {fresh : Inode}
  {source : SourceFile} {disk : Disk} {opened : Tree.Opened}

@[simp]
theorem result_eq_success {ending : Ending} :
    result ending = dmSuccess ↔ ending = .whole := by
  cases ending <;> decide

@[simp]
theorem evict_nil (disk : Disk) : disk.evict [] = disk :=
  rfl

/-- What the destination holds after the transfer. -/
theorem bytesAt_store {filename : String} {bytes : List UInt8}
    (opens : disk.entries.openAt fresh filename = some opened) :
    (Disk.mk (opened.entries disk.entries)
        (store (opened.inode fresh) bytes disk.contents)).bytesAt filename =
      (opened.inode fresh).map fun _ => bytes := by
  unfold Disk.bytesAt
  rw [Tree.fileAt_opened opens]
  cases opened.inode fresh with
  | none => rfl
  | some inode => simp [store]

/-- A file is emptied only when it is the destination. -/
theorem left_eq {bytes : List UInt8} (found : source.bytes disk = some bytes) :
    source.left fresh disk opened =
      if opened.inode fresh = source.inode disk.entries then [] else bytes := by
  unfold SourceFile.bytes at found
  obtain ⟨inode, named, stored⟩ := Option.bind_eq_some_iff.1 found
  simp only [SourceFile.left, named, Option.bind_some]
  cases opened.inode fresh with
  | none => simp [store, stored]
  | some destination =>
      by_cases same : destination = inode
      · simp [store, same]
      · have apart : inode ≠ destination := fun equal => same equal.symm
        simp [store, same, Function.update_of_ne apart, stored]

theorem copyOpened_of_whole {filename : String} {data : List UInt8}
    (whole : calls.Whole bufferSize data.length) :
    copyOpened calls fresh filename disk opened data =
      (dmSuccess, ⟨opened.entries disk.entries,
        store (opened.inode fresh) data disk.contents⟩) := by
  unfold copyOpened
  rw [transfer_of_whole (by decide) whole]
  rfl

/-- What a copy leaves that fails in the round of the given number. -/
theorem copyOpened_of_stopsAt {filename : String} {data : List UInt8}
    {call : Nat} (stops : calls.StopsAt bufferSize data.length call) :
    (copyOpened calls fresh filename disk opened data).1 ≠ dmSuccess ∧
    (copyOpened calls fresh filename disk opened data).2 =
      ⟨if calls.unlinkDestination then
          (opened.entries disk.entries).unlink [filename]
        else opened.entries disk.entries,
        store (opened.inode fresh) (data.take (calls.stored bufferSize call))
          disk.contents⟩ := by
  obtain ⟨broken, stored⟩ := transfer_of_stopsAt (by decide) stops
  simp only [copyOpened, stored]
  cases calls.unlinkDestination with
  | false => simp [broken]
  | true => simp [broken]

end SavedFiles

end MbedtlsKcp
