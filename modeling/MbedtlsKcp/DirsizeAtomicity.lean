import MbedtlsKcp.DirsizeContents
import MbedtlsKcp.DirsizeQuota

/-!
# What a failed save leaves

`dm_save_file_to_dir` makes room before it copies, and does not put back what
it has deleted; a copy that fails takes the destination away.  Nothing else
below the directory changes.
-/

namespace MbedtlsKcp

namespace SavedFiles

open PrefixEvictions DirectoryListings FileTrees ChunkedTransfers DirsizeManager

/-- Every file below a directory is as it was. -/
structure AsBefore (before after : Disk) : Prop where
  entries : after.entries = before.entries
  contents : ∀ inode ∈ before.entries.inodes,
    after.contents inode = before.contents inode

/-- A save is faithful and atomic: with `DM_SUCCESS` the bytes of the source
are found under its name, and an error leaves every file as it was. -/
structure FaithfulAndAtomic (source : SourceFile) (before : Disk)
    (returned : Int × Disk) : Prop where
  faithful : returned.1 = dmSuccess →
    returned.2.bytesAt source.filename = source.bytes before
  atomic : returned.1 ≠ dmSuccess → AsBefore before returned.2

/-- `dm_save_file_to_dir` is faithful and atomic when it returns. -/
def SavesAtomically (system : System) (calls : CopyCalls) (volume : Volume)
    (source : SourceFile) (maxSizeKb : Int) : Prop :=
  ∀ returned, dmSaveFileToDir system calls volume source maxSizeKb =
    some returned → FaithfulAndAtomic source volume.disk returned

/-- The files that have to be deleted for a source, the first one first. -/
def mustGo (system : System) (volume : Volume) (source : SourceFile)
    (maxSizeKb : Int) : List FileInfo :=
  victims File.size
    (maxSizeKb * 1024 - ((source.bytes volume.disk).getD []).length)
    (system.qsort.sort (volume.directory.counted system))

/-- What an error leaves: the directory without the first files of those that
have to be deleted, or, when all of them are and the copy has begun, what is
left of the destination. -/
inductive Leaves (calls : CopyCalls) (volume : Volume) (source : SourceFile)
    (gone : List FileInfo) (after : Disk) : Prop
  | refused (deleted : List FileInfo) (first : deleted <+: gone)
      (same : after = volume.disk.evict deleted)
  | broken (opened : Tree.Opened) (written : List UInt8)
      (opens : (volume.disk.evict gone).entries.openAt volume.fresh
        source.filename = some opened)
      (partly : written <+: (source.bytes volume.disk).getD [])
      (entries : after.entries =
        if calls.unlinkDestination then
          (opened.entries (volume.disk.evict gone).entries).unlink
            [source.filename]
        else opened.entries (volume.disk.evict gone).entries)
      (contents : after.contents =
        store (opened.inode volume.fresh) written volume.disk.contents)

/-- What is kept of a save: the bytes of a source that is not itself the
destination, and on an error all but the deleted files and the destination. -/
structure Saves (calls : CopyCalls) (volume : Volume) (source : SourceFile)
    (gone : List FileInfo) (returned : Int × Disk) : Prop where
  faithful : returned.1 = dmSuccess →
    (volume.disk.evict gone).entries.resolve source.filename ≠ .device →
    (volume.disk.evict gone).entries.fileAt source.filename ≠
      source.inode volume.disk.entries →
    returned.2.bytesAt source.filename = source.bytes volume.disk
  early : returned.1 = dmFileTooLarge ∨ returned.1 = dmError →
    returned.2 = volume.disk
  failed : returned.1 ≠ dmSuccess →
    Leaves calls volume source gone returned.2
  clean : returned.1 ≠ dmSuccess → gone = [] →
    source.filename ∉ volume.disk.entries.names →
    calls.unlinkDestination = true → AsBefore volume.disk returned.2

variable {system : System} {calls : CopyCalls} {volume : Volume}
  {source : SourceFile} {maxSizeKb : Int}

theorem AsBefore.refl (disk : Disk) : AsBefore disk disk where
  entries := rfl
  contents _ _ := rfl

/-! ## The deletions -/

/-- The loop deletes the files that have to go until an `unlink` fails. -/
theorem freeLoop_victims (bound : Int) (entries : Listing)
    (files : List FileInfo) :
    ((freeLoop system bound entries (load File.size files) files).ret =
        dmSuccess →
      (freeLoop system bound entries (load File.size files) files).deleted =
        victims File.size bound files) ∧
    (freeLoop system bound entries (load File.size files) files).deleted <+:
      victims File.size bound files := by
  induction files generalizing entries with
  | nil => exact ⟨fun _ => rfl, List.nil_prefix⟩
  | cons file files ih =>
      by_cases exceeds : bound < load File.size (file :: files)
      · cases unlinked : system.unlink file.path with
        | true =>
            have rest : (load File.size (file :: files) : Int) - file.size =
                load File.size files := by
              rw [load_cons]
              omega
            obtain ⟨whole, first⟩ := ih (entries.unlink file.path)
            simp only [freeLoop, victims, if_pos exceeds, unlinked, if_true,
              rest]
            exact ⟨fun succeeds => congrArg (file :: ·) (whole succeeds),
              (List.prefix_cons_inj file).2 first⟩
        | false =>
            simp only [freeLoop, if_pos exceeds, unlinked, Bool.false_eq_true,
              if_false]
            refine ⟨fun impossible => ?_, List.nil_prefix⟩
            cases impossible
      · simp only [freeLoop, victims, if_neg exceeds]
        exact ⟨fun _ => trivial, List.prefix_rfl⟩

theorem collectFiles_list {dir : Directory} {ret : Int} {list : FileList}
    (walked : collectFiles system dir initFileList = some (ret, list)) :
    list = ⟨dir.counted system, load File.size (dir.counted system)⟩ := by
  by_cases fits : (load File.size (dir.counted system) : Int) ≤ longMax
  · rw [collectFiles_of_fits fits] at walked
    exact (Prod.mk.inj (Option.some.inj walked)).2.symm
  · rw [collectFiles_of_over fits] at walked
    cases walked

/-- What the evictions leave of the source is the source. -/
theorem bytes_of_evict {gone : List FileInfo} {bytes : List UInt8}
    (found : source.bytes (volume.disk.evict gone) = some bytes) :
    source.bytes volume.disk = some bytes ∧
      source.inode (volume.disk.evict gone).entries =
        source.inode volume.disk.entries := by
  obtain ⟨inode, named, stored⟩ := Option.bind_eq_some_iff.1 found
  have before : source.inode volume.disk.entries = some inode := by
    unfold SourceFile.inode at named ⊢
    cases origin : source.origin with
    | inaccessible => simp [origin] at named
    | irregular => simp [origin] at named
    | outside other => simpa [origin] using named
    | inside path =>
        simp only [origin] at named ⊢
        exact Tree.inodeAt_unlinkAll volume.distinct named
  refine ⟨?_, named.trans before.symm⟩
  unfold SourceFile.bytes
  rw [before]
  exact stored

/-- A call that returns has either not begun to copy, and deleted the first of
the files that have to go, or has deleted them all and copied. -/
theorem dmSaveFileToDir_cases {returned : Int × Disk}
    (returns : dmSaveFileToDir system calls volume source maxSizeKb =
      some returned) :
    (returned.1 ≠ dmSuccess ∧
      ∃ deleted, deleted <+: mustGo system volume source maxSizeKb ∧
        returned.2 = volume.disk.evict deleted ∧
        (returned.1 ≠ dmNoSpace → deleted = [])) ∨
    returned = copyFile system calls volume.fresh source
      (volume.disk.evict (mustGo system volume source maxSizeKb)) := by
  -- the calls before the deletions leave the directory as it was
  have refused : ∀ ret : Int, ret ≠ dmSuccess → (ret, volume.disk) = returned →
      returned.1 ≠ dmSuccess ∧
        ∃ deleted, deleted <+: mustGo system volume source maxSizeKb ∧
          returned.2 = volume.disk.evict deleted ∧
          (returned.1 ≠ dmNoSpace → deleted = []) := by
    intro ret fails same
    subst same
    exact ⟨fails, [], List.nil_prefix, rfl, fun _ => rfl⟩
  unfold dmSaveFileToDir at returns
  cases found : source.bytes volume.disk with
  | none =>
      simp only [found, Option.some.injEq] at returns
      exact .inl (refused dmSrcFileError (by decide) returns)
  | some bytes =>
      simp only [found, Option.bind_eq_bind] at returns
      obtain ⟨maxSizeBytes, limit, returns⟩ :=
        Option.bind_eq_some_iff.1 returns
      obtain rfl := eq_of_long limit
      split at returns
      · exact .inl (refused dmFileTooLarge (by decide)
          (Option.some.inj returns))
      rename_i small
      obtain ⟨⟨ret, list⟩, walked, returns⟩ :=
        Option.bind_eq_some_iff.1 returns
      simp only at returns
      split at returns
      · exact .inl (refused dmError (by decide) (Option.some.inj returns))
      obtain ⟨wanted, sum, returns⟩ := Option.bind_eq_some_iff.1 returns
      obtain rfl := eq_of_long sum
      obtain rfl := collectFiles_list walked
      have sorted := load_perm File.size
        (system.qsort.perm (volume.directory.counted system))
      have gone : mustGo system volume source maxSizeKb =
          victims File.size (maxSizeKb * 1024 - bytes.length)
            (system.qsort.sort (volume.directory.counted system)) := by
        simp [mustGo, found]
      split at returns
      · rename_i exceeds
        obtain ⟨whole, first⟩ := @freeLoop_victims system
          (maxSizeKb * 1024 - bytes.length) volume.directory.entries
          (system.qsort.sort (volume.directory.counted system))
        rw [sorted, ← gone] at whole first
        split at returns
        · obtain rfl := Option.some.inj returns
          exact .inl ⟨by simp [dmNoSpace, dmSuccess], _, first, rfl,
            fun other => absurd rfl other⟩
        · rename_i frees
          right
          rw [← whole (not_not.1 frees)]
          exact (Option.some.inj returns).symm
      · rename_i within
        have light : victims File.size (maxSizeKb * 1024 - bytes.length)
            (system.qsort.sort (volume.directory.counted system)) = [] := by
          refine victims_eq_nil ?_
          dsimp only at within
          rw [sorted]
          omega
        right
        rw [gone, light]
        simpa using returns.symm

/-! ## The copy -/

variable {disk : Disk} {fresh : Inode}

/-- A copy that does not get both its files leaves everything as it is. -/
theorem copyFile_cases :
    ((copyFile system calls fresh source disk).1 ≠ dmSuccess ∧
      (copyFile system calls fresh source disk).2 = disk) ∨
    ∃ opened bytes,
      disk.entries.openAt fresh source.filename = some opened ∧
      source.bytes disk = some bytes ∧
      copyFile system calls fresh source disk =
        copyOpened calls fresh source.filename disk opened
          (source.left fresh disk opened) := by
  unfold copyFile
  split
  · exact .inl ⟨by simp [dmSrcFileError, dmSuccess], rfl⟩
  rename_i readable
  split
  · exact .inl ⟨by simp [dmDstFileError, dmSuccess], rfl⟩
  cases opens : disk.entries.openAt fresh source.filename with
  | none => exact .inl ⟨by simp [dmDstFileError, dmSuccess], rfl⟩
  | some opened =>
      obtain ⟨-, found⟩ := not_or.1 readable
      obtain ⟨bytes, stored⟩ := Option.ne_none_iff_exists'.1 found
      exact .inr ⟨opened, bytes, rfl, stored, rfl⟩

/-- A copy returns no error of the calls before it. -/
theorem copyFile_ret :
    ¬ ((copyFile system calls fresh source disk).1 = dmFileTooLarge ∨
      (copyFile system calls fresh source disk).1 = dmError) := by
  have codes : ∀ ending, ¬ (result ending = dmFileTooLarge ∨
      result ending = dmError) := by
    intro ending
    cases ending <;> decide
  unfold copyFile
  split
  · simp [dmSrcFileError, dmFileTooLarge, dmError]
  split
  · simp [dmDstFileError, dmFileTooLarge, dmError]
  split
  · simp [dmDstFileError, dmFileTooLarge, dmError]
  · unfold copyOpened
    dsimp only
    split
    · exact codes _
    · exact codes _

/-- A copy has written a part of the source, and all of it when it succeeds. -/
theorem copyOpened_cases {filename : String} {opened : Tree.Opened}
    {data : List UInt8} :
    copyOpened calls fresh filename disk opened data =
      (dmSuccess, ⟨opened.entries disk.entries,
        store (opened.inode fresh) data disk.contents⟩) ∨
    (copyOpened calls fresh filename disk opened data).1 ≠ dmSuccess ∧
    ∃ written, written <+: data ∧
      (copyOpened calls fresh filename disk opened data).2 =
        ⟨if calls.unlinkDestination then
            (opened.entries disk.entries).unlink [filename]
          else opened.entries disk.entries,
          store (opened.inode fresh) written disk.contents⟩ := by
  obtain whole | ⟨call, stops⟩ := @Transfers.whole_or_stopsAt
    calls.toTransfers bufferSize data.length
  · exact .inl (copyOpened_of_whole whole)
  · obtain ⟨fails, leaves⟩ := @copyOpened_of_stopsAt calls fresh disk opened
      filename data call stops
    exact .inr ⟨fails, _, List.take_prefix _ _, leaves⟩

theorem source_begins_with_left {opened : Tree.Opened} {bytes : List UInt8}
    (found : source.bytes disk = some bytes) :
    source.left fresh disk opened <+: bytes := by
  rw [left_eq found]
  split
  · exact List.nil_prefix
  · exact List.prefix_rfl

/-- A file that is made for the destination leaves nothing when it is taken
away again. -/
theorem asBefore_of_cleaned {opened : Tree.Opened} {written : List UInt8}
    (opens : volume.disk.entries.openAt volume.fresh source.filename =
      some opened)
    (absent : source.filename ∉ volume.disk.entries.names) :
    AsBefore volume.disk
      ⟨(opened.entries volume.disk.entries).unlink [source.filename],
        store (opened.inode volume.fresh) written volume.disk.contents⟩ := by
  obtain ⟨entries, rfl, made⟩ := Tree.created_of_absent opens absent
  refine ⟨made.unlink, fun inode member => ?_⟩
  have old : inode ≠ volume.fresh := fun same =>
    volume.unused (same ▸ member)
  exact Function.update_of_ne old _ _

/-- A destination that is not the source gets its bytes. -/
theorem bytesAt_copied {gone : List FileInfo} {opened : Tree.Opened}
    {bytes : List UInt8}
    (opens : (volume.disk.evict gone).entries.openAt volume.fresh
      source.filename = some opened)
    (found : source.bytes (volume.disk.evict gone) = some bytes)
    (file : (volume.disk.evict gone).entries.resolve source.filename ≠ .device)
    (apart : (volume.disk.evict gone).entries.fileAt source.filename ≠
      source.inode (volume.disk.evict gone).entries) :
    (Disk.mk (opened.entries (volume.disk.evict gone).entries)
        (store (opened.inode volume.fresh)
          (source.left volume.fresh (volume.disk.evict gone) opened)
          (volume.disk.evict gone).contents)).bytesAt source.filename =
      some bytes := by
  have unshared : ∃ inode, opened.inode volume.fresh = some inode ∧
      some inode ≠ source.inode (volume.disk.evict gone).entries := by
    obtain ⟨inode, rfl, leads, -⟩ | ⟨path, entries, rfl, -, -, -⟩ |
      ⟨-, device⟩ := Tree.openAt_cases opens
    · exact ⟨inode, rfl, leads ▸ apart⟩
    · -- the new file has another inode than the source
      refine ⟨volume.fresh, rfl, fun same => ?_⟩
      rw [SourceFile.bytes, ← same, Option.bind_some] at found
      cases volume.absent.symm.trans found
    · exact absurd device file
  obtain ⟨inode, leads, other⟩ := unshared
  rw [bytesAt_store opens, left_eq found, leads, if_neg other]
  rfl

/-- `dm_save_file_to_dir` saves a source that is not the destination itself,
and on an error it leaves all but the files it has deleted and the
destination. -/
theorem saves_of_returns {returned : Int × Disk}
    (returns : dmSaveFileToDir system calls volume source maxSizeKb =
      some returned) :
    Saves calls volume source (mustGo system volume source maxSizeKb)
      returned := by
  generalize gone : mustGo system volume source maxSizeKb = deleted
  have cases := dmSaveFileToDir_cases returns
  rw [gone] at cases
  obtain ⟨fails, before, first, left, few⟩ | copied := cases
  · refine ⟨fun succeeds => absurd succeeds fails, fun code => ?_,
      fun _ => .refused before first left, fun _ none _ _ => ?_⟩
    · have other : returned.1 ≠ dmNoSpace := by
        rintro same
        rw [same] at code
        exact absurd code (by decide)
      rw [left, few other]
      rfl
    · subst none
      rw [left, List.prefix_nil.1 first]
      exact AsBefore.refl volume.disk
  subst copied
  have early : ∀ {P : Prop},
      (copyFile system calls volume.fresh source
          (volume.disk.evict deleted)).1 = dmFileTooLarge ∨
        (copyFile system calls volume.fresh source
          (volume.disk.evict deleted)).1 = dmError → P :=
    fun code => absurd code copyFile_ret
  obtain ⟨fails, left⟩ | ⟨opened, bytes, opens, found, opening⟩ :=
    @copyFile_cases system calls source (volume.disk.evict deleted)
      volume.fresh
  · refine ⟨fun succeeds => absurd succeeds fails, early,
      fun _ => .refused deleted List.prefix_rfl left, fun _ none _ _ => ?_⟩
    subst none
    rw [left]
    exact AsBefore.refl volume.disk
  rw [opening] at early ⊢
  obtain ⟨original, place⟩ := bytes_of_evict found
  have part := @source_begins_with_left source (volume.disk.evict deleted) volume.fresh
    opened bytes found
  obtain whole | ⟨fails, written, partly, left⟩ :=
    @copyOpened_cases calls (volume.disk.evict deleted) volume.fresh
      source.filename opened
      (source.left volume.fresh (volume.disk.evict deleted) opened)
  · rw [whole] at early ⊢
    refine ⟨fun _ file apart => ?_, early, fun fails => absurd rfl fails,
      fun fails => absurd rfl fails⟩
    rw [← place] at apart
    exact (bytesAt_copied opens found file apart).trans original.symm
  · refine ⟨fun succeeds => absurd succeeds fails, early, fun _ => ?_,
      fun _ none absent cleans => ?_⟩
    · refine .broken opened written opens ?_ ?_ ?_
      · rw [original]
        exact partly.trans part
      · rw [left]
      · rw [left]
        rfl
    · subst none
      rw [left, if_pos cleans]
      exact asBefore_of_cleaned opens absent

/-- The directory has an old file `a` of one kilobyte and a directory `b`. -/
def crowded : Volume where
  isLink := false
  disk := {
    entries := .regular "a" 0 (.directory "b" .nil .nil)
    contents := fun inode =>
      if inode = 0 then some (List.replicate 1024 0)
      else if inode = 1 then some [7]
      else none }
  mtime _ := 0
  fresh := 2
  distinct := ⟨by decide, by decide, trivial, trivial⟩
  unused := by decide
  absent := rfl

/-- The directory has a file `b`. -/
def occupied : Volume where
  isLink := false
  disk := {
    entries := .regular "b" 0 .nil
    contents := fun inode =>
      if inode = 0 then some [5] else if inode = 1 then some [7] else none }
  mtime _ := 0
  fresh := 2
  distinct := ⟨by decide, trivial⟩
  unused := by decide
  absent := rfl

/-- A file `b` of one byte that is not in the directory. -/
def elsewhere : SourceFile where
  filename := "b"
  origin := .outside 1

/-- Reads and an `unlink` that succeed, and writes that take up to the given
number of bytes. -/
def writing (most : Nat) : CopyCalls where
  reads _ := true
  written _ := most
  unlinkDestination := true

/-- The file is saved over another one. -/
theorem saves_elsewhere :
    ∃ returned,
      dmSaveFileToDir calm (writing bufferSize) occupied elsewhere 1 =
        some returned ∧
      returned.2.bytesAt "b" = some [7] := by
  have succeeds : (dmSaveFileToDir calm (writing bufferSize) occupied
      elsewhere 1).map Prod.fst = some dmSuccess := by
    decide +kernel
  obtain ⟨returned, returns, success⟩ := Option.map_eq_some_iff.1 succeeds
  exact ⟨returned, returns, (saves_of_returns returns).faithful success
    (by decide +kernel) (by decide +kernel)⟩

/-- A return with an error and other entries than before is not atomic. -/
theorem not_savesAtomically {after : Tree} {ret : Int}
    (returns : (dmSaveFileToDir system calls volume source maxSizeKb).map
      (fun returned => (returned.1, returned.2.entries)) = some (ret, after))
    (fails : ret ≠ dmSuccess) (changed : after ≠ volume.disk.entries) :
    ¬ SavesAtomically system calls volume source maxSizeKb := by
  intro atomic
  obtain ⟨returned, found, same⟩ := Option.map_eq_some_iff.1 returns
  obtain ⟨rfl, rfl⟩ := Prod.mk.inj same
  exact changed ((atomic returned found).atomic fails).entries

/-- `a` is deleted before the directory `b` turns out to be in the way, and a
write that fails takes the old `b` away. -/
theorem not_savesAtomically_crowded :
    ¬ SavesAtomically calm (writing bufferSize) crowded elsewhere 1 ∧
      ¬ SavesAtomically calm (writing 0) occupied elsewhere 1 := by
  constructor
  · have returns : (dmSaveFileToDir calm (writing bufferSize) crowded
        elsewhere 1).map (fun returned => (returned.1, returned.2.entries)) =
          some (dmDstFileError, .directory "b" .nil .nil) := by
      decide +kernel
    exact not_savesAtomically returns (by decide) (by decide)
  · have returns : (dmSaveFileToDir calm (writing 0) occupied
        elsewhere 1).map (fun returned => (returned.1, returned.2.entries)) =
          some (dmDstFileError, .nil) := by
      decide +kernel
    exact not_savesAtomically returns (by decide) (by decide)

end SavedFiles

end MbedtlsKcp
