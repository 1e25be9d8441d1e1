import Mathlib.Data.List.Nodup
import MbedtlsKcp.PrefixEvictions

/-!
# Directory listings

A directory is the list of its entries, and an entry that is a directory
carries its own.  Regular files are named by the path from the top.
-/

namespace MbedtlsKcp

namespace DirectoryListings

open PrefixEvictions

abbrev Path := List String

/-- The entries of a directory, in the order in which they are read.  What is
neither a regular file nor a directory may be a link: opening it opens the
file at its target, or one outside the listing. -/
inductive Listing
  | nil
  | regular (name : String) (size : Nat) (mtime : Int) (rest : Listing)
  | directory (name : String) (entries rest : Listing)
  | other (name : String) (target : Option Path) (rest : Listing)
  deriving DecidableEq

/-- A regular file of a listing. -/
structure File where
  path : Path
  size : Nat
  mtime : Int
  deriving DecidableEq

namespace Listing

def names : Listing → List String
  | nil => []
  | regular name _ _ rest => name :: rest.names
  | directory name _ rest => name :: rest.names
  | other name _ rest => name :: rest.names

/-- No directory has two entries of one name. -/
def Distinct : Listing → Prop
  | nil => True
  | regular name _ _ rest => name ∉ rest.names ∧ rest.Distinct
  | directory name entries rest =>
      name ∉ rest.names ∧ entries.Distinct ∧ rest.Distinct
  | other name _ rest => name ∉ rest.names ∧ rest.Distinct

instance decidableDistinct : (listing : Listing) → Decidable listing.Distinct
  | nil => isTrue trivial
  | regular _ _ _ rest =>
      have := decidableDistinct rest
      inferInstanceAs (Decidable (_ ∧ _))
  | directory _ entries rest =>
      have := decidableDistinct entries
      have := decidableDistinct rest
      inferInstanceAs (Decidable (_ ∧ _ ∧ _))
  | other _ _ rest =>
      have := decidableDistinct rest
      inferInstanceAs (Decidable (_ ∧ _))

/-- The regular files, with their paths below `path`. -/
def files (path : Path) : Listing → List File
  | nil => []
  | regular name size mtime rest =>
      ⟨path ++ [name], size, mtime⟩ :: rest.files path
  | directory name entries rest =>
      entries.files (path ++ [name]) ++ rest.files path
  | other _ _ rest => rest.files path

/-- The size of all regular files. -/
def total : Listing → Nat
  | nil => 0
  | regular _ size _ rest => size + rest.total
  | directory _ entries rest => entries.total + rest.total
  | other _ _ rest => rest.total

/-- The size of the regular file at a path. -/
def sizeAt (path : Path) : Listing → Option Nat
  | nil => none
  | regular name size _ rest =>
      if path = [name] then some size else rest.sizeAt path
  | directory name entries rest =>
      match path with
      | [] => none
      | first :: below =>
          if first = name then entries.sizeAt below else rest.sizeAt path
  | other name _ rest => if path = [name] then none else rest.sizeAt path

/-- Take away the entry at a path that is not a directory. -/
def unlink (path : Path) : Listing → Listing
  | nil => nil
  | regular name size mtime rest =>
      if path = [name] then rest else regular name size mtime (rest.unlink path)
  | directory name entries rest =>
      match path with
      | [] => directory name entries rest
      | first :: below =>
          if first = name then directory name (entries.unlink below) rest
          else directory name entries (rest.unlink path)
  | other name target rest =>
      if path = [name] then rest else other name target (rest.unlink path)

/-- Give the regular file at a path a new content, or make it; `none` when
there is no directory for it or something else has its name. -/
def write (path : Path) (size : Nat) (mtime : Int) : Listing → Option Listing
  | nil =>
      match path with
      | [name] => some (regular name size mtime nil)
      | _ => none
  | regular name oldSize oldMtime rest =>
      if path = [name] then some (regular name size mtime rest)
      else (rest.write path size mtime).map (regular name oldSize oldMtime)
  | directory name entries rest =>
      match path with
      | [] => none
      | first :: below =>
          if first = name then
            (entries.write below size mtime).map (directory name · rest)
          else (rest.write path size mtime).map (directory name entries)
  | other name target rest =>
      if path = [name] then none
      else (rest.write path size mtime).map (other name target)

/-- The path that is written when a name is opened; `none` for a link out of
the listing. -/
def target (name : String) : Listing → Option Path
  | nil => some [name]
  | regular _ _ _ rest => rest.target name
  | directory _ _ rest => rest.target name
  | other entry link rest => if entry = name then link else rest.target name

theorem load_files (listing : Listing) (path : Path) :
    load File.size (listing.files path) = listing.total := by
  induction listing generalizing path with
  | nil => rfl
  | regular name size mtime rest ih =>
      simp [files, total, ih]
  | directory name entries rest entriesIH restIH =>
      simp [files, total, entriesIH, restIH]
  | other name target rest ih => exact ih path

/-- A file stands below one of the entries. -/
theorem path_of_mem_files {listing : Listing} {path : Path} {file : File}
    (member : file ∈ listing.files path) :
    ∃ name ∈ listing.names, ∃ below, file.path = path ++ name :: below := by
  induction listing generalizing path with
  | nil => cases member
  | regular name size mtime rest ih =>
      simp only [files, List.mem_cons] at member
      obtain rfl | later := member
      · exact ⟨name, by simp [names], [], rfl⟩
      · obtain ⟨other, named, below, same⟩ := ih later
        exact ⟨other, by simp [names, named], below, same⟩
  | directory name entries rest entriesIH restIH =>
      simp only [files, List.mem_append] at member
      obtain inside | later := member
      · obtain ⟨other, -, below, same⟩ := entriesIH inside
        exact ⟨name, by simp [names], other :: below, by simp [same]⟩
      · obtain ⟨other, named, below, same⟩ := restIH later
        exact ⟨other, by simp [names, named], below, same⟩
  | other name target rest ih =>
      obtain ⟨other, named, below, same⟩ := ih member
      exact ⟨other, by simp [names, named], below, same⟩

/-- Below an entry of a name that does not occur there is no file. -/
theorem path_ne_of_not_mem_names {listing : Listing} {path : Path}
    {file : File} {name : String} (absent : name ∉ listing.names)
    (member : file ∈ listing.files path) (below : Path) :
    file.path ≠ path ++ name :: below := by
  intro same
  obtain ⟨other, named, tail, located⟩ := path_of_mem_files member
  rw [located, List.append_cancel_left_eq, List.cons.injEq] at same
  exact absent (same.1 ▸ named)

theorem nodup_paths {listing : Listing} (distinct : listing.Distinct)
    (path : Path) : ((listing.files path).map File.path).Nodup := by
  induction listing generalizing path with
  | nil => exact List.nodup_nil
  | regular name size mtime rest ih =>
      simp only [files, List.map_cons, List.nodup_cons]
      refine ⟨?_, ih distinct.2 path⟩
      intro twice
      obtain ⟨file, member, same⟩ := List.mem_map.1 twice
      exact path_ne_of_not_mem_names distinct.1 member [] same
  | directory name entries rest entriesIH restIH =>
      simp only [files, List.map_append]
      refine List.Nodup.append (entriesIH distinct.2.1 _)
        (restIH distinct.2.2 path) ?_
      intro shared first second
      obtain ⟨inner, innerMember, rfl⟩ := List.mem_map.1 first
      obtain ⟨outer, outerMember, same⟩ := List.mem_map.1 second
      obtain ⟨entry, -, below, located⟩ := path_of_mem_files innerMember
      refine path_ne_of_not_mem_names distinct.1 outerMember (entry :: below) ?_
      rw [same, located]
      simp
  | other name target rest ih => exact ih distinct.2 path

theorem names_unlink (path : Path) (listing : Listing) :
    (listing.unlink path).names ⊆ listing.names := by
  induction listing with
  | nil => simp [unlink]
  | regular name size mtime rest ih =>
      simp only [unlink]
      split
      · simp [names]
      · exact List.cons_subset_cons name ih
  | directory name entries rest entriesIH restIH =>
      cases path with
      | nil => simp [unlink]
      | cons first below =>
          simp only [unlink]
          split
          · simp [names]
          · exact List.cons_subset_cons name restIH
  | other name target rest ih =>
      simp only [unlink]
      split
      · simp [names]
      · exact List.cons_subset_cons name ih

theorem distinct_unlink {listing : Listing} (distinct : listing.Distinct)
    (path : Path) : (listing.unlink path).Distinct := by
  induction listing generalizing path with
  | nil => trivial
  | regular name size mtime rest ih =>
      simp only [unlink]
      split
      · exact distinct.2
      · exact ⟨fun named => distinct.1 (names_unlink path rest named),
          ih distinct.2 path⟩
  | directory name entries rest entriesIH restIH =>
      cases path with
      | nil => exact distinct
      | cons first below =>
          simp only [unlink]
          split
          · exact ⟨distinct.1, entriesIH distinct.2.1 below, distinct.2.2⟩
          · exact ⟨fun named => distinct.1 (names_unlink _ rest named),
              distinct.2.1, restIH distinct.2.2 _⟩
  | other name target rest ih =>
      simp only [unlink]
      split
      · exact distinct.2
      · exact ⟨fun named => distinct.1 (names_unlink path rest named),
          ih distinct.2 path⟩

/-- Only the file at the path goes. -/
theorem files_unlink {listing : Listing} (distinct : listing.Distinct)
    (path below : Path) :
    (listing.unlink below).files path =
      (listing.files path).filter fun file => file.path ≠ path ++ below := by
  induction listing generalizing path below with
  | nil => rfl
  | regular name size mtime rest ih =>
      simp only [unlink]
      split
      · rename_i same
        subst same
        -- the other files have other names
        have kept : (rest.files path).filter (fun file =>
            file.path ≠ path ++ [name]) = rest.files path := by
          refine List.filter_eq_self.2 fun file member => ?_
          simpa using path_ne_of_not_mem_names distinct.1 member []
        simpa [files] using kept.symm
      · rename_i other
        have apart : [name] ≠ below := fun same => other same.symm
        simp [files, ih distinct.2 path below, apart]
  | directory name entries rest entriesIH restIH =>
      cases below with
      | nil =>
          have kept : ((directory name entries rest).files path).filter
              (fun file => file.path ≠ path ++ []) =
                (directory name entries rest).files path := by
            refine List.filter_eq_self.2 fun file member => ?_
            obtain ⟨entry, -, tail, located⟩ := path_of_mem_files member
            simp [located]
          exact kept.symm
      | cons first below =>
          simp only [unlink]
          split
          · rename_i same
            subst same
            have kept : (rest.files path).filter (fun file =>
                file.path ≠ path ++ first :: below) = rest.files path := by
              refine List.filter_eq_self.2 fun file member => ?_
              simpa using path_ne_of_not_mem_names distinct.1 member below
            simp only [files, List.filter_append, kept,
              entriesIH distinct.2.1 (path ++ [first]) below,
              List.append_assoc, List.singleton_append]
          · rename_i other
            have kept : (entries.files (path ++ [name])).filter (fun file =>
                file.path ≠ path ++ first :: below) =
                  entries.files (path ++ [name]) := by
              refine List.filter_eq_self.2 fun file member => ?_
              obtain ⟨entry, -, tail, located⟩ := path_of_mem_files member
              have apart : name ≠ first := fun same => other same.symm
              simp [located, apart]
            simp only [files, List.filter_append, kept,
              restIH distinct.2.2 path (first :: below)]
  | other name target rest ih =>
      simp only [unlink]
      split
      · rename_i same
        subst same
        have kept : (rest.files path).filter (fun file =>
            file.path ≠ path ++ [name]) = rest.files path := by
          refine List.filter_eq_self.2 fun file member => ?_
          simpa using path_ne_of_not_mem_names distinct.1 member []
        exact kept.symm
      · exact ih distinct.2 path below

/-- Taking one file away leaves the others. -/
theorem files_unlink_perm {listing : Listing} (distinct : listing.Distinct)
    {file : File} {others : List File}
    (split : (listing.files []).Perm (file :: others)) :
    ((listing.unlink file.path).files []).Perm others := by
  have nodup : ((file :: others).map File.path).Nodup :=
    (split.map File.path).nodup_iff.1 (nodup_paths distinct [])
  rw [List.map_cons, List.nodup_cons] at nodup
  have kept : others.filter (fun other => other.path ≠ file.path) = others := by
    refine List.filter_eq_self.2 fun other member => ?_
    have apart : other.path ≠ file.path := fun same =>
      nodup.1 (same ▸ List.mem_map_of_mem member)
    simpa using apart
  rw [files_unlink distinct, List.nil_append]
  have filtered := split.filter fun other => decide (other.path ≠ file.path)
  rw [List.filter_cons_of_neg (by simp), kept] at filtered
  exact filtered

/-- Take away the files of a list one after the other. -/
def unlinkAll (gone : List File) (listing : Listing) : Listing :=
  gone.foldl (fun listing file => listing.unlink file.path) listing

theorem files_unlinkAll_perm {listing : Listing} (distinct : listing.Distinct)
    {gone kept : List File}
    (split : (listing.files []).Perm (gone ++ kept)) :
    ((listing.unlinkAll gone).files []).Perm kept := by
  induction gone generalizing listing with
  | nil => exact split
  | cons file gone ih =>
      exact ih (distinct_unlink distinct _) (files_unlink_perm distinct split)

theorem distinct_unlinkAll {listing : Listing} (distinct : listing.Distinct)
    (gone : List File) : (listing.unlinkAll gone).Distinct := by
  induction gone generalizing listing with
  | nil => exact distinct
  | cons file gone ih => exact ih (distinct_unlink distinct _)

theorem total_unlinkAll {listing : Listing} (distinct : listing.Distinct)
    {gone kept : List File}
    (split : (listing.files []).Perm (gone ++ kept)) :
    (listing.unlinkAll gone).total = load File.size kept := by
  rw [← load_files _ []]
  exact load_perm _ (files_unlinkAll_perm distinct split)

/-- A written file counts with its new size. -/
theorem total_write {listing after : Listing} {path : Path} {size : Nat}
    {mtime : Int} (written : listing.write path size mtime = some after) :
    after.total + (listing.sizeAt path).getD 0 = listing.total + size := by
  induction listing generalizing path after with
  | nil =>
      cases path with
      | nil => cases written
      | cons name below =>
          cases below with
          | nil =>
              obtain rfl := Option.some.inj written
              simp [total, sizeAt]
          | cons next below => cases written
  | regular name oldSize oldMtime rest ih =>
      simp only [write] at written
      simp only [sizeAt]
      split at written
      · rename_i same
        obtain rfl := Option.some.inj written
        simp only [if_pos same, total, Option.getD_some]
        omega
      · rename_i other
        obtain ⟨later, stored, rfl⟩ := Option.map_eq_some_iff.1 written
        have counted := ih stored
        simp only [if_neg other, total]
        omega
  | directory name entries rest entriesIH restIH =>
      cases path with
      | nil => cases written
      | cons first below =>
          simp only [write] at written
          simp only [sizeAt]
          split at written
          · rename_i same
            obtain ⟨inside, stored, rfl⟩ := Option.map_eq_some_iff.1 written
            have counted := entriesIH stored
            simp only [if_pos same, total]
            omega
          · rename_i other
            obtain ⟨later, stored, rfl⟩ := Option.map_eq_some_iff.1 written
            have counted := restIH stored
            simp only [if_neg other, total]
            omega
  | other name target rest ih =>
      simp only [write] at written
      simp only [sizeAt]
      split at written
      · cases written
      · rename_i apart
        obtain ⟨later, stored, rfl⟩ := Option.map_eq_some_iff.1 written
        simp only [if_neg apart, total]
        exact ih stored

end Listing

end DirectoryListings

end MbedtlsKcp
