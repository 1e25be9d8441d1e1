import MbedtlsKcp.DirectoryListings

/-!
# Trees of files

A regular file of a directory is an inode, so that two names can lead to one
file.  Forgetting the inodes gives a listing.
-/

namespace MbedtlsKcp

namespace FileTrees

open DirectoryListings

abbrev Inode := Nat

/-- What a name that is neither a regular file nor a directory leads to: a path
of the tree, which need not be there, a file elsewhere, or a device. -/
inductive Node
  | inside (path : Path)
  | outside (inode : Inode)
  | device
  deriving DecidableEq

def Node.path : Node → Option Path
  | inside path => some path
  | outside _ => none
  | device => none

/-- The entries of a directory, in the order in which they are read. -/
inductive Tree
  | nil
  | regular (name : String) (inode : Inode) (rest : Tree)
  | directory (name : String) (entries rest : Tree)
  | other (name : String) (node : Node) (rest : Tree)
  deriving DecidableEq

namespace Tree

def names : Tree → List String
  | nil => []
  | regular name _ rest => name :: rest.names
  | directory name _ rest => name :: rest.names
  | other name _ rest => name :: rest.names

/-- The files that the entries lead to. -/
def inodes : Tree → List Inode
  | nil => []
  | regular _ inode rest => inode :: rest.inodes
  | directory _ entries rest => entries.inodes ++ rest.inodes
  | other _ (.outside inode) rest => inode :: rest.inodes
  | other _ _ rest => rest.inodes

/-- The listing of a tree whose files have the given sizes and times. -/
def listing (size : Inode → Nat) (mtime : Inode → Int) : Tree → Listing
  | nil => .nil
  | regular name inode rest =>
      .regular name (size inode) (mtime inode) (rest.listing size mtime)
  | directory name entries rest =>
      .directory name (entries.listing size mtime) (rest.listing size mtime)
  | other name node rest => .other name node.path (rest.listing size mtime)

/-- The regular file at a path. -/
def inodeAt (path : Path) : Tree → Option Inode
  | nil => none
  | regular name inode rest =>
      if path = [name] then some inode else rest.inodeAt path
  | directory name entries rest =>
      match path with
      | [] => none
      | first :: below =>
          if first = name then entries.inodeAt below else rest.inodeAt path
  | other name _ rest => if path = [name] then none else rest.inodeAt path

/-- Take away the entry at a path that is not a directory. -/
def unlink (path : Path) : Tree → Tree
  | nil => nil
  | regular name inode rest =>
      if path = [name] then rest else regular name inode (rest.unlink path)
  | directory name entries rest =>
      match path with
      | [] => directory name entries rest
      | first :: below =>
          if first = name then directory name (entries.unlink below) rest
          else directory name entries (rest.unlink path)
  | other name node rest =>
      if path = [name] then rest else other name node (rest.unlink path)

/-- Make a regular file at a path; `none` when there is no directory for it or
something else has its name. -/
def create (path : Path) (inode : Inode) : Tree → Option Tree
  | nil =>
      match path with
      | [name] => some (regular name inode nil)
      | _ => none
  | regular name old rest =>
      if path = [name] then none
      else (rest.create path inode).map (regular name old)
  | directory name entries rest =>
      match path with
      | [] => none
      | first :: below =>
          if first = name then
            (entries.create below inode).map (directory name · rest)
          else (rest.create path inode).map (directory name entries)
  | other name node rest =>
      if path = [name] then none
      else (rest.create path inode).map (other name node)

/-- What an entry at the top is that is neither a regular file nor a
directory. -/
def nodeAt (name : String) : Tree → Option Node
  | nil => none
  | regular _ _ rest => rest.nodeAt name
  | directory _ _ rest => rest.nodeAt name
  | other entry node rest => if entry = name then some node else rest.nodeAt name

/-- Where a name at the top leads. -/
def resolve (name : String) (tree : Tree) : Node :=
  (tree.nodeAt name).getD (.inside [name])

/-- The file that a name at the top leads to. -/
def fileAt (name : String) (tree : Tree) : Option Inode :=
  match tree.resolve name with
  | .inside path => tree.inodeAt path
  | .outside inode => some inode
  | .device => none

/-- What opening a name at the top for writing gives. -/
inductive Opened
  | file (inode : Inode)
  | created (path : Path) (entries : Tree)
  | device
  deriving DecidableEq

/-- Open a name at the top for writing, with an inode for a new file. -/
def openAt (fresh : Inode) (name : String) (tree : Tree) : Option Opened :=
  match tree.resolve name with
  | .inside path =>
      match tree.inodeAt path with
      | some inode => some (.file inode)
      | none => (tree.create path fresh).map (.created path)
  | .outside inode => some (.file inode)
  | .device => some .device

/-- The entries with what has been opened. -/
def Opened.entries (tree : Tree) : Opened → Tree
  | file _ => tree
  | created _ entries => entries
  | device => tree

/-- The file that has been opened. -/
def Opened.inode (fresh : Inode) : Opened → Option Inode
  | file inode => some inode
  | created _ _ => some fresh
  | device => none

/-- Take away the entries at some paths one after the other. -/
def unlinkAll (gone : List File) (tree : Tree) : Tree :=
  gone.foldl (fun tree file => tree.unlink file.path) tree

section Listings

variable {size : Inode → Nat} {mtime : Inode → Int}

@[simp]
theorem names_listing (tree : Tree) :
    (tree.listing size mtime).names = tree.names := by
  induction tree with
  | nil => rfl
  | regular name inode rest ih => simp [listing, Listing.names, names, ih]
  | directory name entries rest entriesIH restIH =>
      simp [listing, Listing.names, names, restIH]
  | other name node rest ih => simp [listing, Listing.names, names, ih]

theorem listing_unlink (tree : Tree) (path : Path) :
    (tree.unlink path).listing size mtime =
      (tree.listing size mtime).unlink path := by
  induction tree generalizing path with
  | nil => rfl
  | regular name inode rest ih =>
      simp only [unlink, listing, Listing.unlink]
      split
      · rfl
      · simp only [listing, ih]
  | directory name entries rest entriesIH restIH =>
      cases path with
      | nil => rfl
      | cons first below =>
          simp only [unlink, listing, Listing.unlink]
          split
          · simp only [listing, entriesIH]
          · simp only [listing, restIH]
  | other name node rest ih =>
      simp only [unlink, listing, Listing.unlink]
      split
      · rfl
      · simp only [listing, ih]

theorem listing_unlinkAll (gone : List File) (tree : Tree) :
    (tree.unlinkAll gone).listing size mtime =
      (tree.listing size mtime).unlinkAll gone := by
  induction gone generalizing tree with
  | nil => rfl
  | cons file gone ih =>
      refine (ih (tree.unlink file.path)).trans ?_
      rw [listing_unlink]
      rfl

end Listings

/-! ## Making a file and taking it away -/

variable {tree entries : Tree} {path : Path} {fresh : Inode}

/-- `create` puts a file behind the entries that a path passes by. -/
inductive Created (fresh : Inode) : Path → Tree → Tree → Prop
  | here (name : String) : Created fresh [name] nil (regular name fresh nil)
  | regular {path : Path} {name : String} {inode : Inode} {rest later : Tree}
      (apart : path ≠ [name]) (made : Created fresh path rest later) :
      Created fresh path (regular name inode rest) (regular name inode later)
  | inside {below : Path} {name : String} {entries rest later : Tree}
      (made : Created fresh below entries later) :
      Created fresh (name :: below) (directory name entries rest)
        (directory name later rest)
  | directory {first name : String} {below : Path} {entries rest later : Tree}
      (apart : first ≠ name) (made : Created fresh (first :: below) rest later) :
      Created fresh (first :: below) (directory name entries rest)
        (directory name entries later)
  | other {path : Path} {name : String} {node : Node} {rest later : Tree}
      (apart : path ≠ [name]) (made : Created fresh path rest later) :
      Created fresh path (other name node rest) (other name node later)

theorem created_of_create (made : tree.create path fresh = some entries) :
    Created fresh path tree entries := by
  induction tree generalizing path entries with
  | nil =>
      simp only [create] at made
      split at made
      · obtain rfl := Option.some.inj made
        exact .here _
      · cases made
  | regular name inode rest ih =>
      simp only [create] at made
      split at made
      · cases made
      · rename_i apart
        obtain ⟨later, behind, rfl⟩ := Option.map_eq_some_iff.1 made
        exact .regular apart (ih behind)
  | directory name inside rest insideIH restIH =>
      cases path with
      | nil => cases made
      | cons first below =>
          simp only [create] at made
          split at made
          · rename_i same
            obtain ⟨later, behind, rfl⟩ := Option.map_eq_some_iff.1 made
            subst same
            exact .inside (insideIH behind)
          · rename_i apart
            obtain ⟨later, behind, rfl⟩ := Option.map_eq_some_iff.1 made
            exact .directory apart (restIH behind)
  | other name node rest ih =>
      simp only [create] at made
      split at made
      · cases made
      · rename_i apart
        obtain ⟨later, behind, rfl⟩ := Option.map_eq_some_iff.1 made
        exact .other apart (ih behind)

theorem Created.unlink (made : Created fresh path tree entries) :
    entries.unlink path = tree := by
  induction made with
  | here name => simp [Tree.unlink]
  | regular apart made ih => simp only [Tree.unlink, if_neg apart, ih]
  | inside made ih => simp only [Tree.unlink, if_true, ih]
  | directory apart made ih => simp only [Tree.unlink, if_neg apart, ih]
  | other apart made ih => simp only [Tree.unlink, if_neg apart, ih]

theorem Created.inodeAt (made : Created fresh path tree entries) :
    entries.inodeAt path = some fresh := by
  induction made with
  | here name => simp [Tree.inodeAt]
  | regular apart made ih => simp only [Tree.inodeAt, if_neg apart, ih]
  | inside made ih => simp only [Tree.inodeAt, if_true, ih]
  | directory apart made ih => simp only [Tree.inodeAt, if_neg apart, ih]
  | other apart made ih => simp only [Tree.inodeAt, if_neg apart, ih]

/-- A new file is no link. -/
theorem Created.nodeAt (made : Created fresh path tree entries)
    (name : String) : entries.nodeAt name = tree.nodeAt name := by
  induction made with
  | here entry => rfl
  | regular apart made ih => exact ih
  | inside made ih => rfl
  | directory apart made ih => exact ih
  | other apart made ih => simp only [Tree.nodeAt, ih]

/-- Taking another entry away leaves a file. -/
theorem inodeAt_unlink_of_ne {below : Path} (apart : path ≠ below)
    (tree : Tree) : (tree.unlink below).inodeAt path = tree.inodeAt path := by
  induction tree generalizing path below with
  | nil => rfl
  | regular name inode rest ih =>
      simp only [unlink]
      split
      · rename_i same
        subst same
        simp only [inodeAt, if_neg apart]
      · simp only [inodeAt, ih apart]
  | directory name entries rest entriesIH restIH =>
      cases below with
      | nil => rfl
      | cons first below =>
          cases path with
          | nil =>
              simp only [unlink]
              split <;> rfl
          | cons head tail =>
              simp only [unlink]
              split
              · rename_i same
                subst same
                simp only [inodeAt]
                split
                · rename_i same
                  subst same
                  exact entriesIH fun equal => apart (by rw [equal])
                · rfl
              · simp only [inodeAt, restIH apart]
  | other name node rest ih =>
      simp only [unlink]
      split
      · rename_i same
        subst same
        simp only [inodeAt, if_neg apart]
      · simp only [inodeAt, ih apart]

theorem mem_names_of_inodeAt {first : String} {below : Path} {inode : Inode}
    (found : tree.inodeAt (first :: below) = some inode) :
    first ∈ tree.names := by
  induction tree with
  | nil => cases found
  | regular name other rest ih =>
      simp only [inodeAt] at found
      split at found
      · rename_i same
        simp [names, (List.cons.inj same).1]
      · simp [names, ih found]
  | directory name entries rest entriesIH restIH =>
      simp only [inodeAt] at found
      split at found
      · rename_i same
        simp [names, same]
      · simp [names, restIH found]
  | other name node rest ih =>
      simp only [inodeAt] at found
      split at found
      · cases found
      · simp [names, ih found]

section Listings

variable {size : Inode → Nat} {mtime : Inode → Int}

/-- Below a name that does not occur there is no file. -/
theorem inodeAt_of_not_mem_names {first : String} {below : Path}
    (absent : first ∉ (tree.listing size mtime).names) :
    tree.inodeAt (first :: below) = none := by
  rw [names_listing] at absent
  rw [Option.eq_none_iff_forall_not_mem]
  intro inode found
  exact absent (mem_names_of_inodeAt found)

/-- A file that has been taken away is no longer there. -/
theorem inodeAt_unlink (distinct : (tree.listing size mtime).Distinct) :
    (tree.unlink path).inodeAt path = none := by
  induction tree generalizing path with
  | nil => rfl
  | regular name inode rest ih =>
      simp only [unlink]
      split
      · rename_i same
        subst same
        exact inodeAt_of_not_mem_names distinct.1
      · rename_i apart
        simp only [inodeAt, if_neg apart, ih distinct.2]
  | directory name entries rest entriesIH restIH =>
      cases path with
      | nil => rfl
      | cons first below =>
          simp only [unlink]
          split
          · rename_i same
            simp only [inodeAt, if_pos same, entriesIH distinct.2.1]
          · rename_i apart
            simp only [inodeAt, if_neg apart, restIH distinct.2.2]
  | other name node rest ih =>
      simp only [unlink]
      split
      · rename_i same
        subst same
        exact inodeAt_of_not_mem_names distinct.1
      · rename_i apart
        simp only [inodeAt, if_neg apart, ih distinct.2]

theorem distinct_unlink (distinct : (tree.listing size mtime).Distinct)
    (path : Path) : ((tree.unlink path).listing size mtime).Distinct := by
  rw [listing_unlink]
  exact Listing.distinct_unlink distinct path

theorem distinct_unlinkAll (distinct : (tree.listing size mtime).Distinct)
    (gone : List File) : ((tree.unlinkAll gone).listing size mtime).Distinct := by
  rw [listing_unlinkAll]
  exact Listing.distinct_unlinkAll distinct gone

/-- What is left is where it was. -/
theorem inodeAt_unlinkAll (distinct : (tree.listing size mtime).Distinct)
    {gone : List File} {inode : Inode}
    (found : (tree.unlinkAll gone).inodeAt path = some inode) :
    tree.inodeAt path = some inode := by
  induction gone generalizing tree with
  | nil => exact found
  | cons file gone ih =>
      have kept := ih (distinct_unlink distinct file.path) found
      by_cases same : path = file.path
      · subst same
        rw [inodeAt_unlink distinct] at kept
        cases kept
      · rwa [inodeAt_unlink_of_ne same] at kept

end Listings

theorem mem_inodes_of_inodeAt {inode : Inode}
    (found : tree.inodeAt path = some inode) : inode ∈ tree.inodes := by
  induction tree generalizing path with
  | nil => cases found
  | regular name other rest ih =>
      simp only [inodeAt] at found
      split at found
      · simp [inodes, Option.some.inj found]
      · simp [inodes, ih found]
  | directory name entries rest entriesIH restIH =>
      cases path with
      | nil => cases found
      | cons first below =>
          simp only [inodeAt] at found
          split at found
          · simp [inodes, entriesIH found]
          · simp [inodes, restIH found]
  | other name node rest ih =>
      simp only [inodeAt] at found
      split at found
      · cases found
      · cases node with
        | inside target => exact ih found
        | outside inode => simp [inodes, ih found]
        | device => exact ih found

theorem mem_inodes_of_nodeAt {inode : Inode} {name : String}
    (found : tree.nodeAt name = some (.outside inode)) :
    inode ∈ tree.inodes := by
  induction tree with
  | nil => cases found
  | regular entry other rest ih => simp [inodes, ih found]
  | directory entry entries rest entriesIH restIH =>
      simp [inodes, restIH found]
  | other entry node rest ih =>
      simp only [nodeAt] at found
      split at found
      · obtain rfl := Option.some.inj found
        simp [inodes]
      · cases node with
        | inside target => exact ih found
        | outside inode => simp [inodes, ih found]
        | device => exact ih found

theorem mem_names_of_nodeAt {name : String} {node : Node}
    (found : tree.nodeAt name = some node) : name ∈ tree.names := by
  induction tree with
  | nil => cases found
  | regular entry inode rest ih => simp [names, ih found]
  | directory entry entries rest entriesIH restIH => simp [names, restIH found]
  | other entry other rest ih =>
      simp only [nodeAt] at found
      split at found
      · rename_i same
        simp [names, same]
      · simp [names, ih found]

/-! ## Opening a name -/

variable {name : String} {opened : Opened}

theorem openAt_cases (opens : tree.openAt fresh name = some opened) :
    (∃ inode, opened = .file inode ∧ tree.fileAt name = some inode ∧
      inode ∈ tree.inodes) ∨
    (∃ path entries, opened = .created path entries ∧
      tree.resolve name = .inside path ∧ tree.inodeAt path = none ∧
      Created fresh path tree entries) ∨
    (opened = .device ∧ tree.resolve name = .device) := by
  unfold openAt at opens
  unfold fileAt
  cases place : tree.resolve name with
  | inside path =>
      simp only [place] at opens
      cases found : tree.inodeAt path with
      | some inode =>
          rw [found] at opens
          obtain rfl := Option.some.inj opens
          exact .inl ⟨inode, rfl, found, mem_inodes_of_inodeAt found⟩
      | none =>
          rw [found] at opens
          obtain ⟨entries, made, rfl⟩ := Option.map_eq_some_iff.1 opens
          exact .inr (.inl ⟨path, entries, rfl, rfl, found,
            created_of_create made⟩)
  | outside inode =>
      simp only [place] at opens
      obtain rfl := Option.some.inj opens
      refine .inl ⟨inode, rfl, rfl, ?_⟩
      unfold resolve at place
      cases link : tree.nodeAt name with
      | none => simp [link] at place
      | some node =>
          rw [link, Option.getD_some] at place
          subst place
          exact mem_inodes_of_nodeAt link
  | device =>
      simp only [place] at opens
      obtain rfl := Option.some.inj opens
      exact .inr (.inr ⟨rfl, rfl⟩)

/-- A name that no entry has is opened as a new file at the top. -/
theorem created_of_absent (opens : tree.openAt fresh name = some opened)
    (absent : name ∉ tree.names) :
    ∃ entries, opened = .created [name] entries ∧
      Created fresh [name] tree entries := by
  have link : tree.nodeAt name = none := by
    rw [Option.eq_none_iff_forall_not_mem]
    intro node found
    exact absent (mem_names_of_nodeAt found)
  have file : tree.inodeAt [name] = none := by
    rw [Option.eq_none_iff_forall_not_mem]
    intro inode found
    exact absent (mem_names_of_inodeAt found)
  have place : tree.resolve name = .inside [name] := by
    rw [resolve, link, Option.getD_none]
  simp only [openAt, place, file] at opens
  obtain ⟨entries, made, rfl⟩ := Option.map_eq_some_iff.1 opens
  exact ⟨entries, rfl, created_of_create made⟩

/-- What has been opened is where the name leads afterwards. -/
theorem fileAt_opened (opens : tree.openAt fresh name = some opened) :
    (opened.entries tree).fileAt name = opened.inode fresh := by
  obtain ⟨inode, rfl, found, -⟩ | ⟨path, entries, rfl, place, -, made⟩ |
    ⟨rfl, place⟩ := openAt_cases opens
  · exact found
  · have kept : entries.resolve name = .inside path := by
      unfold resolve
      rw [made.nodeAt]
      exact place
    simp only [Opened.entries, Opened.inode, fileAt, kept, made.inodeAt]
  · simp only [Opened.entries, Opened.inode, fileAt, place]

end Tree

end FileTrees

end MbedtlsKcp
