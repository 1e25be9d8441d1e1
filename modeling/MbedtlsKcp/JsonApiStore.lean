import MbedtlsKcp.JsonApi
import Mathlib.Algebra.Order.Ring.Nat

/-!
# Dotted paths as keys of a store

What a successful `lds_json_set` does to a tree: the node at the path is
changed, or a new one is added under the objects that lead to it.  Either way
every other path reads as before.  A value set is the value read, except that a
boolean node made by the library does not carry its value where the getter
looks for it.
-/

namespace MbedtlsKcp

namespace JsonApi

open CJson

/-! ## Paths of non-empty components -/

/-- A component of a dotted path. -/
def IsName (name : Text) : Prop :=
  name ≠ [] ∧ dot ∉ name

/-- Components joined by dots. -/
def dotted : List Text → Text
  | [] => []
  | [name] => name
  | name :: next :: names => name ++ dot :: dotted (next :: names)

/-- Components with the offsets at which they start. -/
def offsets : Nat → List Text → List (Nat × Text)
  | _, [] => []
  | offset, name :: names =>
      (offset, name) :: offsets (offset + name.length + 1) names

theorem map_snd_offsets (offset : Nat) (names : List Text) :
    (offsets offset names).map Prod.snd = names := by
  induction names generalizing offset with
  | nil => rfl
  | cons name names ih => rw [offsets, List.map_cons, ih]

theorem offsets_append (offset : Nat) (first second : List Text) :
    offsets offset (first ++ second) =
      offsets offset first ++
        offsets (offset + (first.map fun name => name.length + 1).sum)
          second := by
  induction first generalizing offset with
  | nil => simp [offsets]
  | cons name first ih =>
      rw [List.cons_append, offsets, ih, offsets, List.cons_append,
        List.map_cons, List.sum_cons]
      congr 3
      omega

theorem offsets_lt {offset : Nat} {names : List Text} :
    ∀ entry ∈ offsets offset names,
      entry.1 < offset + (names.map fun name => name.length + 1).sum := by
  induction names generalizing offset with
  | nil => simp [offsets]
  | cons name names ih =>
      intro entry member
      rw [List.map_cons, List.sum_cons]
      rcases List.mem_cons.mp member with rfl | later
      · dsimp only
        omega
      · have := ih entry later
        omega

theorem dropWhile_name {name : Text} (named : IsName name) (rest : Text) :
    (name ++ rest).dropWhile (· = dot) = name ++ rest := by
  cases name with
  | nil => exact absurd rfl named.1
  | cons byte name =>
      have notDot : byte ≠ dot := by
        rintro rfl
        exact named.2 List.mem_cons_self
      rw [List.cons_append, List.dropWhile_cons_of_neg (by simpa using notDot)]

/-- The token a component starts, and what follows it. -/
theorem split_name {name : Text} (named : IsName name) (rest : Text) :
    (name ++ rest).takeWhile (· ≠ dot) = name ++ rest.takeWhile (· ≠ dot) ∧
      (name ++ rest).dropWhile (· ≠ dot) = rest.dropWhile (· ≠ dot) := by
  have clear : ∀ byte ∈ name, decide (byte ≠ dot) = true := by
    intro byte member
    rw [decide_eq_true_iff]
    rintro rfl
    exact named.2 member
  exact ⟨List.takeWhile_append_of_pos clear, List.dropWhile_append_of_pos clear⟩

/-- A component before the end of the path or a dot is one token. -/
theorem tokens_cons {name rest : Text} (offset : Nat) (named : IsName name)
    (stops : rest.takeWhile (· ≠ dot) = []) :
    tokens offset (name ++ rest) =
      (offset, name) :: tokens (offset + name.length + 1) (rest.drop 1) := by
  have start := dropWhile_name named rest
  obtain ⟨token, following⟩ := split_name named rest
  have some : name ++ rest ≠ [] := by
    simp [named.1]
  have whole : rest.dropWhile (· ≠ dot) = rest := by
    have split := List.takeWhile_append_dropWhile (p := (· ≠ dot)) (l := rest)
    rwa [stops, List.nil_append] at split
  rw [stops, List.append_nil] at token
  rw [whole] at following
  rw [tokens]
  simp only [start, dif_neg some, Nat.sub_self, Nat.add_zero, token, following]

theorem tokens_nil (offset : Nat) : tokens offset [] = [] := by
  rw [tokens]
  rfl

/-- A component at the end of a path is its last token. -/
theorem tokens_name {name : Text} (offset : Nat) (named : IsName name) :
    tokens offset name = [(offset, name)] := by
  have whole : tokens offset (name ++ []) = _ := tokens_cons offset named rfl
  rwa [List.append_nil, List.drop_nil, tokens_nil] at whole

/-- A component before a dot is the first token. -/
theorem tokens_name_append {name : Text} (offset : Nat) (named : IsName name)
    (rest : Text) :
    tokens offset (name ++ dot :: rest) =
      (offset, name) :: tokens (offset + name.length + 1) rest :=
  tokens_cons offset named (List.takeWhile_cons_of_neg (by simp))

/-- Tokenising a dotted path gives back its components, each where it
starts. -/
theorem tokens_dotted {names : List Text} (offset : Nat)
    (named : ∀ name ∈ names, IsName name) :
    tokens offset (dotted names) = offsets offset names := by
  induction names generalizing offset with
  | nil => exact tokens_nil offset
  | cons name names ih =>
      have first := named name List.mem_cons_self
      have later := ih (offset + name.length + 1) fun other member =>
        named other (List.mem_cons_of_mem _ member)
      cases names with
      | nil => exact tokens_name offset first
      | cons next names =>
          rw [dotted, tokens_name_append offset first, later]
          rfl

/-- The last dot of a dotted path stands before its last component. -/
theorem lastDelim_append_cons (before after : Text) (clear : dot ∉ after) :
    lastDelim (before ++ dot :: after) = some before.length := by
  have none : lastDelim after = none := by
    induction after with
    | nil => rfl
    | cons byte after ih =>
        rw [List.mem_cons, not_or] at clear
        rw [lastDelim, ih clear.2]
        exact if_neg (Ne.symm clear.1)
  induction before with
  | nil =>
      rw [List.nil_append, lastDelim, none]
      exact if_pos rfl
  | cons byte before ih => rw [List.cons_append, lastDelim, ih, List.length_cons]

theorem lastDelim_clear {name : Text} (clear : dot ∉ name) :
    lastDelim name = none := by
  induction name with
  | nil => rfl
  | cons byte name ih =>
      rw [List.mem_cons, not_or] at clear
      rw [lastDelim, ih clear.2]
      exact if_neg (Ne.symm clear.1)

theorem dotted_append {first : List Text} (nonempty : first ≠ [])
    (last : Text) :
    dotted (first ++ [last]) = dotted first ++ dot :: last := by
  induction first with
  | nil => exact absurd rfl nonempty
  | cons name first ih =>
      cases first with
      | nil => rfl
      | cons next first =>
          rw [List.cons_append, List.cons_append, dotted, ← List.cons_append,
            ih (by simp), dotted, List.append_assoc, List.cons_append]

theorem length_dotted {names : List Text} (nonempty : names ≠ []) :
    (dotted names).length + 1 =
      (names.map fun name => name.length + 1).sum := by
  induction names with
  | nil => exact absurd rfl nonempty
  | cons name names ih =>
      cases names with
      | nil => simp [dotted]
      | cons next names =>
          rw [dotted, List.length_append, List.length_cons, List.map_cons,
            List.sum_cons, ← ih (by simp)]
          omega

/-! ## What setting does to the tree -/

/-- The tree with `leaf` added where `names` lead, objects being made on the
way. -/
def insertAt (leaf : Node) : Node → List Text → Node
  | node, [] => node
  | node, [q] => addItemToObject node q leaf
  | node, q :: next :: rest =>
      match getObjectItem node q with
      | some obj => setObjectItem node q (insertAt leaf obj (next :: rest))
      | none =>
          addItemToObject node q (insertAt leaf createObject (next :: rest))

theorem updateAt_add {node made : Node} {q : Text} (change : Node → Node)
    (rest : List Text) (absent : getObjectItem node q = none) :
    updateAt change (addItemToObject node q made) (q :: rest) =
      addItemToObject node q (updateAt change made rest) := by
  rw [updateAt, getObjectItem_add_same absent]
  exact setObjectItem_add made _ absent

theorem updateAt_set {node made : Node} {q : Text} (change : Node → Node)
    (rest : List Text) (present : getObjectItem node q ≠ none) :
    updateAt change (setObjectItem node q made) (q :: rest) =
      setObjectItem node q (updateAt change made rest) := by
  rw [updateAt, getObjectItem_set_same present]
  exact setObjectItem_set node q made _

/-- When the loop of `XjsonNewParent` finds or makes a parent, adding an item
to it adds the item at the path. -/
theorem newParentLoop_insertAt {limit : Nat} {last : Text} (leaf : Node)
    {entries : List (Nat × Text)}
    (before : ∀ entry ∈ entries, entry.1 ≠ limit) {new : Bool} {node : Node}
    (fresh : new = true → node.child = []) {found : List Text × Text}
    (finds : (newParentLoop limit new node
      (entries ++ [(limit, last)])).2 = some found) :
    found = (entries.map Prod.snd, last) ∧
      updateAt (fun parent => addItemToObject parent last leaf)
        (newParentLoop limit new node (entries ++ [(limit, last)])).1 found.1 =
          insertAt leaf node (entries.map Prod.snd ++ [last]) := by
  induction entries generalizing new node found with
  | nil =>
      rw [List.nil_append, newParentLoop, if_pos rfl] at finds ⊢
      obtain rfl := Option.some.inj finds
      exact ⟨rfl, rfl⟩
  | cons entry entries ih =>
      obtain ⟨offset, q⟩ := entry
      have other : offset ≠ limit := before _ List.mem_cons_self
      have later : ∀ entry ∈ entries, entry.1 ≠ limit := fun entry member =>
        before entry (List.mem_cons_of_mem _ member)
      have same : existingObject new node q = getObjectItem node q := by
        cases new with
        | false => rfl
        | true => rw [getObjectItem, fresh rfl]; rfl
      rw [List.cons_append, newParentLoop, if_neg other, same] at finds ⊢
      rw [List.map_cons, List.cons_append]
      obtain ⟨next, rest, path⟩ : ∃ next rest,
          entries.map Prod.snd ++ [last] = next :: rest :=
        List.exists_cons_of_ne_nil (by simp)
      cases item : getObjectItem node q with
      | none =>
          rw [item] at finds
          obtain ⟨inner, innerFinds, rfl⟩ := Option.map_eq_some_iff.mp finds
          obtain ⟨names, tree⟩ := ih later (fun _ => rfl) innerFinds
          refine ⟨by rw [names], ?_⟩
          dsimp only
          rw [updateAt_add _ _ item, tree, path, insertAt, item]
      | some obj =>
          rw [item] at finds
          dsimp only at finds ⊢
          by_cases refused : obj.kind ≠ .object ∨ obj.isReference = true ∨
              obj.stringIsConst = true
          · rw [if_pos refused] at finds
            cases finds
          · rw [if_neg refused] at finds ⊢
            obtain ⟨inner, innerFinds, rfl⟩ := Option.map_eq_some_iff.mp finds
            have old : false = true → obj.child = [] := nofun
            obtain ⟨names, tree⟩ := ih later old innerFinds
            have present : getObjectItem node q ≠ none := by
              rw [item]
              simp
            refine ⟨by rw [names], ?_⟩
            dsimp only
            rw [updateAt_set _ _ present, tree, path, insertAt, item]

theorem walk_cons (node : Node) (q : Text) (rest : List Text) :
    walk node (q :: rest) =
      (getObjectItem node q).bind fun obj => walk obj rest := by
  rw [walk]
  cases getObjectItem node q with
  | none => rfl
  | some obj => rfl

theorem walk_updateAt {change : Node → Node} {node found : Node}
    {names : List Text} (leads : walk node names = some found) :
    walk (updateAt change node names) names = some (change found) := by
  induction names generalizing node with
  | nil =>
      obtain rfl := Option.some.inj leads
      rfl
  | cons q rest ih =>
      rw [walk_cons, Option.bind_eq_some_iff] at leads
      obtain ⟨obj, item, leads⟩ := leads
      rw [updateAt, item]
      dsimp only
      rw [walk_cons, getObjectItem_set_same (by simp [item]), Option.bind_some,
        ih leads]

theorem walk_insertAt {leaf node : Node} {names : List Text}
    (nonempty : names ≠ []) (absent : walk node names = none) :
    walk (insertAt leaf node names) names = some leaf := by
  induction names generalizing node with
  | nil => exact absurd rfl nonempty
  | cons q rest ih =>
      rw [walk_cons] at absent
      cases rest with
      | nil =>
          have unnamed : getObjectItem node q = none := by
            cases item : getObjectItem node q with
            | none => rfl
            | some obj => simp [item, walk] at absent
          rw [insertAt, walk_cons, getObjectItem_add_same unnamed]
          rfl
      | cons next rest =>
          rw [insertAt]
          cases item : getObjectItem node q with
          | none =>
              dsimp only
              rw [walk_cons, getObjectItem_add_same item, Option.bind_some]
              exact ih (by simp) rfl
          | some obj =>
              rw [item, Option.bind_some] at absent
              dsimp only
              rw [walk_cons, getObjectItem_set_same (by simp [item]),
                Option.bind_some]
              exact ih (by simp) absent

/-- Neither path leads through the other, letter case aside. -/
def Apart (names other : List Text) : Prop :=
  ¬ names.map foldCase <+: other.map foldCase ∧
    ¬ other.map foldCase <+: names.map foldCase

theorem Apart.tail {q q' : Text} {names other : List Text}
    (apart : Apart (q :: names) (q' :: other)) (same : foldCase q' = foldCase q) :
    Apart names other := by
  constructor
  · intro leads
    apply apart.1
    rw [List.map_cons, List.map_cons, same]
    exact List.cons_prefix_cons.mpr ⟨rfl, leads⟩
  · intro leads
    apply apart.2
    rw [List.map_cons, List.map_cons, same]
    exact List.cons_prefix_cons.mpr ⟨rfl, leads⟩

theorem getObjectItem_congr {key other : Text}
    (same : foldCase other = foldCase key) (object : Node) :
    getObjectItem object other = getObjectItem object key := by
  rw [getObjectItem, getObjectItem, same]

/-- A node off the changed path is where it was. -/
theorem walk_updateAt_apart {change : Node → Node} {node : Node}
    {names other : List Text} (apart : Apart names other) :
    walk (updateAt change node names) other = walk node other := by
  induction names generalizing node other with
  | nil => exact absurd List.nil_prefix apart.1
  | cons q rest ih =>
      cases other with
      | nil => exact absurd List.nil_prefix apart.2
      | cons q' others =>
          rw [updateAt]
          cases item : getObjectItem node q with
          | none => rfl
          | some obj =>
              dsimp only
              rw [walk_cons, walk_cons]
              by_cases same : foldCase q' = foldCase q
              · rw [getObjectItem_congr same, getObjectItem_congr same,
                  getObjectItem_set_same (by simp [item]), item,
                  Option.bind_some, Option.bind_some, ih (apart.tail same)]
              · rw [getObjectItem_set_other same]

/-- A node off the new path stays where it was. -/
theorem walk_insertAt_apart {leaf node found : Node} {names other : List Text}
    (apart : Apart names other) (leads : walk node other = some found) :
    walk (insertAt leaf node names) other = some found := by
  induction names generalizing node other with
  | nil => exact absurd List.nil_prefix apart.1
  | cons q rest ih =>
      cases other with
      | nil => exact absurd List.nil_prefix apart.2
      | cons q' others =>
          rw [walk_cons, Option.bind_eq_some_iff] at leads
          obtain ⟨obj', item', leads⟩ := leads
          cases rest with
          | nil =>
              rw [insertAt, walk_cons, getObjectItem_add_present item']
              exact leads
          | cons next rest =>
              rw [insertAt]
              cases item : getObjectItem node q with
              | none =>
                  dsimp only
                  rw [walk_cons, getObjectItem_add_present item']
                  exact leads
              | some obj =>
                  dsimp only
                  rw [walk_cons]
                  by_cases same : foldCase q' = foldCase q
                  · rw [getObjectItem_congr same, item] at item'
                    obtain rfl := Option.some.inj item'
                    rw [getObjectItem_congr same,
                      getObjectItem_set_same (by simp [item]),
                      Option.bind_some]
                    exact ih (apart.tail same) leads
                  · rw [getObjectItem_set_other same, item']
                    exact leads

/-! ## Setting a value -/

/-- A dotted path of non-empty components that `path_copy` holds. -/
structure DottedPath where
  names : List Text
  nonempty : names ≠ []
  named : ∀ name ∈ names, IsName name
  short : (dotted names).length < xjsonMaxPathLength

def DottedPath.text (path : DottedPath) : Text :=
  dotted path.names

/-- The names an arbitrary path string is cut into. -/
def pathNames (path : Text) : List Text :=
  (tokens 0 (pathCopy path)).map Prod.snd

theorem DottedPath.pathCopy_text (path : DottedPath) :
    pathCopy path.text = path.text := by
  have short := path.short
  rw [xjsonMaxPathLength] at short
  apply List.take_of_length_le
  rw [DottedPath.text, xjsonMaxPathLength]
  omega

theorem DottedPath.tokens_text (path : DottedPath) :
    tokens 0 (pathCopy path.text) = offsets 0 path.names := by
  rw [path.pathCopy_text]
  exact tokens_dotted 0 path.named

theorem ldsJsonGetObj_eq (root : Node) (path : Text) :
    ldsJsonGetObj root path =
      if pathNames path = [] then none
      else if (walk root (pathNames path)).isSome then some (pathNames path)
      else none :=
  rfl

theorem DottedPath.pathNames_text (path : DottedPath) :
    pathNames path.text = path.names := by
  rw [pathNames, path.tokens_text, map_snd_offsets]

theorem DottedPath.getObj (path : DottedPath) (root : Node) :
    ldsJsonGetObj root path.text =
      if (walk root path.names).isSome then some path.names else none := by
  rw [ldsJsonGetObj_eq, path.pathNames_text, if_neg path.nonempty]

/-- Setting where a node is changes that node. -/
theorem ldsJsonSet_present {root node : Node} {path : DottedPath}
    (leads : walk root path.names = some node) (value : Value) :
    ldsJsonSet root path.text value =
      ((setJsonValue node value).1,
        updateAt (fun _ => (setJsonValue node value).2) root path.names) := by
  rw [ldsJsonSet, path.getObj, leads]
  simp only [Option.isSome_some, if_true, leads]

/-- Adding an item to the parent `XjsonNewParent` returns adds it at the
path. -/
theorem updateAt_newParent {root : Node} {path : DottedPath}
    {found : List Text × Text}
    (finds : (xjsonNewParent root path.text).2 = some found) (leaf : Node) :
    updateAt (fun parent => addItemToObject parent found.2 leaf)
        (xjsonNewParent root path.text).1 found.1 =
      insertAt leaf root path.names := by
  have parts := List.dropLast_concat_getLast path.nonempty
  generalize path.names.dropLast = first at parts
  generalize path.names.getLast path.nonempty = last at parts
  have named : IsName last := by
    apply path.named
    rw [← parts]
    simp
  rw [xjsonNewParent, path.tokens_text, path.pathCopy_text, DottedPath.text,
    ← parts] at finds ⊢
  by_cases single : first = []
  · subst single
    rw [List.nil_append, dotted, lastDelim_clear named.2] at finds ⊢
    obtain rfl := Option.some.inj finds
    rfl
  · rw [dotted_append single, lastDelim_append_cons _ _ named.2] at finds ⊢
    rw [offsets_append, ← length_dotted single, Nat.zero_add] at finds ⊢
    have before : ∀ entry ∈ offsets 0 first,
        entry.1 ≠ (dotted first).length + 1 := by
      intro entry member
      have := offsets_lt entry member
      rw [← length_dotted single] at this
      omega
    have fresh : false = true → root.child = [] := nofun
    obtain ⟨rfl, tree⟩ := newParentLoop_insertAt leaf before fresh finds
    rw [map_snd_offsets] at tree ⊢
    exact tree

/-- Where no node is, a set that succeeds adds one. -/
theorem ldsJsonSet_absent {root : Node} {path : DottedPath} {value : Value}
    (leads : walk root path.names = none)
    (sets : (ldsJsonSet root path.text value).1 = .success) :
    (ldsJsonSet root path.text value).2 =
      insertAt (newItem value) root path.names := by
  rw [ldsJsonSet, path.getObj, leads] at sets ⊢
  simp only [Option.isSome_none, Bool.false_eq_true, if_false] at sets ⊢
  cases made : (xjsonNewParent root path.text).2 with
  | none =>
      rw [made] at sets
      cases sets
  | some found =>
      rw [made] at sets
      dsimp only at sets ⊢
      cases parent : walk (xjsonNewParent root path.text).1 found.1 with
      | none =>
          rw [parent] at sets
          cases sets
      | some parent' =>
          rw [parent] at sets
          dsimp only at sets ⊢
          by_cases object : checkValType parent' .obj = true
          · rw [if_pos object]
            exact updateAt_newParent made _
          · rw [if_neg object] at sets
            cases sets

/-! ## The store law -/

/-- A value of one of the types with a setter and a getter; an `int` is in the
range of the C type. -/
inductive Stored where
  | int (value : { value : Int // intMin ≤ value ∧ value ≤ intMax })
  | bool (value : { value : Int // intMin ≤ value ∧ value ≤ intMax })
  | string (value : Text)

/-- `lds_json_set_int`, `lds_json_set_bool` or `lds_json_set_string`. -/
def store (root : Node) (path : Text) : Stored → Ret × Node
  | .int value => ldsJsonSetInt root path value
  | .bool value => ldsJsonSetBool root path value
  | .string value => ldsJsonSetString root path value

/-- The getter of the value's type returns it, a boolean up to being zero or
not. -/
def ReadsBack (root : Node) (path : Text) : Stored → Prop
  | .int value => ldsJsonGetInt root path = .ok value.1
  | .bool value => ∃ read, ldsJsonGetBool root path = .ok read ∧
      (read = 0 ↔ value.1 = 0)
  | .string value => ∀ bufsize, value.length < bufsize →
      ldsJsonGetString root path bufsize = .ok value

/-- What is readable at a path apart from `names` is read the same. -/
def KeepsOthers (names : List Text) (before after : Node) : Prop :=
  ∀ other, Apart names (pathNames other) →
    (∀ value, ldsJsonGetInt before other = .ok value →
        ldsJsonGetInt after other = .ok value) ∧
      (∀ value, ldsJsonGetBool before other = .ok value →
        ldsJsonGetBool after other = .ok value) ∧
      (∀ value, ldsJsonGetDouble before other = .ok value →
        ldsJsonGetDouble after other = .ok value) ∧
      ∀ bufsize value, ldsJsonGetString before other bufsize = .ok value →
        ldsJsonGetString after other bufsize = .ok value

/-- What a successful call leaves: the value at its path, everything else as it
was. -/
def StoreLaw (root : Node) (path : DottedPath) (value : Stored) : Prop :=
  ReadsBack (store root path.text value).2 path.text value ∧
    KeepsOthers path.names root (store root path.text value).2

/-- A true value for a path that leads nowhere yet. -/
def NewTrue (root : Node) (path : DottedPath) (value : Stored) : Prop :=
  walk root path.names = none ∧
    ∃ truth, value = .bool truth ∧ truth.1 ≠ 0

/-- The value a setter passes on. -/
def Stored.value : Stored → Value
  | .int value => .int value.1
  | .bool value => .boolean value.1
  | .string value => .string value

theorem store_eq (root : Node) (path : Text) (value : Stored) :
    store root path value = ldsJsonSet root path value.value := by
  cases value with
  | int value => rfl
  | bool value => rfl
  | string value => rfl

theorem ldsJsonGet_eq {root node : Node} {path : Text}
    (cut : pathNames path ≠ []) (leads : walk root (pathNames path) = some node)
    (type : ValType) :
    ldsJsonGet root path type =
      if checkValType node type then .ok node else .error .errorDataType := by
  rw [ldsJsonGet, ldsJsonGetObj_eq, if_neg cut, leads]
  simp only [Option.isSome_some, if_true, leads]

/-- A getter that succeeds has found a node. -/
theorem walk_of_ldsJsonGet {root node : Node} {path : Text} {type : ValType}
    (reads : ldsJsonGet root path type = .ok node) :
    pathNames path ≠ [] ∧ walk root (pathNames path) = some node ∧
      checkValType node type = true := by
  rw [ldsJsonGet, ldsJsonGetObj_eq] at reads
  by_cases empty : pathNames path = []
  · rw [if_pos empty] at reads
    cases reads
  · rw [if_neg empty] at reads
    cases leads : walk root (pathNames path) with
    | none =>
        rw [leads] at reads
        cases reads
    | some found =>
        rw [leads] at reads
        simp only [Option.isSome_some, if_true, leads] at reads
        by_cases fits : checkValType found type = true
        · rw [if_pos fits] at reads
          cases reads
          exact ⟨empty, rfl, fits⟩
        · rw [if_neg fits] at reads
          cases reads

theorem ldsJsonGet_of_walk {before after node : Node} {other : Text}
    {type : ValType}
    (kept : ∀ found, walk before (pathNames other) = some found →
      walk after (pathNames other) = some found)
    (reads : ldsJsonGet before other type = .ok node) :
    ldsJsonGet after other type = .ok node := by
  obtain ⟨cut, leads, fits⟩ := walk_of_ldsJsonGet reads
  rw [ldsJsonGet_eq cut (kept node leads), if_pos fits]

/-- A getter is a reading of the node, so it reads the same from the same
node. -/
theorem map_ldsJsonGet_of_walk {α : Type*} {before after : Node}
    {other : Text} {type : ValType} {read : Node → α} {value : α}
    (kept : ∀ found, walk before (pathNames other) = some found →
      walk after (pathNames other) = some found)
    (reads : (ldsJsonGet before other type).map read = .ok value) :
    (ldsJsonGet after other type).map read = .ok value := by
  cases node : ldsJsonGet before other type with
  | error ret =>
      rw [node] at reads
      cases reads
  | ok found =>
      rw [node] at reads
      rw [ldsJsonGet_of_walk kept node]
      exact reads

theorem keepsOthers_of_walk {names : List Text} {before after : Node}
    (kept : ∀ other, Apart names other → ∀ found,
      walk before other = some found → walk after other = some found) :
    KeepsOthers names before after := by
  intro other apart
  have same := kept (pathNames other) apart
  exact ⟨fun _ => map_ldsJsonGet_of_walk same,
    fun _ => map_ldsJsonGet_of_walk same,
    fun _ => map_ldsJsonGet_of_walk same,
    fun _ _ => map_ldsJsonGet_of_walk same⟩

/-- The node holds the value where the getter of its type looks. -/
def Holds (node : Node) : Stored → Prop
  | .int value => checkValType node .int = true ∧ node.valueint = value.1
  | .bool value => checkValType node .boolean = true ∧
      (node.valueint = 0 ↔ value.1 = 0)
  | .string value => checkValType node .string = true ∧
      node.valuestring.getD [] = value

theorem readsBack_of_holds {root node : Node} {path : DottedPath}
    (leads : walk root path.names = some node) {value : Stored}
    (holds : Holds node value) : ReadsBack root path.text value := by
  have cut : pathNames path.text ≠ [] := by
    rw [path.pathNames_text]
    exact path.nonempty
  rw [← path.pathNames_text] at leads
  cases value with
  | int value =>
      obtain ⟨fits, same⟩ := holds
      rw [ReadsBack, ldsJsonGetInt, ldsJsonGet_eq cut leads, if_pos fits,
        ← same]
      rfl
  | bool value =>
      obtain ⟨fits, same⟩ := holds
      refine ⟨node.valueint, ?_, same⟩
      rw [ldsJsonGetBool, ldsJsonGet_eq cut leads, if_pos fits]
      rfl
  | string value =>
      obtain ⟨fits, same⟩ := holds
      intro bufsize room
      rw [ldsJsonGetString, ldsJsonGet_eq cut leads, if_pos fits]
      change Except.ok (bufferText bufsize (node.valuestring.getD [])) = _
      rw [same, bufferText, List.take_of_length_le (by omega)]

theorem checkValType_of_set {node : Node} {value : Value}
    (sets : (setJsonValue node value).1 = .success) :
    checkValType node value.type = true := by
  rw [setJsonValue.eq_def] at sets
  split at sets
  case isTrue fits => exact fits
  case isFalse => cases sets

/-- A node that takes a value holds it. -/
theorem holds_setJsonValue {node : Node} {value : Stored}
    (sets : (setJsonValue node value.value).1 = .success) :
    Holds (setJsonValue node value.value).2 value := by
  have fits := checkValType_of_set sets
  rw [setJsonValue.eq_def, if_pos fits] at sets ⊢
  cases value with
  | int value =>
      exact ⟨fits, saturate_int value.2.1 value.2.2⟩
  | bool value =>
      refine ⟨?_, Iff.rfl⟩
      simp only [checkValType, isBool, Stored.value]
      split <;> rfl
  | string value =>
      simp only [Stored.value] at sets ⊢
      cases set : setValuestring node value with
      | none =>
          rw [set] at sets
          cases sets
      | some after =>
          rw [setValuestring] at set
          split at set
          case isTrue => cases set
          case isFalse =>
            cases set
            exact ⟨fits, rfl⟩

/-- A new node holds its value unless it is a true boolean. -/
theorem holds_newItem {value : Stored}
    (notTrue : ∀ truth, value = .bool truth → truth.1 = 0) :
    Holds (newItem value.value) value := by
  cases value with
  | int value => exact ⟨rfl, saturate_int value.2.1 value.2.2⟩
  | bool value =>
      have isFalse := notTrue value rfl
      refine ⟨?_, ?_⟩
      · simp only [Stored.value, newItem, checkValType, isBool, createBool,
          isFalse]
        rfl
      · rw [isFalse]
        exact iff_of_true rfl rfl
  | string value => exact ⟨rfl, rfl⟩

theorem not_readsBack_newTrue {root : Node} {path : DottedPath} {truth}
    (leads : walk root path.names = some (newItem (Stored.bool truth).value))
    (nonzero : truth.1 ≠ 0) : ¬ ReadsBack root path.text (.bool truth) := by
  rintro ⟨read, reads, same⟩
  have cut : pathNames path.text ≠ [] := by
    rw [path.pathNames_text]
    exact path.nonempty
  rw [← path.pathNames_text] at leads
  rw [ldsJsonGetBool, ldsJsonGet_eq cut leads] at reads
  split at reads
  case isTrue =>
    obtain rfl := Except.ok.inj reads
    exact nonzero (same.mp rfl)
  case isFalse => cases reads

/-- The one-component path `a`. -/
def samplePath : DottedPath where
  names := [[97]]
  nonempty := by simp
  named := by simp [IsName, dot]
  short := by decide

theorem store_samplePath (value : Stored) :
    (store createObject samplePath.text value).1 = .success := by
  rw [store_eq, ldsJsonSet, samplePath.getObj]
  rfl

end JsonApi

end MbedtlsKcp
