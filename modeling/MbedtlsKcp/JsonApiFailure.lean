import Mathlib.Data.List.TakeWhile
import MbedtlsKcp.JsonApiStore

/-!
# Sets that fail

`XjsonNewParent` makes objects on its way down and returns the parent when it
comes to the component behind the last dot.  Behind a dot at the end of a path
there is no component, so the objects stay in the tree and the call fails.
-/

namespace MbedtlsKcp

namespace JsonApi

open CJson FoldedKeys

/-! ## Changing a tree in place -/

theorem setObjectItem_self {object item : Node} {key : Text}
    (present : getObjectItem object key = some item) :
    setObjectItem object key item = object := by
  have same : replace (Option.map foldCase) (some (foldCase key)) item
      object.child = object.child :=
    replace_find present
  rw [setObjectItem, same]
  cases object
  rfl

/-- A node changed in place changes the object it is found in. -/
theorem setObjectItem_eq_self_iff {object item changed : Node} {key : Text}
    (present : getObjectItem object key = some item) :
    setObjectItem object key changed = object ↔ changed = item := by
  constructor
  · intro same
    have found : getObjectItem (setObjectItem object key changed) key =
        some changed :=
      getObjectItem_set_same (by simp [present])
    rw [same, present] at found
    exact (Option.some.inj found).symm
  · rintro rfl
    exact setObjectItem_self present

theorem addItemToObject_ne_self (object item : Node) (key : Text) :
    addItemToObject object key item ≠ object := by
  intro same
  have lengths := congrArg (fun node => node.child.length) same
  simp [addItemToObject] at lengths

theorem updateAt_self {root node : Node} {names : List Text}
    (leads : walk root names = some node) :
    updateAt (fun _ => node) root names = root := by
  induction names generalizing root with
  | nil => exact (Option.some.inj leads).symm
  | cons q rest ih =>
      rw [walk] at leads
      rw [updateAt]
      cases item : getObjectItem root q with
      | none => rfl
      | some obj =>
          rw [item] at leads
          dsimp only
          rw [ih leads]
          exact setObjectItem_self item

/-- A set that fails on a node leaves the node. -/
theorem setJsonValue_failed {node : Node} {value : Value}
    (fails : (setJsonValue node value).1 ≠ .success) :
    (setJsonValue node value).2 = node := by
  by_cases typed : checkValType node value.type = true
  · cases value with
    | boolean value => simp [setJsonValue, typed] at fails
    | int value => simp [setJsonValue, typed] at fails
    | double value => simp [setJsonValue, typed] at fails
    | obj value => simp [setJsonValue, typed] at fails
    | string value =>
        cases set : setValuestring node value with
        | none => simp [setJsonValue, typed, set]
        | some changed => simp [setJsonValue, typed, set] at fails
  · simp [setJsonValue, typed]

/-! ## The way down -/

/-- A node of the type `cJSON_Object` without flags. -/
def isPlainObject (node : Node) : Bool :=
  node.kind = .object && !node.isReference && !node.stringIsConst

/-- Whether a component is missing and the ones before it are plain objects. -/
def breaksOff : Node → List Text → Bool
  | _, [] => false
  | node, q :: rest =>
      match getObjectItem node q with
      | none => true
      | some obj => isPlainObject obj && breaksOff obj rest

theorem walk_of_breaksOff {node : Node} {names : List Text}
    (missing : breaksOff node names = true) : walk node names = none := by
  induction names generalizing node with
  | nil => cases missing
  | cons q rest ih =>
      rw [breaksOff] at missing
      rw [walk]
      cases item : getObjectItem node q with
      | none => rfl
      | some obj =>
          rw [item] at missing
          exact ih (Bool.and_eq_true_iff.mp missing).2

theorem isPlainObject_iff (node : Node) :
    isPlainObject node = true ↔
      ¬ (node.kind ≠ .object ∨ node.isReference = true ∨
        node.stringIsConst = true) := by
  simp [isPlainObject, and_assoc]

/-- A round of the loop at a component that is there. -/
theorem newParentLoop_present {limit offset : Nat} {q : Text} {node obj : Node}
    (other : offset ≠ limit) (item : getObjectItem node q = some obj)
    (rest : List (Nat × Text)) :
    newParentLoop limit false node ((offset, q) :: rest) =
      if isPlainObject obj then
        (setObjectItem node q (newParentLoop limit false obj rest).1,
          (newParentLoop limit false obj rest).2.map fun found =>
            (q :: found.1, found.2))
      else (node, none) := by
  rw [newParentLoop, if_neg other]
  simp only [existingObject, Bool.false_eq_true, if_false, item]
  by_cases plain : isPlainObject obj = true
  · rw [if_neg ((isPlainObject_iff obj).mp plain), if_pos plain]
  · rw [if_pos (not_not.mp (mt (isPlainObject_iff obj).mpr plain)),
      if_neg plain]

/-- A round of the loop at a component that is missing. -/
theorem newParentLoop_missing {limit offset : Nat} {q : Text} {new : Bool}
    {node : Node} (other : offset ≠ limit)
    (item : existingObject new node q = none) (rest : List (Nat × Text)) :
    newParentLoop limit new node ((offset, q) :: rest) =
      (addItemToObject node q (newParentLoop limit true createObject rest).1,
        (newParentLoop limit true createObject rest).2.map fun found =>
          (q :: found.1, found.2)) := by
  rw [newParentLoop, if_neg other, item]

/-- A loop that comes to no last component returns NULL, and has changed the
tree exactly when a component was missing. -/
theorem newParentLoop_unlimited {limit : Nat} {node : Node}
    {entries : List (Nat × Text)}
    (other : ∀ entry ∈ entries, entry.1 ≠ limit) :
    (newParentLoop limit false node entries).2 = none ∧
      ((newParentLoop limit false node entries).1 = node ↔
        breaksOff node (entries.map Prod.snd) = false) := by
  have made : ∀ (node : Node) (entries : List (Nat × Text)),
      (∀ entry ∈ entries, entry.1 ≠ limit) →
        (newParentLoop limit true node entries).2 = none := by
    intro node entries other
    induction entries generalizing node with
    | nil => rfl
    | cons entry entries ih =>
        have first := other entry List.mem_cons_self
        rw [newParentLoop_missing first rfl]
        have later := ih createObject fun entry member =>
          other entry (List.mem_cons_of_mem _ member)
        simp only [later, Option.map_none]
  induction entries generalizing node with
  | nil => exact ⟨rfl, iff_of_true rfl rfl⟩
  | cons entry entries ih =>
      obtain ⟨offset, q⟩ := entry
      have first : offset ≠ limit := other _ List.mem_cons_self
      have later : ∀ entry ∈ entries, entry.1 ≠ limit := fun entry member =>
        other entry (List.mem_cons_of_mem _ member)
      rw [List.map_cons, breaksOff]
      cases item : getObjectItem node q with
      | none =>
          rw [newParentLoop_missing first (by simp [existingObject, item])]
          simp only [made createObject entries later, Option.map_none]
          refine ⟨trivial, iff_of_false ?_ (by simp)⟩
          exact addItemToObject_ne_self node _ q
      | some obj =>
          rw [newParentLoop_present first item]
          obtain ⟨returns, changes⟩ := @ih obj later
          by_cases plain : isPlainObject obj = true
          · rw [if_pos plain]
            dsimp only
            rw [returns, setObjectItem_eq_self_iff item, changes]
            simp [plain]
          · rw [if_neg plain]
            simp [plain]

/-- A loop that comes to the last component. -/
structure Arrives (limit : Nat) (node : Node) (entries : List (Nat × Text)) :
    Prop where
  /-- NULL is returned only before anything was made. -/
  refused : (newParentLoop limit false node entries).2 = none →
    (newParentLoop limit false node entries).1 = node
  /-- The parent is the root or an object. -/
  parent : ∀ found, (newParentLoop limit false node entries).2 = some found →
    (found.1 = [] ∧ (newParentLoop limit false node entries).1 = node) ∨
      ∃ parent, walk (newParentLoop limit false node entries).1 found.1 =
        some parent ∧ parent.kind = .object

theorem newParentLoop_made {limit : Nat} {node : Node}
    {entries : List (Nat × Text)} (empty : node.child = [])
    (isObject : node.kind = .object)
    (arrives : ∃ entry ∈ entries, entry.1 = limit) :
    ∃ found, (newParentLoop limit true node entries).2 = some found ∧
      ∃ parent, walk (newParentLoop limit true node entries).1 found.1 =
        some parent ∧ parent.kind = .object := by
  induction entries generalizing node with
  | nil => simp at arrives
  | cons entry entries ih =>
      obtain ⟨offset, q⟩ := entry
      by_cases last : offset = limit
      · rw [newParentLoop, if_pos last]
        exact ⟨_, rfl, node, rfl, isObject⟩
      · have later : ∃ entry ∈ entries, entry.1 = limit := by
          simpa [last] using arrives
        obtain ⟨found, finds, parent, leads, parentObject⟩ :=
          @ih createObject rfl rfl later
        have absent : getObjectItem node q = none := by
          rw [getObjectItem, empty]
          rfl
        rw [newParentLoop_missing last rfl]
        simp only [finds, Option.map_some]
        refine ⟨_, rfl, parent, ?_, parentObject⟩
        rw [walk, getObjectItem_add_same absent]
        exact leads

theorem arrives_of_mem {limit : Nat} {node : Node}
    {entries : List (Nat × Text)}
    (arrives : ∃ entry ∈ entries, entry.1 = limit) :
    Arrives limit node entries := by
  induction entries generalizing node with
  | nil => simp at arrives
  | cons entry entries ih =>
      obtain ⟨offset, q⟩ := entry
      by_cases last : offset = limit
      · constructor
        · intro returns
          rw [newParentLoop, if_pos last] at returns
          cases returns
        · rintro found finds
          rw [newParentLoop, if_pos last] at finds ⊢
          obtain rfl := Option.some.inj finds
          exact .inl ⟨rfl, rfl⟩
      · have later : ∃ entry ∈ entries, entry.1 = limit := by
          simpa [last] using arrives
        cases item : getObjectItem node q with
        | none =>
            obtain ⟨found, finds, parent, leads, parentObject⟩ :=
              @newParentLoop_made limit createObject entries rfl rfl later
            have round : newParentLoop limit false node ((offset, q) :: entries) = _ :=
              newParentLoop_missing last (by simpa [existingObject] using item)
                entries
            constructor
            · intro returns
              rw [round, finds] at returns
              cases returns
            · intro result returns
              rw [round, finds] at returns
              obtain rfl := Option.some.inj returns
              refine .inr ⟨parent, ?_, parentObject⟩
              rw [round, walk, getObjectItem_add_same item]
              exact leads
        | some obj =>
            have round := newParentLoop_present last item entries
            have below := @ih obj later
            by_cases plain : isPlainObject obj = true
            · rw [if_pos plain] at round
              constructor
              · intro returns
                rw [round] at returns ⊢
                dsimp only at returns ⊢
                rw [setObjectItem_eq_self_iff item]
                exact below.refused (Option.map_eq_none_iff.mp returns)
              · intro result returns
                rw [round] at returns ⊢
                obtain ⟨found, finds, rfl⟩ :=
                  Option.map_eq_some_iff.mp returns
                have kept : getObjectItem (setObjectItem node q
                    (newParentLoop limit false obj entries).1) q =
                      some (newParentLoop limit false obj entries).1 :=
                  getObjectItem_set_same (by simp [item])
                right
                dsimp only
                rw [walk, kept]
                dsimp only
                obtain ⟨here, same⟩ | further := below.parent found finds
                · refine ⟨obj, ?_, ?_⟩
                  · rw [here, same]
                    rfl
                  · simp only [isPlainObject, Bool.and_eq_true,
                      decide_eq_true_eq] at plain
                    exact plain.1.1
                · exact further
            · rw [if_neg plain] at round
              constructor
              · intro
                rw [round]
              · intro result returns
                rw [round] at returns
                cases returns

/-! ## Where the last component starts -/

theorem tokens_lt (offset : Nat) (rest : Text) :
    ∀ entry ∈ tokens offset rest, entry.1 < offset + rest.length := by
  induction offset, rest using tokens.induct with
  | case1 offset rest start none =>
      rw [tokens, dif_pos none]
      simp
  | case2 offset rest start some skipped token following ih =>
      have skips : start.length ≤ rest.length :=
        (List.dropWhile_suffix _).length_le
      have positive : 0 < start.length := List.length_pos_iff.mpr some
      have parts : token.length + following.length = start.length := by
        rw [← List.length_append, List.takeWhile_append_dropWhile]
      have dropped : (following.drop 1).length = following.length - 1 :=
        List.length_drop
      rw [tokens, dif_neg some]
      intro entry member
      rcases List.mem_cons.mp member with rfl | later
      · show offset + (rest.length - start.length) < offset + rest.length
        omega
      · change entry ∈ tokens (offset + (rest.length - start.length) +
          token.length + 1) (following.drop 1) at later
        have bounded : entry.1 < offset + (rest.length - start.length) +
            token.length + 1 + (following.drop 1).length :=
          ih entry later
        by_cases ended : following = []
        · rw [ended, List.drop_nil, tokens] at later
          simp at later
        · have more : 0 < following.length := List.length_pos_iff.mpr ended
          omega

theorem tokens_dot (offset : Nat) (rest : Text) :
    tokens offset (dot :: rest) = tokens (offset + 1) rest := by
  have skip : (dot :: rest).dropWhile (· = dot) = rest.dropWhile (· = dot) :=
    List.dropWhile_cons_of_pos (by simp)
  have shorter : (rest.dropWhile (· = dot)).length ≤ rest.length :=
    (List.dropWhile_suffix _).length_le
  have start : ∀ after : Text, after.length ≤ rest.length →
      offset + ((dot :: rest).length - after.length) =
        offset + 1 + (rest.length - after.length) := by
    intro after shorter
    rw [List.length_cons]
    omega
  rw [tokens]
  conv => rhs; rw [tokens]
  simp only [skip, start _ shorter]

theorem takeWhile_isName {byte : UInt8} (notDot : byte ≠ dot) (rest : Text) :
    IsName ((byte :: rest).takeWhile (· ≠ dot)) := by
  constructor
  · rw [List.takeWhile_cons_of_pos (by simpa using notDot)]
    exact List.cons_ne_nil _ _
  · intro member
    simpa using List.mem_takeWhile_imp member

/-- The component behind the last dot is a token. -/
theorem mem_tokens_last {last : Text} (named : IsName last) (before : Text)
    (offset : Nat) :
    (offset + before.length + 1, last) ∈
      tokens offset (before ++ dot :: last) := by
  induction hlength : before.length using Nat.strong_induction_on
      generalizing before offset with
  | h length ih =>
  cases before with
  | nil =>
      obtain rfl : 0 = length := hlength
      rw [List.nil_append, tokens_dot, tokens_name _ named]
      exact List.mem_singleton_self _
  | cons byte before =>
      by_cases isDot : byte = dot
      · subst isDot
        rw [List.cons_append, tokens_dot]
        have later := ih before.length (by simp [← hlength]) before
          (offset + 1) rfl
        rw [List.length_cons] at hlength
        rw [show offset + length + 1 = offset + 1 + before.length + 1 by omega]
        exact later
      · -- the first component, and what follows it up to the last dot
        have first := takeWhile_isName isDot before
        have parts := List.takeWhile_append_dropWhile (p := (· ≠ dot))
          (l := byte :: before)
        generalize (byte :: before).takeWhile (· ≠ dot) = name at first parts
        cases tail : (byte :: before).dropWhile (· ≠ dot) with
        | nil =>
            rw [tail, List.append_nil] at parts
            rw [← parts, tokens_name_append offset first, tokens_name _ named]
            rw [← parts] at hlength
            subst hlength
            simp
        | cons next after =>
            have nextDot : next = dot := by
              have head := List.head_dropWhile_not (p := (· ≠ dot))
                (l := byte :: before) (by rw [tail]; exact List.cons_ne_nil _ _)
              simp only [tail, List.head_cons] at head
              simpa using head
            subst nextDot
            rw [tail] at parts
            have sum := congrArg List.length parts
            rw [hlength, List.length_append, List.length_cons] at sum
            rw [← parts, List.append_assoc, List.cons_append,
              tokens_name_append offset first]
            apply List.mem_cons_of_mem
            have later := ih after.length (by omega) after
              (offset + name.length + 1) rfl
            rw [show offset + length + 1 =
              offset + name.length + 1 + after.length + 1 by omega]
            exact later

theorem lastDelim_eq_none_iff {path : Text} :
    lastDelim path = none ↔ dot ∉ path := by
  refine ⟨?_, lastDelim_clear⟩
  induction path with
  | nil => simp
  | cons byte path ih =>
      rw [lastDelim, List.mem_cons, not_or]
      cases later : lastDelim path with
      | some offset => simp
      | none =>
          intro found
          refine ⟨?_, ih later⟩
          rintro rfl
          simp at found

theorem lastDelim_eq_some {path : Text} {delim : Nat}
    (found : lastDelim path = some delim) :
    ∃ before after, path = before ++ dot :: after ∧ before.length = delim ∧
      dot ∉ after := by
  induction path generalizing delim with
  | nil => cases found
  | cons byte path ih =>
      rw [lastDelim] at found
      cases later : lastDelim path with
      | some offset =>
          rw [later] at found
          obtain rfl := Option.some.inj found
          obtain ⟨before, after, rfl, rfl, clear⟩ := ih later
          exact ⟨byte :: before, after, rfl, rfl, clear⟩
      | none =>
          rw [later] at found
          by_cases isDot : byte = dot
          · rw [if_pos isDot] at found
            obtain rfl := Option.some.inj found
            subst isDot
            exact ⟨[], path, rfl, rfl, lastDelim_eq_none_iff.mp later⟩
          · rw [if_neg isDot] at found
            cases found

/-- The path, as far as it is looked at, ends in a dot. -/
def EndsInDot (path : Text) : Prop :=
  (pathCopy path).getLast? = some dot

/-- Behind a dot at the end there is no parent to return. -/
theorem xjsonNewParent_of_endsInDot (root : Node) {path : Text}
    (ends : EndsInDot path) :
    (xjsonNewParent root path).2 = none ∧
      ((xjsonNewParent root path).1 = root ↔
        breaksOff root (pathNames path) = false) := by
  obtain ⟨before, splits⟩ := List.getLast?_eq_some_iff.mp ends
  have delim : lastDelim (pathCopy path) = some before.length := by
    rw [splits]
    exact lastDelim_append_cons before [] List.not_mem_nil
  have other : ∀ entry ∈ tokens 0 (pathCopy path),
      entry.1 ≠ before.length + 1 := by
    intro entry member
    have bounded := tokens_lt 0 _ entry member
    rw [splits, List.length_append, List.length_singleton] at bounded
    omega
  rw [xjsonNewParent, delim]
  exact newParentLoop_unlimited other

/-- Otherwise NULL is returned only before anything was made, and the parent is
the root or an object. -/
theorem xjsonNewParent_of_not_endsInDot (root : Node) {path : Text}
    (ends : ¬ EndsInDot path) :
    ((xjsonNewParent root path).2 = none →
        (xjsonNewParent root path).1 = root) ∧
      ∀ found, (xjsonNewParent root path).2 = some found →
        (found.1 = [] ∧ (xjsonNewParent root path).1 = root) ∨
          ∃ parent, walk (xjsonNewParent root path).1 found.1 = some parent ∧
            parent.kind = .object := by
  rw [xjsonNewParent]
  cases delim : lastDelim (pathCopy path) with
  | none =>
      refine ⟨fun _ => rfl, ?_⟩
      intro found returns
      obtain rfl := Option.some.inj returns
      exact .inl ⟨rfl, rfl⟩
  | some offset =>
      obtain ⟨before, last, splits, rfl, clear⟩ := lastDelim_eq_some delim
      have some : last ≠ [] := by
        rintro rfl
        exact ends (by rw [EndsInDot, splits]; simp)
      have member := mem_tokens_last ⟨some, clear⟩ before 0
      have arrives : Arrives (before.length + 1) root
          (tokens 0 (pathCopy path)) := by
        rw [splits]
        exact arrives_of_mem ⟨_, member, Nat.zero_add _ ▸ rfl⟩
      exact ⟨arrives.refused, arrives.parent⟩

/-! ## Failing calls -/

/-- What a setter is given beside the tree and the path; `none` is NULL. -/
inductive Argument where
  | int (value : Int)
  | bool (value : Int)
  | double (value : Rat)
  | string (value : Option Text)
  | obj (json : Option Node)

/-- The value a setter passes on. -/
def Argument.value : Argument → Option Value
  | .int value => some (.int value)
  | .bool value => some (.boolean value)
  | .double value => some (.double value)
  | .string value => value.map .string
  | .obj json => json.map .obj

/-- What a setter returns. -/
inductive Code where
  | errorFuncArgs
  | ret (ret : Ret)
  deriving DecidableEq

/-- `lds_json_set_int`, `lds_json_set_bool`, `lds_json_set_double`,
`lds_json_set_string` or `lds_json_set_obj`, with the test of `lds_json_set`
for NULL. -/
def setter (root : Option Node) (path : Option Text) (argument : Argument) :
    Code × Option Node :=
  match root, path, argument.value with
  | some root, some path, some value =>
      let set := ldsJsonSet root path value
      (.ret set.1, some set.2)
  | root, _, _ => (.errorFuncArgs, root)

/-- A call that fails leaves the tree. -/
def FailsCleanly (root : Option Node) (path : Option Text)
    (argument : Argument) : Prop :=
  (setter root path argument).1 ≠ .ret .success →
    (setter root path argument).2 = root

/-- The path ends in a dot, and the way it leads breaks off at a component that
is missing. -/
def Spoils (root : Option Node) (path : Option Text) (argument : Argument) :
    Prop :=
  ∃ tree text, root = some tree ∧ path = some text ∧
    argument.value.isSome = true ∧ EndsInDot text ∧
      breaksOff tree (pathNames text) = true

theorem ldsJsonGetObj_of_breaksOff {root : Node} {path : Text}
    (missing : breaksOff root (pathNames path) = true) :
    ldsJsonGetObj root path = none := by
  rw [ldsJsonGetObj_eq, walk_of_breaksOff missing]
  simp

theorem not_failsCleanly_of_spoils {root : Option Node} {path : Option Text}
    {argument : Argument} (spoils : Spoils root path argument) :
    ¬ FailsCleanly root path argument := by
  obtain ⟨tree, text, rfl, rfl, given, ends, missing⟩ := spoils
  obtain ⟨value, passed⟩ := Option.isSome_iff_exists.mp given
  obtain ⟨returns, changes⟩ := xjsonNewParent_of_endsInDot tree ends
  have result : setter (some tree) (some text) argument =
      (.ret .fail, some (xjsonNewParent tree text).1) := by
    simp only [setter, passed, ldsJsonSet, ldsJsonGetObj_of_breaksOff missing,
      returns]
  intro cleanly
  rw [FailsCleanly, result] at cleanly
  have same := changes.mp (Option.some.inj (cleanly (by simp)))
  rw [missing] at same
  cases same

/-- A set of a value that fails leaves the tree when its path does not end in a
dot. -/
theorem ldsJsonSet_failed {root : Node} {path : Text} {value : Value}
    (whole : EndsInDot path → breaksOff root (pathNames path) = false)
    (fails : (ldsJsonSet root path value).1 ≠ .success) :
    (ldsJsonSet root path value).2 = root := by
  rw [ldsJsonSet] at fails ⊢
  cases object : ldsJsonGetObj root path with
  | some names =>
      rw [object] at fails
      dsimp only at fails ⊢
      cases leads : walk root names with
      | none => rfl
      | some node =>
          rw [leads] at fails
          dsimp only at fails ⊢
          rw [setJsonValue_failed fails]
          exact updateAt_self leads
  | none =>
      rw [object] at fails
      dsimp only at fails ⊢
      have unmade : (xjsonNewParent root path).2 = none →
          (xjsonNewParent root path).1 = root := by
        by_cases ends : EndsInDot path
        · exact fun _ => (xjsonNewParent_of_endsInDot root ends).2.mpr (whole ends)
        · exact (xjsonNewParent_of_not_endsInDot root ends).1
      cases made : (xjsonNewParent root path).2 with
      | none => exact unmade made
      | some found =>
          rw [made] at fails
          dsimp only at fails ⊢
          have ends : ¬ EndsInDot path := by
            intro ends
            rw [(xjsonNewParent_of_endsInDot root ends).1] at made
            cases made
          obtain ⟨here, same⟩ | ⟨parent, leads, isObject⟩ :=
            (xjsonNewParent_of_not_endsInDot root ends).2 found made
          · rw [here, same, walk] at fails ⊢
            dsimp only at fails ⊢
            by_cases typed : checkValType root .obj = true
            · rw [if_pos typed] at fails
              exact absurd rfl fails
            · rw [if_neg typed]
          · -- an item is added to an object, which succeeds
            rw [leads] at fails
            simp [checkValType, isObject, CJson.isObject] at fails

theorem failsCleanly_of_not_spoils {root : Option Node} {path : Option Text}
    {argument : Argument} (keeps : ¬ Spoils root path argument) :
    FailsCleanly root path argument := by
  intro fails
  cases root with
  | none => simp [setter]
  | some tree =>
      cases path with
      | none => simp [setter]
      | some text =>
          cases passed : argument.value with
          | none => simp [setter, passed]
          | some value =>
              have whole : EndsInDot text →
                  breaksOff tree (pathNames text) = false := by
                intro ends
                rw [Bool.eq_false_iff]
                intro missing
                exact keeps ⟨tree, text, rfl, rfl, by simp [passed], ends,
                  missing⟩
              simp only [setter, passed] at fails ⊢
              rw [ldsJsonSet_failed whole fun same => fails (by rw [same])]

end JsonApi

end MbedtlsKcp
