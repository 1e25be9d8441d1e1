import MbedtlsKcp.CJson

/-!
# Values addressed by dotted paths

`json_api.c`.  A pointer into a tree is kept as the list of keys that leads to
it, so that changing the node it points to is changing the tree there.  The
arguments are not NULL and allocation succeeds.
-/

namespace MbedtlsKcp

namespace JsonApi

open CJson

/-- `LDS_JSON_RET_E`, as far as it is returned. -/
inductive Ret where
  | errorDataType
  | errorEmpty
  | fail
  | success
  deriving DecidableEq, Repr

def xjsonMaxPathLength : Nat := 128

def dot : UInt8 := 46

/-- `snprintf(path_copy, sizeof(path_copy), "%s", path)`. -/
def pathCopy (path : Text) : Text :=
  path.take (xjsonMaxPathLength - 1)

/-- The tokens successive calls of `json_cstrtok` find, with their offsets in
the path; `offset` is where the rest of the path starts. -/
def tokens (offset : Nat) (rest : Text) : List (Nat × Text) :=
  let start := rest.dropWhile (· = dot)
  if found : start = [] then
    []
  else
    let skipped := rest.length - start.length
    let token := start.takeWhile (· ≠ dot)
    let following := start.dropWhile (· ≠ dot)
    (offset + skipped, token) ::
      tokens (offset + skipped + token.length + 1) (following.drop 1)
termination_by rest.length
decreasing_by
  have skips : (rest.dropWhile (· = dot)).length ≤ rest.length :=
    (List.dropWhile_suffix _).length_le
  have follows : ((rest.dropWhile (· = dot)).dropWhile (· ≠ dot)).length ≤
      (rest.dropWhile (· = dot)).length :=
    (List.dropWhile_suffix _).length_le
  have positive : 0 < (rest.dropWhile (· = dot)).length :=
    List.length_pos_iff.mpr found
  rw [List.length_drop]
  omega

/-- The node the keys lead to. -/
def walk : Node → List Text → Option Node
  | container, [] => some container
  | container, q :: rest =>
      match getObjectItem container q with
      | some obj => walk obj rest
      | none => none

/-- The tree once the node the keys lead to is changed in place. -/
def updateAt (change : Node → Node) : Node → List Text → Node
  | node, [] => change node
  | node, q :: rest =>
      match getObjectItem node q with
      | some obj => setObjectItem node q (updateAt change obj rest)
      | none => node

/-- `lds_json_get_obj`: the keys that lead to the node. -/
def ldsJsonGetObj (root : Node) (path : Text) : Option (List Text) :=
  let names := (tokens 0 (pathCopy path)).map Prod.snd
  if names = [] then none
  else if (walk root names).isSome then some names
  else none

/-- The offset of the last dot of a path. -/
def lastDelim : Text → Option Nat
  | [] => none
  | byte :: rest =>
      match lastDelim rest with
      | some offset => some (offset + 1)
      | none => if byte = dot then some 0 else none

/-- The object a round of `XjsonNewParent` goes on with, when it need not make
one. -/
def existingObject (newObjectStart : Bool) (parent : Node) (q : Text) :
    Option Node :=
  if newObjectStart then none else getObjectItem parent q

/-- The loop of `XjsonNewParent`: the tree it leaves, and the keys that lead to
the parent with the name of the last node, unless it returns NULL.  `limit` is
where the last name starts, `newObjectStart` whether objects are created. -/
def newParentLoop (limit : Nat) :
    Bool → Node → List (Nat × Text) → Node × Option (List Text × Text)
  | _, parent, [] => (parent, none)
  | newObjectStart, parent, (offset, q) :: rest =>
      if offset = limit then
        (parent, some ([], q))
      else
        match existingObject newObjectStart parent q with
        | none =>
            let made := newParentLoop limit true createObject rest
            (addItemToObject parent q made.1,
              made.2.map fun found => (q :: found.1, found.2))
        | some obj =>
            if obj.kind ≠ .object ∨ obj.isReference ∨ obj.stringIsConst then
              (parent, none)
            else
              let made := newParentLoop limit false obj rest
              (setObjectItem parent q made.1,
                made.2.map fun found => (q :: found.1, found.2))

/-- `XjsonNewParent`. -/
def xjsonNewParent (root : Node) (path : Text) :
    Node × Option (List Text × Text) :=
  match lastDelim (pathCopy path) with
  | none => (root, some ([], pathCopy path))
  | some delim =>
      newParentLoop (delim + 1) false root (tokens 0 (pathCopy path))

/-- A value with the type it is set or read as. -/
inductive Value where
  | boolean (value : Int)
  | int (value : Rat)
  | double (value : Rat)
  | string (value : Text)
  | obj (value : Node)

/-- The types of `LDS_JSON_VAL_TYPE_E` a value can have. -/
inductive ValType where
  | boolean
  | int
  | double
  | string
  | obj
  deriving DecidableEq, Repr

def Value.type : Value → ValType
  | .boolean _ => .boolean
  | .int _ => .int
  | .double _ => .double
  | .string _ => .string
  | .obj _ => .obj

/-- `lds_json_check_val_type`. -/
def checkValType (obj : Node) : ValType → Bool
  | .int | .double => isNumber obj || isBool obj
  | .string => isString obj
  | .boolean => isBool obj
  | .obj => isObject obj

/-- `set_json_value`. -/
def setJsonValue (obj : Node) (value : Value) : Ret × Node :=
  if checkValType obj value.type then
    match value with
    | .boolean value =>
        (.success,
          { obj with
            kind := if value ≠ 0 then .true else .false
            isReference := false
            stringIsConst := false
            valueint := value })
    | .int value | .double value => (.success, setNumberValue obj value)
    | .string value =>
        match setValuestring obj value with
        | some obj => (.success, obj)
        | none => (.fail, obj)
    | .obj value => (.success, { obj with child := [(none, value)] })
  else
    (.errorDataType, obj)

/-- The item `lds_json_set` adds for a path that leads nowhere yet. -/
def newItem : Value → Node
  | .string value => createString value
  | .int value | .double value => createNumber value
  | .obj value => value
  | .boolean value => createBool (value ≠ 0)

/-- `lds_json_set`: the code and the tree after the call. -/
def ldsJsonSet (root : Node) (path : Text) (value : Value) : Ret × Node :=
  match ldsJsonGetObj root path with
  | some object =>
      match walk root object with
      | some node =>
          let set := setJsonValue node value
          (set.1, updateAt (fun _ => set.2) root object)
      | none => (.fail, root)
  | none =>
      let made := xjsonNewParent root path
      match made.2 with
      | none => (.fail, made.1)
      | some (object, node) =>
          match walk made.1 object with
          | none => (.fail, made.1)
          | some parent =>
              if checkValType parent .obj then
                (.success,
                  updateAt (fun parent =>
                    addItemToObject parent node (newItem value))
                    made.1 object)
              else
                (.fail, made.1)

/-- `lds_json_get`: the node the value is read from, checked for `type`. -/
def ldsJsonGet (root : Node) (path : Text) (type : ValType) :
    Except Ret Node :=
  match ldsJsonGetObj root path with
  | none => .error .errorEmpty
  | some object =>
      match walk root object with
      | none => .error .errorEmpty
      | some node =>
          if checkValType node type then .ok node else .error .errorDataType

/-- What a caller finds in its buffer of `bufsize` bytes, as a string. -/
def bufferText (bufsize : Nat) (text : Text) : Text :=
  text.take (bufsize - 1)

def ldsJsonSetInt (root : Node) (path : Text) (value : Int) : Ret × Node :=
  ldsJsonSet root path (.int value)

def ldsJsonGetInt (root : Node) (path : Text) : Except Ret Int :=
  (ldsJsonGet root path .int).map Node.valueint

def ldsJsonSetBool (root : Node) (path : Text) (value : Int) : Ret × Node :=
  ldsJsonSet root path (.boolean value)

def ldsJsonGetBool (root : Node) (path : Text) : Except Ret Int :=
  (ldsJsonGet root path .boolean).map Node.valueint

def ldsJsonSetDouble (root : Node) (path : Text) (value : Rat) : Ret × Node :=
  ldsJsonSet root path (.double value)

def ldsJsonGetDouble (root : Node) (path : Text) : Except Ret Rat :=
  (ldsJsonGet root path .double).map Node.valuedouble

def ldsJsonSetString (root : Node) (path : Text) (value : Text) : Ret × Node :=
  ldsJsonSet root path (.string value)

/-- The string a caller with a buffer of `bufsize` bytes reads; a node of
string type always has its text. -/
def ldsJsonGetString (root : Node) (path : Text) (bufsize : Nat) :
    Except Ret Text :=
  (ldsJsonGet root path .string).map fun node =>
    bufferText bufsize (node.valuestring.getD [])

def ldsJsonSetObj (root : Node) (path : Text) (json : Node) : Ret × Node :=
  ldsJsonSet root path (.obj json)

end JsonApi

end MbedtlsKcp
