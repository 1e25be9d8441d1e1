import Mathlib.Data.Rat.Defs
import MbedtlsKcp.FoldedKeys

/-!
# JSON trees

The nodes and the functions of the cJSON library that the program uses, as its
interface documents them.  A number is kept as a double, here a rational, and
as the integer it saturates to; a boolean made by the library has only its
type.  Keys are looked up without regard to the case of letters.
-/

namespace MbedtlsKcp

namespace CJson

open FoldedKeys

/-- The bytes of a C string, without its terminator. -/
abbrev Text := List UInt8

/-- The type of a node, without its flags. -/
inductive Kind where
  | false
  | true
  | null
  | number
  | string
  | array
  | object
  | raw
  deriving DecidableEq, Repr

/-- `cJSON`; the key of a child, when it has one, stands beside it. -/
structure Node where
  kind : Kind
  isReference : Bool := false
  stringIsConst : Bool := false
  valuestring : Option Text := none
  valueint : Int := 0
  valuedouble : Rat := 0
  child : List (Option Text × Node) := []

def intMax : Int := 2147483647

def intMin : Int := -2147483648

/-- The integer the library stores beside a double. -/
def saturate (number : Rat) : Int :=
  if (intMax : Rat) ≤ number then intMax
  else if number ≤ (intMin : Rat) then intMin
  else number.num.tdiv number.den

/-- `tolower` of the C locale. -/
def toLower (byte : UInt8) : UInt8 :=
  if 65 ≤ byte ∧ byte ≤ 90 then byte + 32 else byte

def foldCase (key : Text) : Text :=
  key.map toLower

def createNumber (number : Rat) : Node :=
  { kind := .number, valuedouble := number, valueint := saturate number }

def createString (text : Text) : Node :=
  { kind := .string, valuestring := some text }

def createBool (value : Bool) : Node :=
  { kind := if value then .true else .false }

def createObject : Node :=
  { kind := .object }

def createArray : Node :=
  { kind := .array }

def isNumber (item : Node) : Bool :=
  item.kind = .number

def isString (item : Node) : Bool :=
  item.kind = .string

def isTrue (item : Node) : Bool :=
  item.kind = .true

def isBool (item : Node) : Bool :=
  item.kind = .true ∨ item.kind = .false

def isArray (item : Node) : Bool :=
  item.kind = .array

def isObject (item : Node) : Bool :=
  item.kind = .object

/-- `cJSON_GetObjectItem`. -/
def getObjectItem (object : Node) (key : Text) : Option Node :=
  find (Option.map foldCase) (some (foldCase key)) object.child

/-- `object` once the item found under `key` is changed in place. -/
def setObjectItem (object : Node) (key : Text) (item : Node) : Node :=
  { object with
    child :=
      replace (Option.map foldCase) (some (foldCase key)) item object.child }

/-- `cJSON_AddItemToObject`. -/
def addItemToObject (object : Node) (key : Text) (item : Node) : Node :=
  { object with child := object.child ++ [(some key, item)] }

/-- `cJSON_AddItemToArray`. -/
def addItemToArray (array : Node) (item : Node) : Node :=
  { array with child := array.child ++ [(none, item)] }

/-- `cJSON_SetNumberValue`, which leaves the type alone. -/
def setNumberValue (object : Node) (number : Rat) : Node :=
  { object with valueint := saturate number, valuedouble := number }

/-- `cJSON_SetValuestring`; `none` when it returns NULL. -/
def setValuestring (object : Node) (text : Text) : Option Node :=
  if ¬ isString object ∨ object.isReference ∨ object.valuestring = none then
    none
  else
    some { object with valuestring := some text }

theorem saturate_int {number : Int} (low : intMin ≤ number)
    (high : number ≤ intMax) : saturate number = number := by
  rw [saturate]
  split
  case isTrue above =>
    have := Rat.intCast_le_intCast.mp above
    omega
  case isFalse =>
    split
    case isTrue below =>
      have := Rat.intCast_le_intCast.mp below
      omega
    case isFalse =>
      rw [Rat.num_intCast, Rat.den_intCast]
      exact Int.tdiv_one number

theorem getObjectItem_set_same {object item : Node} {key : Text}
    (present : getObjectItem object key ≠ none) :
    getObjectItem (setObjectItem object key item) key = some item :=
  find_replace_same present

theorem getObjectItem_set_other {object item : Node} {key other : Text}
    (differs : foldCase other ≠ foldCase key) :
    getObjectItem (setObjectItem object key item) other =
      getObjectItem object other := by
  apply find_replace_other
  intro same
  exact differs (Option.some.inj same)

theorem getObjectItem_add_same {object item : Node} {key : Text}
    (absent : getObjectItem object key = none) :
    getObjectItem (addItemToObject object key item) key = some item :=
  find_append_same absent rfl

theorem getObjectItem_add_present {object item found : Node}
    {key other : Text} (present : getObjectItem object other = some found) :
    getObjectItem (addItemToObject object key item) other = some found :=
  find_append_present present

theorem setObjectItem_set (object : Node) (key : Text) (first second : Node) :
    setObjectItem (setObjectItem object key first) key second =
      setObjectItem object key second := by
  rw [setObjectItem, setObjectItem, setObjectItem]
  simp only [replace_replace]

theorem setObjectItem_add {object : Node} {key : Text} (first second : Node)
    (absent : getObjectItem object key = none) :
    setObjectItem (addItemToObject object key first) key second =
      addItemToObject object key second := by
  have named : Option.map foldCase (some key) = some (foldCase key) := rfl
  rw [setObjectItem, addItemToObject, addItemToObject]
  simp only [replace_append_same absent named]

end CJson

end MbedtlsKcp
