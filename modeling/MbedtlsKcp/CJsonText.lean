import MbedtlsKcp.CJson
import MbedtlsKcp.CStrings

/-!
# Trees that are printed and parsed again

`cJSON_Parse` makes a node of every printed node: a number keeps its double, a
boolean that is true gets an integer of 1, and no flag is set.  Integers reach
the library as doubles, which keep 53 bits of them.
-/

namespace MbedtlsKcp

namespace CJson

open CStrings FoldedKeys

mutual

/-- The node `cJSON_Parse` makes of a printed node. -/
def reparse : Node → Node
  | ⟨kind, _, _, valuestring, _, valuedouble, child⟩ =>
      { kind := kind
        valuestring := if kind = .string then valuestring else none
        valueint :=
          match kind with
          | .number => saturate valuedouble
          | .true => 1
          | _ => 0
        valuedouble := if kind = .number then valuedouble else 0
        child := reparseChild child }

def reparseChild :
    List (Option Text × Node) → List (Option Text × Node)
  | [] => []
  | member :: rest => reparseMember member :: reparseChild rest

def reparseMember : Option Text × Node → Option Text × Node
  | (key, node) => (key, reparse node)

end

theorem find_reparseChild (target : Option Text)
    (child : List (Option Text × Node)) :
    find (Option.map foldCase) target (reparseChild child) =
      (find (Option.map foldCase) target child).map reparse := by
  induction child with
  | nil => rfl
  | cons member rest ih =>
      obtain ⟨key, node⟩ := member
      rw [reparseChild, reparseMember, find, find]
      split
      · rfl
      · exact ih

/-- A printed object has the same keys, each with its node made again. -/
theorem getObjectItem_reparse (object : Node) (key : Text) :
    getObjectItem (reparse object) key =
      (getObjectItem object key).map reparse := by
  cases object with
  | mk => exact find_reparseChild _ _

/-- An integer as a double: its 53 leading bits, rounded to the nearest with
ties to even. -/
def toDouble (value : Int) : Rat :=
  let unit := 2 ^ (value.natAbs.log2 + 1 - 53)
  let kept := value.natAbs / unit
  let rest := value.natAbs % unit
  let rounded :=
    if 2 * rest < unit ∨ (2 * rest = unit ∧ kept % 2 = 0) then kept
    else kept + 1
  ((value.sign * (rounded * unit : Nat) : Int) : Rat)

theorem toDouble_small {value : Int} (small : value.natAbs < 2 ^ 53) :
    toDouble value = value := by
  have bits : value.natAbs.log2 + 1 - 53 = 0 := by
    by_cases zero : value.natAbs = 0
    · rw [zero]
      rfl
    · have := (Nat.log2_lt zero).mpr small
      omega
  rw [toDouble, bits, Nat.pow_zero, Nat.div_one, Nat.mod_one, if_pos (.inl (by decide)),
    Nat.mul_one, Int.sign_mul_natAbs]

theorem saturate_intCast_mem (number : Int) :
    intMin ≤ saturate number ∧ saturate number ≤ intMax := by
  rw [saturate]
  split
  case isTrue => exact ⟨by decide, Int.le_refl _⟩
  case isFalse notAbove =>
    split
    case isTrue => exact ⟨Int.le_refl _, by decide⟩
    case isFalse notBelow =>
      have high : ¬ intMax ≤ number := fun above =>
        notAbove (Rat.intCast_le_intCast.mpr above)
      have low : ¬ number ≤ intMin := fun below =>
        notBelow (Rat.intCast_le_intCast.mpr below)
      have whole : number.tdiv ((1 : Nat) : Int) = number :=
        Int.tdiv_one number
      rw [Rat.num_intCast, Rat.den_intCast, whole]
      omega

theorem saturate_of_le {number : Int} (above : intMax ≤ number) :
    saturate number = intMax :=
  if_pos (Rat.intCast_le_intCast.mpr above)

/-- An integer is what is stored beside its double exactly when it is in the
range of `int`. -/
theorem saturate_toDouble_eq_iff (value : Int) :
    saturate (toDouble value) = value ↔ intMin ≤ value ∧ value ≤ intMax := by
  constructor
  · intro same
    rw [← same, toDouble]
    exact saturate_intCast_mem _
  · rintro ⟨low, high⟩
    have small : value.natAbs < 2 ^ 53 := by
      rw [intMin] at low
      rw [intMax] at high
      omega
    rw [toDouble_small small]
    exact saturate_int low high

/-! ## A printer -/

def quoted (text : Text) : Text :=
  ascii "\"" ++ text ++ ascii "\""

def tabs (depth : Nat) : Text :=
  List.replicate depth 9

mutual

/-- What `cJSON_Print` makes of a tree of objects, integers, booleans and
strings without characters to escape. -/
def printNode (depth : Nat) : Node → Text
  | ⟨kind, _, _, valuestring, valueint, _, child⟩ =>
      match kind with
      | .false => ascii "false"
      | .true => ascii "true"
      | .number => ascii (toString valueint)
      | .string => quoted (valuestring.getD [])
      | .object =>
          ascii "\x7b\n" ++ printChild (depth + 1) child ++ tabs depth ++
            ascii "\x7d"
      | _ => ascii "null"

def printChild (depth : Nat) : List (Option Text × Node) → Text
  | [] => []
  | member :: rest =>
      tabs depth ++ printMember depth member ++
        ascii (if rest.isEmpty then "\n" else ",\n") ++ printChild depth rest

def printMember (depth : Nat) : Option Text × Node → Text
  | (key, node) => quoted (key.getD []) ++ ascii ":\t" ++ printNode depth node

end

theorem printNode_object_ne_nil {node : Node} (depth : Nat)
    (isObject : node.kind = .object) : printNode depth node ≠ [] := by
  cases node with
  | mk kind isReference stringIsConst valuestring valueint valuedouble child =>
      cases isObject
      rw [printNode]
      exact List.cons_ne_nil _ _

/-- A parser of one printed tree. -/
def parseOnly (tree : Node) (text : Text) : Option Node :=
  if text = printNode 0 tree then some (reparse tree) else none

theorem parseOnly_printNode (tree : Node) :
    parseOnly tree (printNode 0 tree) = some (reparse tree) :=
  if_pos rfl

end CJson

end MbedtlsKcp
