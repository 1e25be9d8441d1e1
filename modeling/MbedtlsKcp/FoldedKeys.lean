import Mathlib.Data.List.Basic

/-!
# Entries found by the normal form of their key

A list of entries in which a key is looked up by its normal form and the first
entry wins.  An entry is replaced in place or added at the end.
-/

namespace MbedtlsKcp

namespace FoldedKeys

variable {Key Norm Value : Type*} [DecidableEq Norm] (norm : Key → Norm)

/-- The first value under `target`. -/
def find (target : Norm) : List (Key × Value) → Option Value
  | [] => none
  | entry :: entries =>
      if norm entry.1 = target then some entry.2 else find target entries

/-- The entries with the first value under `target` replaced. -/
def replace (target : Norm) (value : Value) :
    List (Key × Value) → List (Key × Value)
  | [] => []
  | entry :: entries =>
      if norm entry.1 = target then (entry.1, value) :: entries
      else entry :: replace target value entries

variable {norm} {target other : Norm} {value : Value}

theorem find_replace_same {entries : List (Key × Value)}
    (present : find norm target entries ≠ none) :
    find norm target (replace norm target value entries) = some value := by
  induction entries with
  | nil => exact absurd rfl present
  | cons entry entries ih =>
      rw [find] at present
      rw [replace]
      split
      case isTrue same => rw [find, if_pos same]
      case isFalse differ =>
        rw [if_neg differ] at present
        rw [find, if_neg differ]
        exact ih present

theorem find_replace_other {entries : List (Key × Value)}
    (differs : other ≠ target) :
    find norm other (replace norm target value entries) =
      find norm other entries := by
  induction entries with
  | nil => rfl
  | cons entry entries ih =>
      rw [replace]
      split
      case isTrue same =>
        have notOther : norm entry.1 ≠ other := by
          rw [same]
          exact differs.symm
        rw [find, find, if_neg notOther, if_neg notOther]
      case isFalse => rw [find, find, ih]

/-- When no two keys have the same normal form, every entry is found. -/
theorem find_of_mem {entries : List (Key × Value)} {key : Key}
    (distinct : (entries.map fun entry => norm entry.1).Nodup)
    (member : (key, value) ∈ entries) :
    find norm (norm key) entries = some value := by
  induction entries with
  | nil => cases member
  | cons entry entries ih =>
      rw [List.map_cons, List.nodup_cons] at distinct
      rw [find]
      rcases List.mem_cons.mp member with rfl | later
      · exact if_pos rfl
      · rw [if_neg]
        · exact ih distinct.2 later
        · intro same
          apply distinct.1
          rw [same]
          exact List.mem_map_of_mem later

/-- What is found is one of the values. -/
theorem mem_of_find {entries : List (Key × Value)}
    (found : find norm target entries = some value) :
    ∃ key, (key, value) ∈ entries := by
  induction entries with
  | nil => cases found
  | cons entry entries ih =>
      rw [find] at found
      split at found
      · obtain rfl := Option.some.inj found
        exact ⟨entry.1, List.mem_cons_self⟩
      · obtain ⟨key, member⟩ := ih found
        exact ⟨key, List.mem_cons_of_mem _ member⟩

/-- A value added at the end is found when there was none. -/
theorem find_append_same {entries : List (Key × Value)} {key : Key}
    (absent : find norm target entries = none) (named : norm key = target) :
    find norm target (entries ++ [(key, value)]) = some value := by
  induction entries with
  | nil =>
      rw [List.nil_append, find]
      exact if_pos named
  | cons entry entries ih =>
      rw [find] at absent
      rw [List.cons_append, find]
      split
      case isTrue same => rw [if_pos same] at absent; cases absent
      case isFalse differ =>
        rw [if_neg differ] at absent
        exact ih absent

/-- A value added at the end hides none that was there. -/
theorem find_append_present {entries : List (Key × Value)} {key : Key}
    {found : Value} (present : find norm target entries = some found) :
    find norm target (entries ++ [(key, value)]) = some found := by
  induction entries with
  | nil => cases present
  | cons entry entries ih =>
      rw [find] at present
      rw [List.cons_append, find]
      split
      case isTrue same =>
        rw [if_pos same] at present
        exact present
      case isFalse differ =>
        rw [if_neg differ] at present
        exact ih present

theorem replace_find {entries : List (Key × Value)}
    (present : find norm target entries = some value) :
    replace norm target value entries = entries := by
  induction entries with
  | nil => rfl
  | cons entry entries ih =>
      rw [find] at present
      rw [replace]
      split
      case isTrue same =>
        rw [if_pos same] at present
        obtain rfl := Option.some.inj present
        rfl
      case isFalse differ =>
        rw [if_neg differ] at present
        rw [ih present]

theorem replace_replace {entries : List (Key × Value)} {later : Value} :
    replace norm target later (replace norm target value entries) =
      replace norm target later entries := by
  induction entries with
  | nil => rfl
  | cons entry entries ih =>
      rw [replace]
      split
      case isTrue same => rw [replace, replace, if_pos same, if_pos same]
      case isFalse differ =>
        rw [replace, replace, if_neg differ, if_neg differ, ih]

theorem replace_append_same {entries : List (Key × Value)} {key : Key}
    {later : Value} (absent : find norm target entries = none)
    (named : norm key = target) :
    replace norm target later (entries ++ [(key, value)]) =
      entries ++ [(key, later)] := by
  induction entries with
  | nil =>
      rw [List.nil_append, replace]
      exact if_pos named
  | cons entry entries ih =>
      rw [find] at absent
      rw [List.cons_append, replace]
      split
      case isTrue same => rw [if_pos same] at absent; cases absent
      case isFalse differ =>
        rw [if_neg differ] at absent
        rw [ih absent, List.cons_append]

end FoldedKeys

end MbedtlsKcp
