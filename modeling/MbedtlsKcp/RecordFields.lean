import Mathlib.Tactic.SplitIfs
import MbedtlsKcp.ByteBuffers

/-!
# Records with named fields

A record is a byte array of fixed size in which every field has a span of its
own.  A field is stored in place; the bytes of all the others stay, because no
two spans meet.
-/

namespace MbedtlsKcp

namespace RecordFields

open ByteBuffers

/-- Where a field starts and how many bytes it has. -/
structure Span where
  offset : Nat
  size : Nat
  deriving DecidableEq, Repr

/-- The first span ends before the second one starts. -/
def Span.Before (first second : Span) : Prop :=
  first.offset + first.size ≤ second.offset

instance (first second : Span) : Decidable (first.Before second) :=
  inferInstanceAs (Decidable (_ ≤ _))

def Span.Apart (first second : Span) : Prop :=
  first.Before second ∨ second.Before first

instance (first second : Span) : Decidable (first.Apart second) :=
  inferInstanceAs (Decidable (_ ∨ _))

theorem Span.Apart.symm {first second : Span} (apart : first.Apart second) :
    second.Apart first :=
  Or.symm apart

/-- The spans of the fields of a record. -/
structure Layout (Name : Type*) where
  size : Nat
  span : Name → Span
  inside : ∀ name, (span name).offset + (span name).size ≤ size
  apart : ∀ {name other}, name ≠ other → (span name).Apart (span other)

/-- The bytes of a record. -/
structure Record (size : Nat) where
  bytes : List UInt8
  length_bytes : bytes.length = size

variable {Name : Type*} (layout : Layout Name)

/-- The bytes of a field. -/
def load (record : Record layout.size) (name : Name) : List UInt8 :=
  slice record.bytes (layout.span name).offset (layout.span name).size

/-- The record with `source` stored at the start of a field, as far as the
field reaches. -/
def store (record : Record layout.size) (name : Name) (source : List UInt8) :
    Record layout.size where
  bytes :=
    overwrite record.bytes (layout.span name).offset
      (source.take (layout.span name).size)
  length_bytes := by
    have inside := layout.inside name
    rw [length_overwrite, record.length_bytes]
    rw [record.length_bytes, List.length_take]
    omega

variable {layout} {record : Record layout.size} {name other : Name}

@[simp]
theorem length_load :
    (load layout record name).length = (layout.span name).size := by
  apply length_slice
  rw [record.length_bytes]
  exact layout.inside name

theorem load_store_same {source : List UInt8}
    (exactly : source.length = (layout.span name).size) :
    load layout (store layout record name source) name = source := by
  have whole : source.take (layout.span name).size = source :=
    List.take_of_length_le (Nat.le_of_eq exactly)
  have reaches : (layout.span name).offset ≤ record.bytes.length := by
    have inside := layout.inside name
    rw [record.length_bytes]
    omega
  have read := slice_overwrite_same source reaches
  rw [exactly] at read
  show slice (overwrite record.bytes (layout.span name).offset
    (source.take (layout.span name).size)) _ _ = source
  rw [whole]
  exact read

/-- A source shorter than the field is stored at its start. -/
theorem load_store_start {source : List UInt8}
    (short : source.length ≤ (layout.span name).size) :
    load layout (store layout record name source) name =
      source ++ (load layout record name).drop source.length := by
  have inside := layout.inside name
  have whole : source.take (layout.span name).size = source :=
    List.take_of_length_le short
  rw [load, store, load]
  dsimp only
  rw [whole]
  apply slice_overwrite_start _ short
  rw [record.length_bytes]
  omega

theorem load_store_other (source : List UInt8) (differ : other ≠ name) :
    load layout (store layout record name source) other =
      load layout record other := by
  have inside := layout.inside name
  have cut : (source.take (layout.span name).size).length ≤
      (layout.span name).size := List.length_take_le _ _
  rcases layout.apart differ with before | after
  · apply slice_overwrite_before _ before
    rw [record.length_bytes]
    omega
  · apply slice_overwrite_after
    · rw [record.length_bytes]
      omega
    · have := after
      rw [Span.Before] at this
      omega

/-- Fields stored one after the other. -/
def storeAll (sources : List (Name × List UInt8))
    (record : Record layout.size) : Record layout.size :=
  sources.foldl (fun record entry => store layout record entry.1 entry.2) record

theorem load_storeAll_other {sources : List (Name × List UInt8)}
    (absent : other ∉ sources.map Prod.fst) :
    load layout (storeAll sources record) other = load layout record other := by
  induction sources generalizing record with
  | nil => rfl
  | cons entry sources ih =>
      rw [List.map_cons, List.mem_cons, not_or] at absent
      rw [storeAll, List.foldl_cons]
      exact (ih absent.2).trans (load_store_other entry.2 absent.1)

/-- Of distinct fields, each is left with what was stored. -/
theorem load_storeAll_of_mem {sources : List (Name × List UInt8)}
    {entry : Name × List UInt8} (distinct : (sources.map Prod.fst).Nodup)
    (member : entry ∈ sources)
    (exactly : entry.2.length = (layout.span entry.1).size) :
    load layout (storeAll sources record) entry.1 = entry.2 := by
  induction sources generalizing record with
  | nil => cases member
  | cons first sources ih =>
      rw [List.map_cons, List.nodup_cons] at distinct
      rw [storeAll, List.foldl_cons]
      rcases List.mem_cons.mp member with rfl | later
      · exact (load_storeAll_other distinct.1).trans (load_store_same exactly)
      · exact ih distinct.2 later

/-! ## Bytes no field is stored at -/

theorem Record.ext_getElem? {size : Nat} {first second : Record size}
    (same : ∀ i : Nat, first.bytes[i]? = second.bytes[i]?) : first = second := by
  cases first
  cases second
  congr 1
  exact List.ext_getElem? same

/-- A position inside a span. -/
def Span.Contains (span : Span) (i : Nat) : Prop :=
  span.offset ≤ i ∧ i < span.offset + span.size

instance (span : Span) (i : Nat) : Decidable (span.Contains i) :=
  inferInstanceAs (Decidable (_ ∧ _))

theorem getElem?_store {source : List UInt8} (i : Nat)
    (exactly : source.length = (layout.span name).size) :
    (store layout record name source).bytes[i]? =
      if (layout.span name).Contains i then
        source[i - (layout.span name).offset]?
      else record.bytes[i]? := by
  have inside := layout.inside name
  have whole : source.take (layout.span name).size = source :=
    List.take_of_length_le (Nat.le_of_eq exactly)
  have fits : (layout.span name).offset + source.length ≤
      record.bytes.length := by
    rw [record.length_bytes, exactly]
    exact inside
  rw [store]
  dsimp only
  rw [whole, getElem?_overwrite fits, exactly]
  rfl

/-- No field is stored at the position. -/
def Untouched (layout : Layout Name) (sources : List (Name × List UInt8))
    (i : Nat) : Prop :=
  ∀ entry ∈ sources, ¬ (layout.span entry.1).Contains i

instance (sources : List (Name × List UInt8)) (i : Nat) :
    Decidable (Untouched layout sources i) :=
  inferInstanceAs (Decidable (∀ entry ∈ sources, _))

/-- The records agree wherever no field is stored. -/
def SameRest (sources : List (Name × List UInt8))
    (first second : Record layout.size) : Prop :=
  ∀ i : Nat, Untouched layout sources i → first.bytes[i]? = second.bytes[i]?

/-- Every field is stored whole. -/
def WholeFields (layout : Layout Name) (sources : List (Name × List UInt8)) :
    Prop :=
  ∀ entry ∈ sources, entry.2.length = (layout.span entry.1).size

instance (sources : List (Name × List UInt8)) :
    Decidable (WholeFields layout sources) :=
  inferInstanceAs (Decidable (∀ entry ∈ sources, _))

theorem getElem?_storeAll_of_untouched {sources : List (Name × List UInt8)}
    (whole : WholeFields layout sources) {i : Nat}
    (untouched : Untouched layout sources i) :
    (storeAll sources record).bytes[i]? = record.bytes[i]? := by
  induction sources generalizing record with
  | nil => rfl
  | cons entry sources ih =>
      have first := untouched entry List.mem_cons_self
      rw [storeAll, List.foldl_cons]
      refine (ih (fun other member => whole other (.tail _ member))
        fun other member => untouched other (.tail _ member)).trans ?_
      rw [getElem?_store i (whole entry List.mem_cons_self), if_neg first]

/-- What whole fields make of two records differs only where the records do
and no field is stored. -/
theorem storeAll_eq_iff {sources : List (Name × List UInt8)}
    (whole : WholeFields layout sources) {first second : Record layout.size} :
    storeAll sources first = storeAll sources second ↔
      SameRest sources first second := by
  constructor
  · intro same i untouched
    rw [← getElem?_storeAll_of_untouched whole untouched, same,
      getElem?_storeAll_of_untouched whole untouched]
  · intro same
    induction sources generalizing first second with
    | nil => exact Record.ext_getElem? fun i => same i nofun
    | cons entry sources ih =>
        rw [storeAll, List.foldl_cons, storeAll, List.foldl_cons]
        refine ih (fun other member => whole other (.tail _ member)) ?_
        intro i untouched
        have exactly := whole entry List.mem_cons_self
        rw [getElem?_store i exactly, getElem?_store i exactly]
        split_ifs with inside
        · rfl
        · refine same i fun other member => ?_
          rcases List.mem_cons.mp member with rfl | later
          · exact inside
          · exact untouched other later

theorem sameRest_storeAll {sources : List (Name × List UInt8)}
    (whole : WholeFields layout sources) :
    SameRest sources (storeAll sources record) record :=
  fun _ untouched => getElem?_storeAll_of_untouched whole untouched

theorem SameRest.trans {sources : List (Name × List UInt8)}
    {first second third : Record layout.size}
    (same : SameRest sources first second)
    (sameAgain : SameRest sources second third) :
    SameRest sources first third :=
  fun i untouched => (same i untouched).trans (sameAgain i untouched)

/-! ## Copies that know nothing of the fields -/

section Copies

variable {size : Nat}

/-- A copy into a record; `none` when it leaves the record. -/
def copyAt (record : Record size) (position : Nat) (source : List UInt8) :
    Option (Record size) :=
  if fits : position + source.length ≤ record.bytes.length then
    some ⟨overwrite record.bytes position source,
      (length_overwrite fits).trans record.length_bytes⟩
  else
    none

/-- The bytes of a span. -/
def Record.at (record : Record size) (span : Span) : List UInt8 :=
  slice record.bytes span.offset span.size

/-- A span was given new bytes, and every span apart from it kept its own. -/
structure Replaces (before after : Record size) (span : Span)
    (image : List UInt8) : Prop where
  inside : after.at span = image
  outside : ∀ other : Span, other.Apart span → after.at other = before.at other

variable {before middle after : Record size} {span : Span}

theorem isSome_copyAt_iff {position : Nat} {source : List UInt8} :
    (copyAt before position source).isSome = true ↔
      position + source.length ≤ size := by
  have sized := before.length_bytes
  rw [copyAt]
  split
  case isTrue fits => exact ⟨fun _ => sized ▸ fits, fun _ => rfl⟩
  case isFalse leaves =>
    rw [sized] at leaves
    exact iff_of_false Bool.false_ne_true leaves

theorem bytes_copyAt {position : Nat} {source : List UInt8}
    (copies : copyAt before position source = some after) :
    after.bytes = overwrite before.bytes position source := by
  rw [copyAt] at copies
  split at copies
  case isTrue =>
    cases copies
    rfl
  case isFalse => cases copies

/-- A copy to the start of a span that does not leave the span. -/
theorem exists_copyAt (before : Record size) {source : List UInt8}
    (inside : span.offset + span.size ≤ size)
    (short : source.length ≤ span.size) :
    ∃ after, copyAt before span.offset source = some after ∧
      Replaces before after span
        (source ++ (before.at span).drop source.length) := by
  have fits : span.offset + source.length ≤ size := by omega
  obtain ⟨after, copies⟩ := Option.isSome_iff_exists.mp
    (isSome_copyAt_iff.mpr fits : (copyAt before span.offset source).isSome)
  refine ⟨after, copies, ?_, ?_⟩
  · rw [Record.at, bytes_copyAt copies]
    apply slice_overwrite_start _ short
    rw [before.length_bytes]
    omega
  · intro other apart
    rw [Record.at, bytes_copyAt copies, Record.at]
    rcases apart with first | last
    · apply slice_overwrite_before _ first
      rw [before.length_bytes]
      omega
    · rw [Span.Before] at last
      apply slice_overwrite_after
      · rw [before.length_bytes]
        exact fits
      · omega

/-- A copy of the size of a span. -/
theorem exists_copyAt_whole (before : Record size) {source : List UInt8}
    (inside : span.offset + span.size ≤ size)
    (whole : source.length = span.size) :
    ∃ after, copyAt before span.offset source = some after ∧
      Replaces before after span source := by
  obtain ⟨after, copies, replaces⟩ :=
    exists_copyAt before inside (Nat.le_of_eq whole)
  have rest : (before.at span).drop source.length = [] := by
    apply List.drop_eq_nil_of_le
    rw [whole]
    exact List.length_take_le _ _
  rw [rest, List.append_nil] at replaces
  exact ⟨after, copies, replaces⟩

theorem Replaces.trans {first second : List UInt8}
    (replaced : Replaces before middle span first)
    (replacedAgain : Replaces middle after span second) :
    Replaces before after span second where
  inside := replacedAgain.inside
  outside other apart :=
    (replacedAgain.outside other apart).trans (replaced.outside other apart)

end Copies

end RecordFields

end MbedtlsKcp
