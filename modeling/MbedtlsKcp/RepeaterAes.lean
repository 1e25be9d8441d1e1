import MbedtlsKcp.AesWrapper
import MbedtlsKcp.PackedSlots

/-!
# The key registry of the repeater

The context of `repeater_aes.c` and the code that runs under its mutex.  A
result of `none` stands for an access outside the array of quadruples.
-/

namespace MbedtlsKcp

namespace RepeaterAes

open AesWrapper PackedSlots

def maxAesKeyNum : Nat := 5

abbrev Mac := Vector UInt8 6

structure Quadruples where
  ip : UInt32
  mac : Mac
  key : AesKey
  iv : AesKey
deriving DecidableEq

/-- What `memset` leaves of an entry. -/
def Quadruples.zero : Quadruples where
  ip := 0
  mac := Vector.replicate 6 0
  key := Vector.replicate 16 0
  iv := Vector.replicate 16 0

structure RepeaterAesContext where
  clientCount : Nat
  defaultKey : AesKey
  repeaterQuadruples : List Quadruples
  clientQuadruples : Quadruples
  masterMac : Mac
deriving DecidableEq

/-- The static context before any call. -/
def RepeaterAesContext.initial : RepeaterAesContext where
  clientCount := 0
  defaultKey := Vector.replicate 16 0
  repeaterQuadruples := List.replicate maxAesKeyNum Quadruples.zero
  clientQuadruples := Quadruples.zero
  masterMac := Vector.replicate 6 0

/-- The search loop: the first of the next `remaining` entries from `i` on
that has the mac. -/
def findMac (quadruples : List Quadruples) (mac : Mac) :
    Nat → Nat → Option (Option Nat)
  | _, 0 => some none
  | i, remaining + 1 => do
      let entry ← quadruples[i]?
      if entry.mac = mac then some (some i)
      else findMac quadruples mac (i + 1) remaining

/-- The fields of an existing entry that an update replaces. -/
def Quadruples.update (entry quadruples : Quadruples) : Quadruples :=
  { entry with
    ip := if quadruples.ip ≠ 0 then quadruples.ip else entry.ip
    key := if quadruples.key[0] ≠ 0 then quadruples.key else entry.key
    iv := if quadruples.iv[0] ≠ 0 then quadruples.iv else entry.iv }

/-- Removes the entry at a position and counts down. -/
def RepeaterAesContext.removeEntry (ctx : RepeaterAesContext)
    (position : Nat) : Option RepeaterAesContext := do
  let quadruples ←
    removeAt Quadruples.zero ctx.repeaterQuadruples ctx.clientCount position
  return { ctx with
    repeaterQuadruples := quadruples
    clientCount := ctx.clientCount - 1 }

def repeaterDelQuadruples (ctx : RepeaterAesContext) (mac : Mac) :
    Option (Int × RepeaterAesContext) := do
  let found ← findMac ctx.repeaterQuadruples mac 0 ctx.clientCount
  match found with
  | some i =>
      let removed ← ctx.removeEntry i
      return (0, removed)
  | none => return (-1, ctx)

def repeaterDelAllQuadruples (ctx : RepeaterAesContext) :
    Int × RepeaterAesContext :=
  (0, { ctx with
    clientCount := 0
    repeaterQuadruples :=
      List.replicate ctx.repeaterQuadruples.length Quadruples.zero })

/-- The deletion loop of `repeater_sync_quadruples`.  Every round removes the
entry at `idx` or moves on, so that the number of entries from `idx` on bounds
the rounds. -/
def syncLoop (parsedMacs : List Mac) :
    Nat → Nat → RepeaterAesContext → Option RepeaterAesContext
  | 0, _, ctx => some ctx
  | rounds + 1, idx, ctx => do
      let entry ← ctx.repeaterQuadruples[idx]?
      if entry.mac ∈ parsedMacs then syncLoop parsedMacs rounds (idx + 1) ctx
      else
        let removed ← ctx.removeEntry idx
        syncLoop parsedMacs rounds idx removed

/-- The strings are parsed before the mutex is taken; `parsedMacs` are the
first `valid_mac_cnt` results. -/
def repeaterSyncQuadruples (ctx : RepeaterAesContext)
    (parsedMacs : List Mac) : Option (Int × RepeaterAesContext) := do
  let synced ← syncLoop parsedMacs ctx.clientCount 0 ctx
  return (0, synced)

def repeaterAddQuadruples (ctx : RepeaterAesContext)
    (quadruples : Quadruples) : Option (Int × RepeaterAesContext) :=
  if maxAesKeyNum ≤ ctx.clientCount then some (-1, ctx)
  else if ctx.clientCount < ctx.repeaterQuadruples.length then
    some (0, { ctx with
      repeaterQuadruples :=
        ctx.repeaterQuadruples.set ctx.clientCount quadruples
      clientCount := ctx.clientCount + 1 })
  else none

/-- The first section of `repeater_update_quadruples`.  Without an entry of
the mac it is left with `false`, and the caller goes on to add the quadruples
in a section of its own. -/
def repeaterUpdateQuadruples (ctx : RepeaterAesContext)
    (quadruples : Quadruples) : Option (Bool × RepeaterAesContext) := do
  let found ← findMac ctx.repeaterQuadruples quadruples.mac 0 ctx.clientCount
  match found with
  | some i =>
      let entry ← ctx.repeaterQuadruples[i]?
      return (true, { ctx with
        repeaterQuadruples :=
          ctx.repeaterQuadruples.set i (entry.update quadruples) })
  | none => return (false, ctx)

/-- The registry holds `entries`, the other slots are zero. -/
structure RepeaterAesContext.Holds (ctx : RepeaterAesContext)
    (entries : List Quadruples) : Prop where
  count : ctx.clientCount = entries.length
  packed : Packed Quadruples.zero maxAesKeyNum ctx.repeaterQuadruples entries

theorem holds_initial : RepeaterAesContext.initial.Holds [] :=
  ⟨rfl, packed_nil _ _⟩

variable {ctx : RepeaterAesContext} {entries : List Quadruples}

theorem findMac_of_packed {slots : List Quadruples} {filler : Quadruples}
    {size : Nat} (packed : Packed filler size slots entries) (mac : Mac)
    {i remaining : Nat} (ends : i + remaining = entries.length) :
    (∃ k, findMac slots mac i remaining = some (some k) ∧
      ∃ inside : k < entries.length, entries[k].mac = mac) ∨
    (findMac slots mac i remaining = some none ∧
      ∀ entry ∈ entries.drop i, entry.mac ≠ mac) := by
  induction remaining generalizing i with
  | zero =>
      refine .inr ⟨rfl, ?_⟩
      intro entry member
      rw [List.drop_of_length_le (by omega)] at member
      cases member
  | succ remaining ih =>
      have inside : i < entries.length := by omega
      rw [findMac, packed.getElem?_eq inside,
        List.getElem?_eq_getElem inside, Option.bind_eq_bind,
        Option.bind_some]
      split
      case isTrue same => exact .inl ⟨i, rfl, inside, same⟩
      case isFalse other =>
        rcases ih (i := i + 1) (by omega) with found | ⟨searches, others⟩
        · exact .inl found
        · refine .inr ⟨searches, ?_⟩
          intro entry member
          rw [List.drop_eq_getElem_cons inside] at member
          rcases List.mem_cons.mp member with rfl | later
          · exact other
          · exact others entry later

namespace RepeaterAesContext.Holds

theorem findMac_eq (holds : ctx.Holds entries) (mac : Mac) :
    (∃ k, findMac ctx.repeaterQuadruples mac 0 ctx.clientCount =
        some (some k) ∧ ∃ inside : k < entries.length, entries[k].mac = mac) ∨
    (findMac ctx.repeaterQuadruples mac 0 ctx.clientCount = some none ∧
      ∀ entry ∈ entries, entry.mac ≠ mac) := by
  rw [holds.count]
  simpa using findMac_of_packed holds.packed mac (Nat.zero_add _)

theorem removeEntry (holds : ctx.Holds entries) {position : Nat}
    (inside : position < entries.length) :
    ∃ removed, ctx.removeEntry position = some removed ∧
      removed.Holds (entries.eraseIdx position) := by
  obtain ⟨slots, removes, packed⟩ := holds.packed.removeAt inside
  refine ⟨{ ctx with
    repeaterQuadruples := slots
    clientCount := ctx.clientCount - 1 }, ?_, ?_, packed⟩
  · rw [RepeaterAesContext.removeEntry, holds.count, removes]
    rfl
  · rw [List.length_eraseIdx_of_lt inside]
    exact congrArg (· - 1) holds.count

/-- Deletion removes one entry of the mac or finds none. -/
theorem repeaterDelQuadruples (holds : ctx.Holds entries) (mac : Mac) :
    ∃ ret after left, RepeaterAes.repeaterDelQuadruples ctx mac =
        some (ret, after) ∧ after.Holds left ∧ left.Sublist entries := by
  rcases holds.findMac_eq mac with ⟨k, finds, inside, _⟩ | ⟨finds, _⟩
  · obtain ⟨removed, removes, left⟩ := holds.removeEntry inside
    refine ⟨0, removed, _, ?_, left, List.eraseIdx_sublist _ _⟩
    rw [RepeaterAes.repeaterDelQuadruples, finds, Option.bind_eq_bind,
      Option.bind_some]
    dsimp only
    rw [removes]
    rfl
  · refine ⟨-1, ctx, entries, ?_, holds, List.Sublist.refl _⟩
    rw [RepeaterAes.repeaterDelQuadruples, finds]
    rfl

theorem repeaterDelAllQuadruples (holds : ctx.Holds entries) :
    (RepeaterAes.repeaterDelAllQuadruples ctx).2.Holds [] := by
  refine ⟨rfl, ?_⟩
  rw [RepeaterAes.repeaterDelAllQuadruples]
  dsimp only
  rw [holds.packed.length_slots]
  exact packed_nil _ _

theorem syncLoop (parsedMacs : List Mac) {rounds idx : Nat}
    (holds : ctx.Holds entries) (ends : idx + rounds = entries.length) :
    ∃ after, RepeaterAes.syncLoop parsedMacs rounds idx ctx = some after ∧
      after.Holds (entries.take idx ++
        (entries.drop idx).filter fun entry => entry.mac ∈ parsedMacs) := by
  induction rounds generalizing idx ctx entries with
  | zero =>
      refine ⟨ctx, rfl, ?_⟩
      rw [List.drop_of_length_le (by omega), List.take_of_length_le (by omega)]
      simpa using holds
  | succ rounds ih =>
      have inside : idx < entries.length := by omega
      rw [RepeaterAes.syncLoop, holds.packed.getElem?_eq inside,
        List.getElem?_eq_getElem inside, Option.bind_eq_bind,
        Option.bind_some, List.drop_eq_getElem_cons inside]
      split
      case isTrue known =>
        have behind : idx + 1 + rounds = entries.length := by omega
        obtain ⟨after, loops, left⟩ := ih holds behind
        refine ⟨after, loops, ?_⟩
        rw [List.filter_cons_of_pos (by simpa using known)]
        rw [← List.take_append_getElem inside, List.append_assoc] at left
        exact left
      case isFalse unknown =>
        obtain ⟨removed, removes, kept⟩ := holds.removeEntry inside
        have shorter : idx + rounds = (entries.eraseIdx idx).length := by
          rw [List.length_eraseIdx_of_lt inside]
          omega
        obtain ⟨after, loops, left⟩ := ih kept shorter
        refine ⟨after, ?_, ?_⟩
        · rw [removes]
          exact loops
        · have length : (entries.take idx).length = idx := by
            rw [List.length_take]
            omega
          rw [List.filter_cons_of_neg (by simpa using unknown)]
          rw [List.eraseIdx_eq_take_drop_succ, List.take_left' length,
            List.drop_left' length] at left
          exact left

/-- Synchronisation keeps exactly the entries whose mac is listed. -/
theorem repeaterSyncQuadruples (holds : ctx.Holds entries)
    (parsedMacs : List Mac) :
    ∃ after, RepeaterAes.repeaterSyncQuadruples ctx parsedMacs =
        some (0, after) ∧
      after.Holds (entries.filter fun entry => entry.mac ∈ parsedMacs) := by
  obtain ⟨after, loops, left⟩ := holds.syncLoop parsedMacs
    (Nat.zero_add entries.length)
  refine ⟨after, ?_, by simpa using left⟩
  rw [RepeaterAes.repeaterSyncQuadruples, holds.count, loops]
  rfl

/-- An entry is appended unless the registry is full. -/
theorem repeaterAddQuadruples (holds : ctx.Holds entries)
    (quadruples : Quadruples) :
    ∃ ret after, RepeaterAes.repeaterAddQuadruples ctx quadruples =
        some (ret, after) ∧
      after.Holds (if entries.length < maxAesKeyNum then
        entries ++ [quadruples] else entries) := by
  rw [RepeaterAes.repeaterAddQuadruples, holds.count,
    holds.packed.length_slots]
  by_cases room : entries.length < maxAesKeyNum
  case pos =>
    rw [if_neg (by omega), if_pos room, if_pos room]
    refine ⟨0, _, rfl, ?_, holds.packed.append room quadruples⟩
    simp
  case neg =>
    rw [if_pos (by omega), if_neg room]
    exact ⟨-1, ctx, rfl, holds⟩

/-- The first section of an update changes no mac; it asks for an addition
exactly when no entry has the mac. -/
theorem repeaterUpdateQuadruples (holds : ctx.Holds entries)
    (quadruples : Quadruples) :
    ∃ found after updated, RepeaterAes.repeaterUpdateQuadruples ctx
        quadruples = some (found, after) ∧ after.Holds updated ∧
      updated.map Quadruples.mac = entries.map Quadruples.mac ∧
      (found = false → ∀ entry ∈ entries, entry.mac ≠ quadruples.mac) := by
  rcases holds.findMac_eq quadruples.mac with
    ⟨k, finds, inside, isMac⟩ | ⟨finds, others⟩
  · refine ⟨true, { ctx with
        repeaterQuadruples :=
          ctx.repeaterQuadruples.set k (entries[k].update quadruples) },
      entries.set k (entries[k].update quadruples), ?_, ?_, ?_, by simp⟩
    · rw [RepeaterAes.repeaterUpdateQuadruples, finds, Option.bind_eq_bind,
        Option.bind_some]
      dsimp only
      rw [holds.packed.getElem?_eq inside, List.getElem?_eq_getElem inside]
      rfl
    · exact ⟨by simpa using holds.count, holds.packed.set inside _⟩
    · apply List.ext_getElem?
      intro index
      rw [List.getElem?_map, List.getElem?_map, List.getElem?_set]
      split
      case isTrue same =>
        subst same
        rw [List.getElem?_eq_getElem inside]
        rfl
      case isFalse => rfl
  · refine ⟨false, ctx, entries, ?_, holds, rfl, fun _ => others⟩
    rw [RepeaterAes.repeaterUpdateQuadruples, finds]
    rfl

end RepeaterAesContext.Holds

end RepeaterAes

end MbedtlsKcp
