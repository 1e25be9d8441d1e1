import MbedtlsKcp.MacStrings
import MbedtlsKcp.RepeaterRegistry

/-!
# Whole calls on the key registry

`repeater_sync_quadruples` parses a list of strings into a table of
`MAX_AES_KEY_NUM` addresses before it filters the registry, and looks at no
more strings than that.  `repeater_update_quadruples` hands an unknown address
to `repeater_add_quadruples` and drops its result.
-/

namespace MbedtlsKcp

namespace RepeaterAes

open AesWrapper PackedSlots TransitionRuns HexScanning

/-- The entries of the registry. -/
def RepeaterAesContext.entries (ctx : RepeaterAesContext) : List Quadruples :=
  ctx.repeaterQuadruples.take ctx.clientCount

/-- `parsed_macs` and `valid_mac_cnt`. -/
structure ParsedMacs where
  slots : List Mac
  validMacCnt : Nat

def ParsedMacs.initial : ParsedMacs where
  slots := List.replicate maxAesKeyNum (Vector.replicate 6 0)
  validMacCnt := 0

/-- One round of the parsing loop.  A string that is not parsed may leave bytes
in the slot, which the next string overwrites. -/
def ParsedMacs.parse (parsed : ParsedMacs) (macStr : Option (List UInt8)) :
    ParsedMacs :=
  let (ret, slot) := str2mac macStr
    (parsed.slots.getD parsed.validMacCnt (Vector.replicate 6 0))
  { slots := parsed.slots.set parsed.validMacCnt slot
    validMacCnt :=
      if ret = 0 then parsed.validMacCnt + 1 else parsed.validMacCnt }

/-- The parsing loop of `repeater_sync_quadruples`; null pointers are
`none`. -/
def parseMacs (macs : List (Option (List UInt8))) : List Mac :=
  let parsed := (macs.take maxAesKeyNum).foldl ParsedMacs.parse .initial
  parsed.slots.take parsed.validMacCnt

/-- `repeater_sync_quadruples` on a list of strings. -/
def repeaterSyncCall (ctx : RepeaterAesContext)
    (macs : List (Option (List UInt8))) : Option (Int × RepeaterAesContext) :=
  if macs = [] then some (-1, ctx)
  else repeaterSyncQuadruples ctx (parseMacs macs)

/-- `repeater_update_quadruples` while no other thread runs. -/
def repeaterUpdateCall (ctx : RepeaterAesContext) (quadruples : Quadruples) :
    Option (Int × RepeaterAesContext) := do
  let (found, ctx) ← repeaterUpdateQuadruples ctx quadruples
  if found then return (0, ctx)
  else
    let (_, ctx) ← repeaterAddQuadruples ctx quadruples
    return (-1, ctx)

/-- The address that a string is parsed to. -/
def macOf (macStr : Option (List UInt8)) : Option Mac :=
  let (ret, mac) := str2mac macStr (Vector.replicate 6 0)
  if ret = 0 then some mac else none

instance lawfulBEq_mac : LawfulBEq Mac :=
  inferInstance

/-- A synchronisation leaves exactly the entries whose address is the parse of
a listed string. -/
def SyncExact (ctx : RepeaterAesContext) (macs : List (Option (List UInt8))) :
    Prop :=
  ∃ after, repeaterSyncCall ctx macs = some (0, after) ∧
    after.Holds (ctx.entries.filter fun entry =>
      entry.mac ∈ macs.filterMap macOf)

/-- The listed addresses of the registry are listed among the first
`MAX_AES_KEY_NUM` strings. -/
def ListedEarly (ctx : RepeaterAesContext)
    (macs : List (Option (List UInt8))) : Prop :=
  ∀ entry ∈ ctx.entries, entry.mac ∈ macs.filterMap macOf →
    entry.mac ∈ (macs.take maxAesKeyNum).filterMap macOf

instance (ctx : RepeaterAesContext) (macs : List (Option (List UInt8))) :
    Decidable (ListedEarly ctx macs) :=
  inferInstanceAs (Decidable (∀ entry ∈ ctx.entries, _))

/-- An entry has the fields that are set in `quadruples`, and the others of
`old`. -/
structure Merged (old quadruples entry : Quadruples) : Prop where
  mac : entry.mac = quadruples.mac
  ip : entry.ip = if quadruples.ip ≠ 0 then quadruples.ip else old.ip
  key : entry.key = if quadruples.key.get 0 ≠ 0 then quadruples.key else old.key
  iv : entry.iv = if quadruples.iv.get 0 ≠ 0 then quadruples.iv else old.iv

/-- What an update promises: an entry that merges the quadruples, or a full
registry left as it is; other addresses untouched; 0 exactly if the address has
an entry. -/
def UpsertContract (ctx : RepeaterAesContext) (quadruples : Quadruples) :
    Prop :=
  ∃ (ret : Int) (after : RepeaterAesContext),
    repeaterUpdateCall ctx quadruples = some (ret, after) ∧
    ((∃ (i : Nat) (entry : Quadruples), after.entries[i]? = some entry ∧
        (∀ old, ctx.entries[i]? = some old → old.mac = quadruples.mac) ∧
        Merged (ctx.entries[i]?.getD Quadruples.zero) quadruples entry) ∨
      ctx.clientCount = maxAesKeyNum ∧ after = ctx) ∧
    (after.entries.filter fun entry => entry.mac ≠ quadruples.mac) =
      (ctx.entries.filter fun entry => entry.mac ≠ quadruples.mac) ∧
    (ret = 0 ↔ ∃ entry ∈ after.entries, entry.mac = quadruples.mac)

/-- The address has an entry, or the registry is full. -/
def KnownOrFull (ctx : RepeaterAesContext) (quadruples : Quadruples) : Prop :=
  (∃ entry ∈ ctx.entries, entry.mac = quadruples.mac) ∨
    ctx.clientCount = maxAesKeyNum

section Parsing

/-- Whether a string is parsed, and to what, does not depend on the array. -/
theorem str2mac_cases (macStr : Option (List UInt8)) :
    (∃ parsed, macOf macStr = some parsed ∧
        ∀ mac, str2mac macStr mac = (0, parsed)) ∨
      macOf macStr = none ∧ ∀ mac, ∃ slot, str2mac macStr mac = (-1, slot) := by
  have isFull : ∀ values : List UInt8, values.length = 6 →
      ∃ parsed, ∀ mac, assign mac values = parsed := by
    intro values length
    refine ⟨assign (Vector.replicate 6 0) values, ?_⟩
    intro mac
    apply Vector.ext
    intro i inside
    simp only [assign, Vector.getElem_ofFn,
      List.getElem?_eq_getElem (show i < values.length by omega),
      Option.getD_some]
  cases macStr with
  | none => exact .inr ⟨rfl, fun mac => ⟨mac, rfl⟩⟩
  | some macStr =>
      by_cases colons : (sscanf colonFormat macStr).length = 6
      · obtain ⟨parsed, assigns⟩ := isFull _ colons
        have returns : ∀ mac, str2mac (some macStr) mac = (0, parsed) := by
          intro mac
          simp [str2mac, colons, assigns]
        exact .inl ⟨parsed, by simp [macOf, returns], returns⟩
      by_cases length : macStr.length = 12
      swap
      · have returns : ∀ mac, str2mac (some macStr) mac =
            (-1, assign mac (sscanf colonFormat macStr)) := by
          intro mac
          simp [str2mac, colons, length]
        exact .inr ⟨by simp [macOf, returns], fun mac => ⟨_, returns mac⟩⟩
      by_cases raw : (sscanf rawFormat macStr).length = 6
      · obtain ⟨parsed, assigns⟩ := isFull _ raw
        have returns : ∀ mac, str2mac (some macStr) mac = (0, parsed) := by
          intro mac
          simp [str2mac, colons, length, raw, assigns]
        exact .inl ⟨parsed, by simp [macOf, returns], returns⟩
      · have returns : ∀ mac, str2mac (some macStr) mac =
            (-1, assign (assign mac (sscanf colonFormat macStr))
              (sscanf rawFormat macStr)) := by
          intro mac
          simp [str2mac, colons, length, raw]
        exact .inr ⟨by simp [macOf, returns], fun mac => ⟨_, returns mac⟩⟩

/-- The table holds the parsed addresses one after the other. -/
theorem foldl_parse {parsed : ParsedMacs} {macs : List (Option (List UInt8))}
    (sized : parsed.slots.length = maxAesKeyNum)
    (room : parsed.validMacCnt + macs.length ≤ maxAesKeyNum) :
    (macs.foldl ParsedMacs.parse parsed).slots.take
        (macs.foldl ParsedMacs.parse parsed).validMacCnt =
      parsed.slots.take parsed.validMacCnt ++ macs.filterMap macOf := by
  induction macs generalizing parsed with
  | nil => simp
  | cons macStr macs ih =>
      rw [List.length_cons] at room
      have inside : parsed.validMacCnt < parsed.slots.length := by omega
      rw [List.foldl_cons]
      rcases str2mac_cases macStr with ⟨mac, isMac, returns⟩ | ⟨isNone, returns⟩
      · have next : parsed.parse macStr =
            { slots := parsed.slots.set parsed.validMacCnt mac
              validMacCnt := parsed.validMacCnt + 1 } := by
          simp [ParsedMacs.parse, returns]
        rw [next, ih (by rw [List.length_set]; exact sized) (by
          simp only
          omega), List.filterMap_cons_some isMac]
        simp only
        rw [List.take_succ_eq_append_getElem (by
          rw [List.length_set]
          exact inside), List.take_set_of_le (Nat.le_refl _),
          List.getElem_set_self, List.append_assoc, List.singleton_append]
      · obtain ⟨slot, leaves⟩ := returns
          (parsed.slots.getD parsed.validMacCnt (Vector.replicate 6 0))
        have next : parsed.parse macStr =
            { slots := parsed.slots.set parsed.validMacCnt slot
              validMacCnt := parsed.validMacCnt } := by
          rw [ParsedMacs.parse, leaves]
          rfl
        rw [next, ih (by rw [List.length_set]; exact sized) (by
          simp only
          omega), List.filterMap_cons_none isNone]
        simp only
        rw [List.take_set_of_le (Nat.le_refl _)]

theorem parseMacs_eq (macs : List (Option (List UInt8))) :
    parseMacs macs = (macs.take maxAesKeyNum).filterMap macOf := by
  have room : ParsedMacs.initial.validMacCnt +
      (macs.take maxAesKeyNum).length ≤ maxAesKeyNum := by
    rw [List.length_take, ParsedMacs.initial, Nat.zero_add]
    exact Nat.min_le_left _ _
  exact foldl_parse List.length_replicate room

end Parsing

section Calls

variable {ctx : RepeaterAesContext} {entries : List Quadruples}

theorem RepeaterAesContext.Holds.entries_eq (holds : ctx.Holds entries) :
    ctx.entries = entries :=
  holds.take_eq

/-- Every run of sections leaves a packed registry. -/
theorem Registry.exists_holds {sections : List MutexSection}
    {registry : Registry}
    (reached : run Registry.step (.start RepeaterAesContext.initial) sections =
      some registry) :
    ∃ entries, registry.ctx.Holds entries := by
  have keeps : ∀ before label after,
      (∃ entries, Registry.ctx before |>.Holds entries) → True →
        Registry.step before label = some after →
          ∃ entries, after.ctx.Holds entries := by
    rintro before label after ⟨entries, holds⟩ _ steps
    obtain ⟨left, kept, _⟩ := holds.step steps
    exact ⟨left, kept⟩
  exact (statesMeet_of_stepsMeet keeps ⟨[], holds_initial⟩
    (stepsMeet_true _ _ sections)).last reached

theorem RepeaterAesContext.Holds.unique {after : RepeaterAesContext}
    {left kept : List Quadruples} (first : after.Holds left)
    (second : after.Holds kept) : left = kept :=
  first.take_eq.symm.trans second.take_eq

/-- In every reachable registry a synchronisation is an exact filter if and
only if the listed addresses of the registry are listed early. -/
theorem syncExact_iff_listedEarly (sections : List MutexSection)
    (registry : Registry)
    (reached : run Registry.step (.start RepeaterAesContext.initial) sections =
      some registry)
    (macs : List (Option (List UInt8))) (nonempty : macs ≠ []) :
    SyncExact registry.ctx macs ↔ ListedEarly registry.ctx macs := by
  obtain ⟨entries, holds⟩ := Registry.exists_holds reached
  obtain ⟨after, syncs, kept⟩ := holds.repeaterSyncQuadruples (parseMacs macs)
  have calls : repeaterSyncCall registry.ctx macs = some (0, after) := by
    rw [repeaterSyncCall, if_neg nonempty, syncs]
  have taken : ∀ mac, mac ∈ (macs.take maxAesKeyNum).filterMap macOf →
      mac ∈ macs.filterMap macOf := by
    intro mac member
    exact ((List.take_sublist _ _).filterMap _).subset member
  rw [parseMacs_eq] at kept
  rw [SyncExact, ListedEarly, holds.entries_eq, calls]
  constructor
  · rintro ⟨other, same, exact_⟩ entry member listed
    obtain rfl := (Prod.mk.inj (Option.some.inj same)).2
    have filters := kept.unique exact_
    have isKept : entry ∈ entries.filter fun entry =>
        entry.mac ∈ macs.filterMap macOf :=
      List.mem_filter.mpr ⟨member, by simpa using listed⟩
    rw [← filters] at isKept
    simpa using (List.mem_filter.mp isKept).2
  · intro early
    refine ⟨after, rfl, ?_⟩
    have filters : (entries.filter fun entry =>
        entry.mac ∈ macs.filterMap macOf) = entries.filter fun entry =>
          entry.mac ∈ (macs.take maxAesKeyNum).filterMap macOf := by
      apply List.filter_congr
      intro entry member
      exact decide_eq_decide.mpr ⟨early entry member, taken entry.mac⟩
    rw [filters]
    exact kept

/-- A registry of one entry. -/
def sampleRegistry : List MutexSection :=
  [.update 1 sampleQuadruples, .add 1]

/-- `010203040506` -/
def sampleMacStr : Option (List UInt8) :=
  some [48, 49, 48, 50, 48, 51, 48, 52, 48, 53, 48, 54]

theorem syncExact_of_one_string :
    ∃ registry, run Registry.step (.start RepeaterAesContext.initial)
        sampleRegistry = some registry ∧
      SyncExact registry.ctx [sampleMacStr] :=
  ⟨_, rfl, (syncExact_iff_listedEarly sampleRegistry _ rfl [sampleMacStr]
    (by decide)).mpr (by decide +kernel)⟩

/-- The sixth string is not looked at. -/
theorem not_forall_syncExact :
    ¬ ∀ (sections : List MutexSection) (registry : Registry),
      run Registry.step (.start RepeaterAesContext.initial) sections =
        some registry →
      ∀ macs : List (Option (List UInt8)), macs ≠ [] →
        SyncExact registry.ctx macs := by
  intro claimed
  let macs := List.replicate 5 (some []) ++ [sampleMacStr]
  have empties : (run Registry.step (.start RepeaterAesContext.initial)
      sampleRegistry).any (fun registry => decide (
        (repeaterSyncCall registry.ctx macs).map
          (fun result => result.2.clientCount) = some 0 ∧
        (registry.ctx.entries.filter fun entry =>
          entry.mac ∈ macs.filterMap macOf).length = 1)) = true := by
    decide +kernel
  rw [Option.any_eq_true] at empties
  obtain ⟨registry, reached, facts⟩ := empties
  obtain ⟨emptied, listed⟩ := of_decide_eq_true facts
  obtain ⟨after, syncs, kept⟩ :=
    claimed sampleRegistry registry reached macs (by decide)
  have count := kept.count
  rw [syncs, Option.map_some, Option.some.injEq] at emptied
  rw [emptied, listed] at count
  exact absurd count (by decide)

/-- An update that finds its address merges into the first entry of it. -/
theorem upsertContract_of_known (holds : ctx.Holds entries) {k : Nat}
    {quadruples : Quadruples} (inside : k < entries.length)
    (finds : findMac ctx.repeaterQuadruples quadruples.mac 0 ctx.clientCount =
      some (some k))
    (isMac : entries[k].mac = quadruples.mac) :
    UpsertContract ctx quadruples := by
  have updated : (entries[k].update quadruples).mac = quadruples.mac := isMac
  have keeps : RepeaterAesContext.Holds
      { ctx with repeaterQuadruples :=
          ctx.repeaterQuadruples.set k (entries[k].update quadruples) }
      (entries.set k (entries[k].update quadruples)) :=
    ⟨by simpa using holds.count, holds.packed.set inside _⟩
  refine ⟨0, { ctx with repeaterQuadruples :=
      ctx.repeaterQuadruples.set k (entries[k].update quadruples) }, ?_,
    .inl ⟨k, entries[k].update quadruples, ?_, ?_, ?_⟩, ?_, ?_⟩
  · rw [repeaterUpdateCall, repeaterUpdateQuadruples, finds]
    simp only [Option.bind_eq_bind, Option.bind_some]
    rw [holds.packed.getElem?_eq inside, List.getElem?_eq_getElem inside]
    rfl
  · rw [keeps.entries_eq, List.getElem?_set_self inside]
  · intro old isOld
    rw [holds.entries_eq, List.getElem?_eq_getElem inside] at isOld
    exact Option.some.inj isOld ▸ isMac
  · rw [holds.entries_eq, List.getElem?_eq_getElem inside, Option.getD_some]
    exact ⟨updated, rfl, rfl, rfl⟩
  · rw [keeps.entries_eq, holds.entries_eq,
      List.set_eq_take_append_cons_drop, if_pos inside]
    conv_rhs => rw [← List.take_append_drop k entries,
      List.drop_eq_getElem_cons inside]
    rw [List.filter_append, List.filter_append]
    simp only [List.filter_cons, updated, isMac, ne_eq, not_true_eq_false,
      decide_false, Bool.false_eq_true, if_false]
  · refine iff_of_true rfl ⟨entries[k].update quadruples, ?_, updated⟩
    rw [keeps.entries_eq]
    exact List.mem_set inside _

/-- In every reachable registry an update keeps its contract if and only if the
address is known or the registry is full. -/
theorem upsertContract_iff_knownOrFull (sections : List MutexSection)
    (registry : Registry)
    (reached : run Registry.step (.start RepeaterAesContext.initial) sections =
      some registry) (quadruples : Quadruples) :
    UpsertContract registry.ctx quadruples ↔
      KnownOrFull registry.ctx quadruples := by
  obtain ⟨entries, holds⟩ := Registry.exists_holds reached
  rcases holds.findMac_eq quadruples.mac with
    ⟨k, finds, inside, isMac⟩ | ⟨finds, others⟩
  · refine iff_of_true (upsertContract_of_known holds inside finds isMac)
      (.inl ⟨entries[k], ?_, isMac⟩)
    rw [holds.entries_eq]
    exact List.getElem_mem inside
  have looksUp : repeaterUpdateQuadruples registry.ctx quadruples =
      some (false, registry.ctx) := by
    rw [repeaterUpdateQuadruples, finds]
    rfl
  by_cases full : registry.ctx.clientCount = maxAesKeyNum
  · refine iff_of_true ⟨-1, registry.ctx, ?_, .inr ⟨full, rfl⟩, rfl, ?_⟩
      (.inr full)
    · rw [repeaterUpdateCall, looksUp]
      simp only [Option.bind_eq_bind, Option.bind_some, Bool.false_eq_true,
        if_false]
      rw [repeaterAddQuadruples, if_pos full.ge]
      rfl
    · refine iff_of_false (by decide) ?_
      rintro ⟨entry, member, isMac⟩
      rw [holds.entries_eq] at member
      exact others entry member isMac
  · have room : entries.length < maxAesKeyNum := by
      have fits := holds.packed.fits
      have count := holds.count
      omega
    obtain ⟨code, after, adds, kept⟩ := holds.repeaterAddQuadruples quadruples
    rw [if_pos room] at kept
    refine iff_of_false ?_ ?_
    · rintro ⟨ret, other, returns, _, _, returned⟩
      rw [repeaterUpdateCall, looksUp] at returns
      simp only [Option.bind_eq_bind, Option.bind_some, Bool.false_eq_true,
        if_false, adds] at returns
      obtain ⟨rfl, rfl⟩ := Prod.mk.inj (Option.some.inj returns)
      have stored : ∃ entry ∈ after.entries, entry.mac = quadruples.mac := by
        refine ⟨quadruples, ?_, rfl⟩
        rw [kept.entries_eq]
        simp
      exact absurd (returned.mpr stored) (by decide)
    · rintro (⟨entry, member, isMac⟩ | isFull)
      · rw [holds.entries_eq] at member
        exact others entry member isMac
      · exact full isFull

/-- The entry of the sample registry is updated. -/
theorem upsertContract_of_sample :
    ∃ registry, run Registry.step (.start RepeaterAesContext.initial)
        sampleRegistry = some registry ∧
      UpsertContract registry.ctx sampleQuadruples :=
  ⟨_, rfl, (upsertContract_iff_knownOrFull sampleRegistry _ rfl
    sampleQuadruples).mpr (.inl ⟨sampleQuadruples, by decide +kernel, rfl⟩)⟩

/-- An address that is new to the registry is added, and -1 returned. -/
theorem not_forall_upsertContract :
    ¬ ∀ (sections : List MutexSection) (registry : Registry),
      run Registry.step (.start RepeaterAesContext.initial) sections =
        some registry →
      ∀ quadruples, UpsertContract registry.ctx quadruples := by
  intro claimed
  obtain ⟨ret, after, returns, _, _, returned⟩ :=
    claimed [] (.start RepeaterAesContext.initial) rfl sampleQuadruples
  have adds : (repeaterUpdateCall RepeaterAesContext.initial
      sampleQuadruples).all (fun result => decide (result.1 = -1 ∧
        result.2.entries = [sampleQuadruples])) = true := by
    decide +kernel
  obtain ⟨code, stores⟩ : ret = -1 ∧ after.entries = [sampleQuadruples] :=
    of_decide_eq_true ((Option.all_eq_true _ _).mp adds (ret, after) returns)
  have stored : ∃ entry ∈ after.entries, entry.mac = sampleQuadruples.mac := by
    rw [stores]
    exact ⟨sampleQuadruples, by simp, rfl⟩
  have zero := returned.mpr stored
  rw [code] at zero
  exact absurd zero (by decide)

end Calls

end RepeaterAes

end MbedtlsKcp
