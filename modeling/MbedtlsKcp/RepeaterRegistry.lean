import MbedtlsKcp.RepeaterAes
import MbedtlsKcp.TransitionRuns

/-!
# Threads on the key registry

Any number of threads take the mutex of the registry in turn.  An update is
one section or two, and between its two sections the other threads run.  Two
updates of one new mac can both find it missing and both append it; without
such an addition the registry stays free of duplicates.
-/

namespace MbedtlsKcp

namespace RepeaterAes

open AesWrapper PackedSlots TransitionRuns

/-- The sections that run under the mutex, with the thread that runs them. -/
inductive MutexSection
  | update (thread : Nat) (quadruples : Quadruples)
  | add (thread : Nat)
  | del (thread : Nat) (mac : Mac)
  | delAll (thread : Nat)
  | sync (thread : Nat) (parsedMacs : List Mac)

/-- The context, and for every thread the quadruples it has looked up without
success and not yet added. -/
structure Registry where
  ctx : RepeaterAesContext
  missing : Nat → Option Quadruples

def Registry.start (ctx : RepeaterAesContext) : Registry where
  ctx := ctx
  missing := fun _ => none

/-- One section.  A thread inside an update can only run its addition, and
only such a thread can. -/
def Registry.step (registry : Registry) :
    MutexSection → Option Registry
  | .update thread quadruples =>
      if registry.missing thread = none then do
        let (found, ctx) ← repeaterUpdateQuadruples registry.ctx quadruples
        return {
          ctx := ctx
          missing :=
            if found then registry.missing
            else Function.update registry.missing thread (some quadruples) }
      else none
  | .add thread => do
      let quadruples ← registry.missing thread
      let (_, ctx) ← repeaterAddQuadruples registry.ctx quadruples
      return {
        ctx := ctx
        missing := Function.update registry.missing thread none }
  | .del thread mac =>
      if registry.missing thread = none then do
        let (_, ctx) ← repeaterDelQuadruples registry.ctx mac
        return { registry with ctx := ctx }
      else none
  | .delAll thread =>
      if registry.missing thread = none then
        some { registry with ctx := (repeaterDelAllQuadruples registry.ctx).2 }
      else none
  | .sync thread parsedMacs =>
      if registry.missing thread = none then do
        let (_, ctx) ← repeaterSyncQuadruples registry.ctx parsedMacs
        return { registry with ctx := ctx }
      else none

/-- The macs of the first `client_count` entries are distinct, there are at
most `MAX_AES_KEY_NUM` of them, and the entries behind them are zero. -/
def RepeaterAesContext.WellFormed (ctx : RepeaterAesContext) : Prop :=
  ((ctx.repeaterQuadruples.take ctx.clientCount).map Quadruples.mac).Nodup ∧
    ctx.clientCount ≤ maxAesKeyNum ∧
    ∀ i, ctx.clientCount ≤ i → i < maxAesKeyNum →
      ctx.repeaterQuadruples[i]? = some Quadruples.zero

/-- No addition appends a mac that is registered: the registry is full or has
no entry of the mac any more. -/
def Registry.AddsNewMac (registry : Registry) : MutexSection → Prop
  | .add thread => ∀ quadruples, registry.missing thread = some quadruples →
      registry.ctx.clientCount < maxAesKeyNum →
        ∀ entry ∈
          registry.ctx.repeaterQuadruples.take registry.ctx.clientCount,
          entry.mac ≠ quadruples.mac
  | _ => True

/-- The registry holds entries with distinct macs. -/
def Registry.Distinct (registry : Registry) : Prop :=
  ∃ entries, registry.ctx.Holds entries ∧
    (entries.map Quadruples.mac).Nodup

variable {registry next : Registry} {ctx : RepeaterAesContext}
  {entries : List Quadruples}

theorem RepeaterAesContext.Holds.take_eq (holds : ctx.Holds entries) :
    ctx.repeaterQuadruples.take ctx.clientCount = entries := by
  rw [holds.count, holds.packed.take_eq]

theorem RepeaterAesContext.Holds.wellFormed_iff (holds : ctx.Holds entries) :
    ctx.WellFormed ↔ (entries.map Quadruples.mac).Nodup := by
  rw [RepeaterAesContext.WellFormed, holds.take_eq]
  refine ⟨fun wellFormed => wellFormed.1, fun distinct => ⟨distinct, ?_, ?_⟩⟩
  · rw [holds.count]
    exact holds.packed.fits
  · intro i behind inside
    rw [holds.count] at behind
    exact holds.packed.getElem?_filler behind inside

theorem Registry.Distinct.wellFormed (distinct : registry.Distinct) :
    registry.ctx.WellFormed := by
  obtain ⟨entries, holds, nodup⟩ := distinct
  exact holds.wellFormed_iff.mpr nodup

/-- What a section leaves in the registry, and what that does to distinct
macs. -/
theorem RepeaterAesContext.Holds.step (holds : registry.ctx.Holds entries)
    {label : MutexSection} (steps : registry.step label = some next) :
    ∃ left, next.ctx.Holds left ∧
      ((entries.map Quadruples.mac).Nodup →
        ((left.map Quadruples.mac).Nodup ↔ registry.AddsNewMac label)) := by
  cases label with
  | update thread quadruples =>
      obtain ⟨found, after, updated, updates, left, sameMacs, _⟩ :=
        holds.repeaterUpdateQuadruples quadruples
      rw [Registry.step, updates] at steps
      split at steps
      case isFalse => cases steps
      case isTrue =>
        obtain rfl := Option.some.inj steps
        refine ⟨updated, left, ?_⟩
        intro distinct
        rw [sameMacs]
        exact iff_of_true distinct trivial
  | add thread =>
      obtain ⟨quadruples, waits, rest⟩ := Option.bind_eq_some_iff.mp steps
      obtain ⟨ret, after, adds, left⟩ :=
        holds.repeaterAddQuadruples quadruples
      rw [adds] at rest
      obtain rfl := Option.some.inj rest
      refine ⟨_, left, ?_⟩
      intro distinct
      have isNew : registry.AddsNewMac (.add thread) ↔
          (entries.length < maxAesKeyNum →
            ∀ entry ∈ entries, entry.mac ≠ quadruples.mac) := by
        simp only [Registry.AddsNewMac, waits, holds.take_eq,
          Option.some.injEq, forall_eq']
        rw [holds.count]
      rw [isNew]
      split
      case isTrue room =>
        rw [List.map_append, List.nodup_append]
        constructor
        · rintro ⟨_, _, apart⟩ _ entry member same
          exact apart _ (List.mem_map_of_mem member) _ (by simp) same
        · intro others
          refine ⟨distinct, by simp, ?_⟩
          intro mac isMac other isOther same
          obtain ⟨entry, member, rfl⟩ := List.mem_map.mp isMac
          apply others room entry member
          simpa [same] using isOther
      case isFalse full =>
        exact iff_of_true distinct fun room => absurd room full
  | del thread mac =>
      obtain ⟨ret, after, left, deletes, kept, sublist⟩ :=
        holds.repeaterDelQuadruples mac
      rw [Registry.step, deletes] at steps
      split at steps
      case isFalse => cases steps
      case isTrue =>
        obtain rfl := Option.some.inj steps
        refine ⟨left, kept, ?_⟩
        intro distinct
        exact iff_of_true (distinct.sublist (sublist.map _)) trivial
  | delAll thread =>
      rw [Registry.step] at steps
      split at steps
      case isFalse => cases steps
      case isTrue =>
        obtain rfl := Option.some.inj steps
        exact ⟨[], holds.repeaterDelAllQuadruples,
          fun _ => iff_of_true List.nodup_nil trivial⟩
  | sync thread parsedMacs =>
      obtain ⟨after, syncs, kept⟩ := holds.repeaterSyncQuadruples parsedMacs
      rw [Registry.step, syncs] at steps
      split at steps
      case isFalse => cases steps
      case isTrue =>
        obtain rfl := Option.some.inj steps
        refine ⟨_, kept, ?_⟩
        intro distinct
        exact iff_of_true
          (distinct.sublist (List.filter_sublist.map _)) trivial

/-- The sections never leave the array: a section that a thread may run
returns. -/
theorem Registry.Distinct.step_returns (distinct : registry.Distinct) :
    (∀ thread quadruples, registry.missing thread = none →
      (registry.step (.update thread quadruples)).isSome) ∧
    (∀ thread quadruples, registry.missing thread = some quadruples →
      (registry.step (.add thread)).isSome) ∧
    (∀ thread mac, registry.missing thread = none →
      (registry.step (.del thread mac)).isSome) ∧
    (∀ thread, registry.missing thread = none →
      (registry.step (.delAll thread)).isSome) ∧
    ∀ thread parsedMacs, registry.missing thread = none →
      (registry.step (.sync thread parsedMacs)).isSome := by
  obtain ⟨entries, holds, _⟩ := distinct
  refine ⟨?_, ?_, ?_, ?_, ?_⟩
  · intro thread quadruples idle
    obtain ⟨found, after, updated, updates, _⟩ :=
      holds.repeaterUpdateQuadruples quadruples
    rw [Registry.step, if_pos idle, updates]
    rfl
  · intro thread quadruples waits
    obtain ⟨ret, after, adds, _⟩ := holds.repeaterAddQuadruples quadruples
    rw [Registry.step, waits, Option.bind_eq_bind, Option.bind_some, adds]
    rfl
  · intro thread mac idle
    obtain ⟨ret, after, left, deletes, _⟩ := holds.repeaterDelQuadruples mac
    rw [Registry.step, if_pos idle, deletes]
    rfl
  · intro thread idle
    rw [Registry.step, if_pos idle]
    rfl
  · intro thread parsedMacs idle
    obtain ⟨after, syncs, _⟩ := holds.repeaterSyncQuadruples parsedMacs
    rw [Registry.step, if_pos idle, syncs]
    rfl

/-- In every interleaving that starts from an empty registry, the registry is
well formed after every section exactly if no addition appends a mac that
another thread has registered since it was looked up. -/
theorem wellFormed_iff_addsNewMac (ctx : RepeaterAesContext)
    (empty : ctx.Holds []) (sections : List MutexSection) :
    StatesMeet Registry.step (fun registry => registry.ctx.WellFormed)
        (.start ctx) sections ↔
      StepsMeet Registry.step Registry.AddsNewMac (.start ctx) sections := by
  have stuck : ∀ (registry : Registry) (label : MutexSection),
      registry.Distinct → True → registry.step label = none →
        registry.AddsNewMac label := by
    intro registry label distinct _ stuck
    cases label with
    | add thread =>
        intro quadruples waits
        have returns := distinct.step_returns.2.1 thread quadruples waits
        rw [stuck] at returns
        cases returns
    | _ => trivial
  have keeps : ∀ (before : Registry) (label : MutexSection)
      (after : Registry), before.Distinct → True → before.AddsNewMac label →
        before.step label = some after → after.Distinct := by
    rintro before label after ⟨entries, holds, nodup⟩ _ isNew steps
    obtain ⟨left, kept, iff⟩ := holds.step steps
    exact ⟨left, kept, (iff nodup).mpr isNew⟩
  have breaks : ∀ (before : Registry) (label : MutexSection)
      (after : Registry), before.Distinct → True →
        ¬ before.AddsNewMac label → before.step label = some after →
          ¬ after.ctx.WellFormed := by
    rintro before label after ⟨entries, holds, nodup⟩ _ repeated steps
    obtain ⟨left, kept, iff⟩ := holds.step steps
    rw [kept.wellFormed_iff, iff nodup]
    exact repeated
  exact statesMeet_iff_stepsMeet (fun _ distinct => distinct.wellFormed)
    stuck keeps breaks ⟨[], empty, List.nodup_nil⟩ (stepsMeet_true _ _ _)

def sampleQuadruples : Quadruples :=
  { Quadruples.zero with mac := #v[1, 2, 3, 4, 5, 6] }

theorem initial_wellFormed_through_update :
    StatesMeet Registry.step (fun registry => registry.ctx.WellFormed)
      (.start RepeaterAesContext.initial)
      [.update 1 sampleQuadruples, .add 1] :=
  (wellFormed_iff_addsNewMac RepeaterAesContext.initial holds_initial _).mpr
    (by
      refine ⟨trivial, ?_⟩
      intro next steps
      refine ⟨?_, fun _ _ => trivial⟩
      intro quadruples waits room entry member
      obtain rfl := Option.some.inj steps
      have absent : entry ∈ ([] : List Quadruples) := member
      cases absent)

/-- Two threads look up the same new mac before either adds it. -/
theorem two_updates_register_one_mac_twice :
    ¬ ∀ ctx : RepeaterAesContext, ctx.Holds [] →
      ∀ sections : List MutexSection,
        StatesMeet Registry.step (fun registry => registry.ctx.WellFormed)
          (.start ctx) sections := by
  intro always
  have states := always RepeaterAesContext.initial holds_initial
    [.update 1 sampleQuadruples, .update 2 sampleQuadruples, .add 1, .add 2]
  have distinct := (((states.2 _ rfl).2 _ rfl).2 _ rfl).2 _ rfl
  exact absurd distinct.1 (by decide +kernel)

end RepeaterAes

end MbedtlsKcp
