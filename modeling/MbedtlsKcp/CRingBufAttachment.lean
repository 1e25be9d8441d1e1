import MbedtlsKcp.CRingBufSystem

/-!
# Consumer slots are exclusive

A live reader owns the slot of its `m_userIdx` as long as no writer is attached
after it.  Slots change hands in constructors only; a constructor that finds the
ring crowded cleans the slots of readers that are still alive, and one that runs
after a writer was attached may choose the slot number of a reader whose slot
that writer has cleaned.
-/

namespace MbedtlsKcp

namespace CRingBuf

open FallibleSteps TransitionRuns

/-- A live user, and whether no writer was attached to the ring after it. -/
structure Owner where
  handle : Nat
  name : UserName
  attached : Bool
  deriving DecidableEq

/-- A ring with its live users. -/
structure Registry where
  system : System
  owners : List Owner

namespace Registry

variable (r : Registry)

/-- A constructor under `handle` attaches to this ring. -/
def attaches (handle : Nat) : Prop :=
  r.system.linked = true ∧ r.system.objects handle = none

instance (handle : Nat) : Decidable (r.attaches handle) :=
  inferInstanceAs (Decidable (_ ∧ _))

/-- The live users after a call. -/
def register : Call → List Owner
  | .attachReader handle name _ =>
      if r.attaches handle then ⟨handle, name, true⟩ :: r.owners
      else r.owners
  | .attachWriter handle name _ =>
      if r.attaches handle then
        ⟨handle, name, true⟩ ::
          r.owners.map fun owner => { owner with attached := false }
      else r.owners
  | .destroy handle => r.owners.filter fun owner => owner.handle ≠ handle
  | _ => r.owners

def next (call : Call) : Option Registry :=
  (r.system.next call).map fun system => ⟨system, r.register call⟩

/-- Users have names that differ from those of the other live users. -/
def distinctName (call : Call) : Prop :=
  ∀ name ∈ call.userName, ∀ owner ∈ r.owners, owner.name ≠ name

instance (call : Call) : Decidable (r.distinctName call) :=
  inferInstanceAs (Decidable (∀ name ∈ call.userName, _))

/-- No two live readers share a slot, and the slot of a live reader has its
name. -/
structure Exclusive : Prop where
  apart : ∀ handle handle' obj obj', handle ≠ handle' →
    r.system.reader handle = some obj →
    r.system.reader handle' = some obj' → obj.m_userIdx ≠ obj'.m_userIdx
  named : ∀ owner ∈ r.owners, owner.attached = true →
    ∀ obj, r.system.reader owner.handle = some obj →
      (r.system.info.consumers obj.m_userIdx).name = owner.name

/-- The first free slot. -/
def FirstFree (info : RingBufInfo) (slot : Nat) : Prop :=
  slot < MAX_CONSUMER_NUM ∧ (info.consumers slot).name = [] ∧
    ∀ i < slot, (info.consumers i).name ≠ []

/-- A reader is constructed while fewer than ten users are installed, and the
first free slot is not that of a live reader. -/
def spares : Call → Prop
  | .attachReader handle name _ =>
      RingBufInfo.validName name → r.attaches handle →
        r.system.info.getIntalledUserNum < 10 ∧
          ∀ slot, FirstFree r.system.info slot →
            ∀ handle' obj, r.system.reader handle' = some obj →
              obj.m_userIdx ≠ slot
  | _ => True

/-- What holds between the slots and the live users. -/
structure Attachment : Prop where
  exclusive : r.Exclusive
  live : ∀ owner ∈ r.owners, r.system.objects owner.handle ≠ none
  slots : ∀ i, (r.system.info.consumers i).name ≠ [] →
    ∃ owner ∈ r.owners, owner.attached = true ∧
      owner.name = (r.system.info.consumers i).name ∧
      ∃ obj, r.system.reader owner.handle = some obj ∧ obj.m_userIdx = i
  bounded : ∀ handle obj, r.system.reader handle = some obj →
    obj.m_userIdx < MAX_CONSUMER_NUM
  unused : r.system.info.version = 0 → r.system.info.NoUsers

/-- A ring before its first user. -/
def fresh (bufSize now : Nat) (data : Nat → UInt8) : Registry :=
  ⟨freshSystem bufSize now data, []⟩

theorem attachment_fresh (bufSize now : Nat) (data : Nat → UInt8) :
    (fresh bufSize now data).Attachment where
  exclusive := by
    constructor
    · intro handle handle' obj obj' _ found
      cases found
    · intro owner member
      cases member
  live := by
    intro owner member
    cases member
  slots i used := absurd rfl used
  bounded := by
    intro handle obj found
    cases found
  unused _ := ⟨fun _ => rfl, rfl⟩

section Steps

variable {r : Registry}

/-- Calls that keep the users of the ring keep the attachment. -/
theorem Attachment.keepsUsers {system : System} (attachment : r.Attachment)
    (keeps : r.system.KeepsUsers system) :
    Attachment ⟨system, r.owners⟩ := by
  have readers : ∀ handle obj', system.reader handle = some obj' →
      ∃ obj, r.system.reader handle = some obj ∧
        obj'.m_userIdx = obj.m_userIdx := by
    intro handle obj' found
    rw [System.reader_eq_some_iff] at found
    obtain ⟨obj, foundBefore, same⟩ := keeps.objects handle obj' found.1
    exact ⟨obj, System.reader_eq_some_iff.mpr
      ⟨foundBefore, same.1.symm.trans found.2⟩, same.2⟩
  constructor
  · constructor
    · intro handle handle' obj obj' different found found'
      obtain ⟨before, foundBefore, same⟩ := readers _ _ found
      obtain ⟨before', foundBefore', same'⟩ := readers _ _ found'
      rw [same, same']
      exact attachment.exclusive.apart handle handle' before before' different
        foundBefore foundBefore'
    · intro owner member attached obj found
      obtain ⟨before, foundBefore, same⟩ := readers _ _ found
      rw [same, keeps.info.names]
      exact attachment.exclusive.named owner member attached before foundBefore
  · intro owner member gone
    exact attachment.live owner member ((keeps.others _).mpr gone)
  · intro i used
    rw [keeps.info.names] at used
    obtain ⟨owner, member, attached, named, obj, found, atSlot⟩ :=
      attachment.slots i used
    refine ⟨owner, member, attached, named.trans (keeps.info.names i).symm, ?_⟩
    rw [System.reader_eq_some_iff] at found
    cases now : system.objects owner.handle with
    | none => exact absurd ((keeps.others _).mpr now) (by simp [found.1])
    | some obj' =>
        obtain ⟨before, foundBefore, same⟩ := keeps.objects _ _ now
        rw [found.1] at foundBefore
        obtain rfl := Option.some.inj foundBefore
        exact ⟨obj', System.reader_eq_some_iff.mpr
          ⟨now, same.1.trans found.2⟩, same.2.trans atSlot⟩
  · intro handle obj found
    obtain ⟨before, foundBefore, same⟩ := readers _ _ found
    rw [same]
    exact attachment.bounded handle before foundBefore
  · intro version
    rw [keeps.info.version] at version
    have unused := attachment.unused version
    exact ⟨fun i => (keeps.info.names i).trans (unused.consumers i),
      keeps.info.productorName.trans unused.productor⟩

/-- A reader takes the first free slot of the ring it finds. -/
theorem Attachment.constructReader_ok {after : RingBufInfo} {obj : Object}
    {name : UserName} {dumper : Bool} (attachment : r.Attachment)
    (distinct : ∀ owner ∈ r.owners, owner.name ≠ name)
    (constructs : r.system.info.constructReader name dumper =
      .ok (after, obj)) :
    name ≠ [] ∧ ∃ slot, obj = newObject false slot ∧
      ∃ cleaned : RingBufInfo,
        cleaned = { r.system.info with version := 1 }.cleanWhenCrowded ∧
        FirstFree cleaned slot ∧ (after.consumers slot).name = name ∧
        (∀ i, i ≠ slot → after.consumers i = cleaned.consumers i) ∧
        after.version = 1 := by
  obtain ⟨valid, slot, rfl, installs⟩ :=
    RingBufInfo.constructReader_ok constructs
  obtain ⟨inside, rfl, chosen⟩ := RingBufInfo.installReader_ok installs
  refine ⟨valid.1, slot, rfl, _, rfl, ?_, ?_, ?_, ?_⟩
  · rcases chosen with named | ⟨_, free, before⟩
    · -- a slot with the name would belong to another live user
      have kept : (r.system.info.consumers slot).name = name := by
        unfold RingBufInfo.cleanWhenCrowded at named
        split at named
        · rw [RingBufInfo.cleanAllConsumer_name _ inside] at named
          exact absurd named.symm valid.1
        · exact named
      obtain ⟨owner, member, _, isName, _⟩ :=
        attachment.slots slot (by rw [kept]; exact valid.1)
      exact absurd (isName.trans kept) (distinct owner member)
    · exact ⟨inside, free, before⟩
  · simp [RingBufInfo.installed, RingBufInfo.installedUser]
  · intro i different
    simp [RingBufInfo.installed, different]
  · change RingBufInfo.version (RingBufInfo.cleanWhenCrowded _) = 1
    unfold RingBufInfo.cleanWhenCrowded
    split
    · rfl
    · rfl

/-- While the ring is not crowded, a reader whose slot no live reader has
leaves the attachment intact. -/
theorem Attachment.attachReader {after : RingBufInfo} {obj : Object}
    {handle : Nat} {name : UserName} {dumper : Bool}
    (attachment : r.Attachment) (attaches : r.attaches handle)
    (distinct : ∀ owner ∈ r.owners, owner.name ≠ name)
    (spares : r.spares (.attachReader handle name dumper))
    (constructs : r.system.info.constructReader name dumper =
      .ok (after, obj)) :
    Attachment ⟨r.system.afterCall handle after obj,
      ⟨handle, name, true⟩ :: r.owners⟩ := by
  obtain ⟨nonempty, slot, rfl, cleaned, isCleaned, free, named, others,
    version⟩ := attachment.constructReader_ok distinct constructs
  obtain ⟨roomy, unshared⟩ :=
    spares (RingBufInfo.constructReader_ok constructs).1 attaches
  have unchanged : cleaned = { r.system.info with version := 1 } := by
    rw [isCleaned, RingBufInfo.cleanWhenCrowded]
    exact if_neg (Nat.not_le_of_lt roomy)
  subst unchanged
  have slotFree := unshared slot free
  have others : ∀ i, i ≠ slot →
      after.consumers i = r.system.info.consumers i := others
  have here : (r.system.afterCall handle after
      (newObject false slot)).reader handle = some (newObject false slot) :=
    System.reader_eq_some_iff.mpr ⟨System.afterCall_self, rfl⟩
  have elsewhere : ∀ handle', handle' ≠ handle →
      (r.system.afterCall handle after (newObject false slot)).reader handle' =
        r.system.reader handle' :=
    fun _ different => System.reader_afterCall_of_ne different
  have older : ∀ owner ∈ r.owners, owner.handle ≠ handle := by
    intro owner member same
    exact attachment.live owner member (same ▸ attaches.2)
  constructor
  · constructor
    · intro first second obj obj' different found found'
      by_cases isFirst : first = handle
      · have isSecond : second ≠ handle := fun same =>
          different (isFirst.trans same.symm)
        rw [isFirst, here] at found
        rw [elsewhere second isSecond] at found'
        obtain rfl := Option.some.inj found
        exact (slotFree second obj' found').symm
      · rw [elsewhere first isFirst] at found
        by_cases isSecond : second = handle
        · rw [isSecond, here] at found'
          obtain rfl := Option.some.inj found'
          exact slotFree first obj found
        · rw [elsewhere second isSecond] at found'
          exact attachment.exclusive.apart first second obj obj' different
            found found'
    · intro owner member attached obj found
      rcases List.mem_cons.mp member with rfl | old
      · rw [here] at found
        obtain rfl := Option.some.inj found
        exact named
      · rw [elsewhere owner.handle (older owner old)] at found
        have kept := others obj.m_userIdx (slotFree owner.handle obj found)
        change (after.consumers obj.m_userIdx).name = owner.name
        rw [kept]
        exact attachment.exclusive.named owner old attached obj found
  · intro owner member
    rcases List.mem_cons.mp member with rfl | old
    · simp
    · rw [System.afterCall_of_ne (older owner old)]
      exact attachment.live owner old
  · intro i used
    by_cases isSlot : i = slot
    · subst i
      exact ⟨_, List.mem_cons_self, rfl, named.symm, _, here, rfl⟩
    · change (after.consumers i).name ≠ [] at used
      rw [others i isSlot] at used
      obtain ⟨owner, member, attached, isName, obj, found, atSlot⟩ :=
        attachment.slots i used
      refine ⟨owner, List.mem_cons_of_mem _ member, attached, ?_, obj, ?_,
        atSlot⟩
      · change owner.name = (after.consumers i).name
        rw [others i isSlot, isName]
      · rw [elsewhere owner.handle (older owner member), found]
  · intro handle' obj found
    by_cases same : handle' = handle
    · rw [same, here] at found
      obtain rfl := Option.some.inj found
      exact free.1
    · rw [elsewhere handle' same] at found
      exact attachment.bounded handle' obj found
  · intro isZero
    rw [System.afterCall_info, version] at isZero
    cases isZero

/-- Cleaning a crowded ring takes the slot of a live reader away, and a shared
slot belongs to two readers at once. -/
theorem Attachment.not_exclusive_attachReader {after : RingBufInfo}
    {obj : Object} {handle : Nat} {name : UserName} {dumper : Bool}
    (attachment : r.Attachment) (attaches : r.attaches handle)
    (distinct : ∀ owner ∈ r.owners, owner.name ≠ name)
    (unspared : ¬ r.spares (.attachReader handle name dumper))
    (constructs : r.system.info.constructReader name dumper =
      .ok (after, obj)) :
    ¬ Exclusive ⟨r.system.afterCall handle after obj,
      ⟨handle, name, true⟩ :: r.owners⟩ := by
  intro exclusive
  obtain ⟨nonempty, slot, rfl, cleaned, isCleaned, free, named, others, _⟩ :=
    attachment.constructReader_ok distinct constructs
  have here : (r.system.afterCall handle after
      (newObject false slot)).reader handle = some (newObject false slot) :=
    System.reader_eq_some_iff.mpr ⟨System.afterCall_self, rfl⟩
  have still : ∀ handle' obj, r.system.reader handle' = some obj →
      handle' ≠ handle ∧ (r.system.afterCall handle after
        (newObject false slot)).reader handle' = some obj := by
    intro handle' obj found
    have found := System.reader_eq_some_iff.mp found
    have different : handle' ≠ handle := by
      rintro rfl
      rw [attaches.2] at found
      cases found.1
    exact ⟨different, System.reader_eq_some_iff.mpr
      ⟨(System.afterCall_of_ne different).trans found.1, found.2⟩⟩
  by_cases crowded :
      10 ≤ RingBufInfo.getIntalledUserNum { r.system.info with version := 1 }
  · have isCleaned : cleaned =
        RingBufInfo.cleanAllConsumer { r.system.info with version := 1 } := by
      rw [isCleaned, RingBufInfo.cleanWhenCrowded, if_pos crowded]
    have other : ∃ i ∈ r.system.info.validConsumers, i ≠ slot := by
      apply Classical.byContradiction
      intro alone
      have only : r.system.info.validConsumers.Subset [slot] := by
        intro i member
        apply List.mem_singleton.mpr
        apply Classical.byContradiction
        intro different
        exact alone ⟨i, member, different⟩
      have distinct : r.system.info.validConsumers.Nodup :=
        List.nodup_range.filter _
      have short := distinct.length_le_of_subset only
      have counted : RingBufInfo.getIntalledUserNum
          { r.system.info with version := 1 } ≤
            1 + r.system.info.validConsumers.length := by
        refine Nat.add_le_add_right ?_ _
        split <;> omega
      rw [List.length_singleton] at short
      omega
    obtain ⟨i, valid, different⟩ := other
    have valid := RingBufInfo.mem_validConsumers.mp valid
    obtain ⟨owner, member, attached, isName, obj, found, rfl⟩ :=
      attachment.slots i valid.2
    have kept := exclusive.named owner (List.mem_cons_of_mem _ member) attached
      obj (still _ _ found).2
    change (after.consumers obj.m_userIdx).name = owner.name at kept
    rw [others _ different, isCleaned,
      RingBufInfo.cleanAllConsumer_name _ valid.1, isName] at kept
    exact valid.2 kept.symm
  · have unchanged : cleaned = { r.system.info with version := 1 } := by
      rw [isCleaned, RingBufInfo.cleanWhenCrowded, if_neg crowded]
    subst unchanged
    apply unspared
    intro _ _
    refine ⟨Nat.lt_of_not_le crowded, ?_⟩
    intro slot' free' handle' obj found same
    have equal : slot' = slot := by
      rcases Nat.lt_trichotomy slot' slot with before | same | behind
      · exact absurd free'.2.1 (free.2.2 slot' before)
      · exact same
      · exact absurd free.2.1 (free'.2.2 slot behind)
    obtain ⟨different, found⟩ := still handle' obj found
    exact exclusive.apart handle' handle obj _ different found here
      (same.trans equal)

/-- A writer detaches all readers. -/
theorem Attachment.attachWriter {after : RingBufInfo} {handle : Nat}
    {name : UserName} {liveStream : Bool} (attachment : r.Attachment)
    (attaches : r.attaches handle)
    (installed :
      r.system.info.WriterInstalled after name liveStream) :
    Attachment ⟨r.system.afterCall handle after (newObject true 0),
      ⟨handle, name, true⟩ ::
        r.owners.map fun owner => { owner with attached := false }⟩ := by
  have readers : ∀ handle' obj, (r.system.afterCall handle after
      (newObject true 0)).reader handle' = some obj →
        handle' ≠ handle ∧ r.system.reader handle' = some obj := by
    intro handle' obj found
    rw [System.reader_eq_some_iff] at found
    have different : handle' ≠ handle := by
      rintro rfl
      rw [System.afterCall_self] at found
      obtain rfl := Option.some.inj found.1
      cases found.2
    rw [System.afterCall_of_ne different] at found
    exact ⟨different, System.reader_eq_some_iff.mpr found⟩
  constructor
  · constructor
    · intro first second obj obj' different found found'
      exact attachment.exclusive.apart first second obj obj' different
        (readers _ _ found).2 (readers _ _ found').2
    · intro owner member attached obj found
      rcases List.mem_cons.mp member with rfl | old
      · exact absurd rfl (readers _ _ found).1
      · obtain ⟨before, _, rfl⟩ := List.mem_map.mp old
        cases attached
  · intro owner member
    rcases List.mem_cons.mp member with rfl | old
    · simp
    · obtain ⟨before, oldMember, rfl⟩ := List.mem_map.mp old
      have alive := attachment.live before oldMember
      have different : before.handle ≠ handle := by
        intro same
        exact alive (same ▸ attaches.2)
      rw [System.afterCall_of_ne different]
      exact alive
  · intro i used
    rw [System.afterCall_info] at used
    by_cases inside : i < MAX_CONSUMER_NUM
    · exact absurd (installed.free i inside) used
    · rw [installed.others i (Nat.le_of_not_lt inside)] at used
      obtain ⟨_, _, _, _, obj, found, rfl⟩ := attachment.slots i used
      exact absurd (attachment.bounded _ obj found) inside
  · intro handle' obj found
    exact attachment.bounded handle' obj (readers _ _ found).2
  · intro isZero
    rw [System.afterCall_info, installed.version] at isZero
    cases isZero

/-- A destructor clears the slot of its own user only. -/
theorem Attachment.destroy (attachment : r.Attachment) (handle : Nat) :
    Attachment ⟨r.system.destroy handle,
      r.owners.filter fun owner => owner.handle ≠ handle⟩ := by
  cases found : r.system.objects handle with
  | none =>
      have all : (r.owners.filter fun owner =>
          decide (owner.handle ≠ handle)) = r.owners := by
        apply List.filter_eq_self.mpr
        intro owner member
        apply decide_eq_true
        intro same
        exact attachment.live owner member (same ▸ found)
      rw [System.destroy_of_none found, all]
      exact attachment
  | some obj =>
      have remains : ∀ owner, owner ∈ (r.owners.filter fun owner =>
          decide (owner.handle ≠ handle)) ↔
            owner ∈ r.owners ∧ owner.handle ≠ handle := by
        intro owner
        rw [List.mem_filter, decide_eq_true_eq]
      have header := System.info_destroy found
      have slotOf : obj.isProductor = false →
          r.system.reader handle = some obj :=
        fun reads => System.reader_eq_some_iff.mpr ⟨found, reads⟩
      constructor
      · constructor
        · intro first second obj' obj'' different found' found''
          exact attachment.exclusive.apart first second obj' obj'' different
            (System.reader_destroy.mp found').2
            (System.reader_destroy.mp found'').2
        · intro owner member attached obj' found'
          obtain ⟨different, before⟩ := System.reader_destroy.mp found'
          change ((r.system.destroy handle).info.consumers
            obj'.m_userIdx).name = owner.name
          rw [header, RingBufInfo.destroyObject_of_ne _ fun reads =>
            attachment.exclusive.apart owner.handle handle obj' obj different
              before (slotOf reads)]
          exact attachment.exclusive.named owner ((remains owner).mp member).1
            attached obj' before
      · intro owner member
        obtain ⟨old, different⟩ := (remains owner).mp member
        rw [System.objects_destroy, if_neg different]
        exact attachment.live owner old
      · intro i used
        rw [header] at used
        have elsewhere := RingBufInfo.destroyObject_used _ used
        have kept := RingBufInfo.destroyObject_of_ne r.system.info elsewhere
        rw [kept] at used
        obtain ⟨owner, member, attached, isName, obj', found', rfl⟩ :=
          attachment.slots i used
        have different : owner.handle ≠ handle := by
          intro same
          rw [same, System.reader_eq_some_iff, found] at found'
          obtain rfl := Option.some.inj found'.1
          exact elsewhere found'.2 rfl
        refine ⟨owner, (remains owner).mpr ⟨member, different⟩, attached, ?_,
          obj', System.reader_destroy.mpr ⟨different, found'⟩, rfl⟩
        rw [header, kept, isName]
      · intro handle' obj' found'
        exact attachment.bounded handle' obj'
          (System.reader_destroy.mp found').2
      · intro isZero
        rw [header] at isZero ⊢
        rw [RingBufInfo.version_destroyObject] at isZero
        exact (attachment.unused isZero).destroyObject obj

theorem next_eq_some {after : Registry} {call : Call}
    (steps : r.next call = some after) :
    ∃ answer, r.system.step call = .ok (after.system, answer) ∧
      after = ⟨after.system, r.register call⟩ := by
  obtain ⟨system, returns, rfl⟩ := Option.map_eq_some_iff.mp steps
  obtain ⟨answer, returns⟩ := System.next_eq_some_iff.mp returns
  exact ⟨answer, returns, rfl⟩

theorem construct_ok {system : System} {answer : Answer} {handle : Nat}
    {constructor : RingBufInfo → Except Fault (RingBufInfo × Object)}
    (returns : r.system.construct handle constructor =
      .ok (system, answer)) :
    (¬ r.attaches handle ∧ system = r.system) ∨
      r.attaches handle ∧ ∃ info obj,
        constructor r.system.info = .ok (info, obj) ∧
        system = r.system.afterCall handle info obj :=
  System.construct_ok returns

/-- While slots are spared, every call keeps the attachment. -/
theorem Attachment.next {after : Registry} {call : Call}
    (attachment : r.Attachment) (distinct : r.distinctName call)
    (spares : r.spares call) (steps : r.next call = some after) :
    after.Attachment := by
  obtain ⟨answer, returns, isAfter⟩ := next_eq_some steps
  rw [isAfter]
  by_cases changes : call.changesUsers
  swap
  · have same : r.register call = r.owners := by
      cases call <;> first | rfl | exact absurd trivial changes
    rw [same]
    exact attachment.keepsUsers (System.keepsUsers_step returns changes)
  cases call with
  | attachReader handle name dumper =>
      rw [System.step] at returns
      rcases construct_ok returns with
        ⟨detached, same⟩ | ⟨attaches, info, obj, constructs, same⟩
      · rw [register, if_neg detached, same]
        exact attachment
      · rw [register, if_pos attaches, same]
        exact attachment.attachReader attaches (distinct name rfl) spares
          constructs
  | attachWriter handle name liveStream =>
      rw [System.step] at returns
      rcases construct_ok returns with
        ⟨detached, same⟩ | ⟨attaches, info, obj, constructs, same⟩
      · rw [register, if_neg detached, same]
        exact attachment
      · rw [register, if_pos attaches, same]
        by_cases valid : RingBufInfo.validName name
        · obtain ⟨installed, returns', installs⟩ :=
            RingBufInfo.constructWriter_returns r.system.info r.system.now
              liveStream valid attachment.unused
          rw [returns'] at constructs
          obtain ⟨rfl, rfl⟩ := Prod.mk.inj (Except.ok.inj constructs)
          exact attachment.attachWriter attaches installs
        · rw [RingBufInfo.constructWriter, if_neg valid] at constructs
          cases constructs
  | destroy handle =>
      obtain ⟨same, _⟩ := Prod.mk.inj (Except.ok.inj returns)
      rw [← same]
      exact attachment.destroy handle
  | _ => cases changes

/-- Every other construction of a reader makes two live readers share a slot or
takes the slot of one away. -/
theorem Attachment.not_exclusive_next {after : Registry} {call : Call}
    (attachment : r.Attachment) (distinct : r.distinctName call)
    (unspared : ¬ r.spares call) (steps : r.next call = some after) :
    ¬ after.Exclusive := by
  obtain ⟨answer, returns, isAfter⟩ := next_eq_some steps
  cases call with
  | attachReader handle name dumper =>
      rw [System.step] at returns
      rcases construct_ok returns with
        ⟨detached, same⟩ | ⟨attaches, info, obj, constructs, same⟩
      · exact absurd (fun _ attaches => absurd attaches detached) unspared
      · rw [isAfter, register, if_pos attaches, same]
        exact attachment.not_exclusive_attachReader attaches
          (distinct name rfl) unspared constructs
  | _ => exact absurd trivial unspared

/-- A constructor that fails was given an invalid name. -/
theorem spares_of_next_eq_none {call : Call} (stuck : r.next call = none) :
    r.spares call := by
  cases call with
  | attachReader handle name dumper =>
      intro valid attaches
      obtain ⟨after, obj, constructs⟩ :=
        r.system.info.constructReader_returns dumper valid
      have returns : r.system.next (.attachReader handle name dumper) =
          some (r.system.afterCall handle after obj) := by
        have attaches : r.system.linked = true ∧
            r.system.objects handle = none := attaches
        rw [System.next, System.step, System.construct, if_pos attaches,
          constructs]
        rfl
      rw [next, returns] at stuck
      cases stuck
  | _ => trivial

end Steps

/-- Slots are exclusive in a run with distinct user names exactly as long as
readers are constructed while fewer than ten users are installed and no live
reader has the first free slot. -/
theorem exclusive_iff_spares (bufSize now : Nat) (data : Nat → UInt8)
    (calls : List Call)
    (distinct :
      StepsMeet next distinctName (fresh bufSize now data) calls) :
    StatesMeet next Exclusive (fresh bufSize now data) calls ↔
      StepsMeet next spares (fresh bufSize now data) calls := by
  have implies : ∀ r : Registry, r.Attachment → r.Exclusive :=
    fun _ attachment => attachment.exclusive
  have stuck : ∀ (r : Registry) (call : Call), r.Attachment →
      r.distinctName call → r.next call = none → r.spares call :=
    fun _ _ _ _ stops => spares_of_next_eq_none stops
  have keeps : ∀ (before : Registry) (call : Call) (after : Registry),
      before.Attachment → before.distinctName call → before.spares call →
        before.next call = some after → after.Attachment :=
    fun _ _ _ attachment distinct spares steps =>
      attachment.next distinct spares steps
  have breaks : ∀ (before : Registry) (call : Call) (after : Registry),
      before.Attachment → before.distinctName call → ¬ before.spares call →
        before.next call = some after → ¬ after.Exclusive :=
    fun _ _ _ attachment distinct unspared steps =>
      attachment.not_exclusive_next distinct unspared steps
  exact statesMeet_iff_stepsMeet implies stuck keeps breaks
    (attachment_fresh bufSize now data) distinct

/-- The first reader of a new ring has a slot of its own. -/
theorem exclusive_one_reader :
    StatesMeet next Exclusive (fresh 4096 1 fun _ => 0)
      [.attachReader 0 [0x61] false] :=
  (exclusive_iff_spares 4096 1 _ _ (by decide)).mpr
    ⟨fun _ _ => ⟨by decide, fun _ _ _ _ found => nomatch found⟩,
      fun _ _ => trivial⟩

/-- With a writer and nine readers the next reader shares slot 0 with the
first one. -/
theorem not_forall_exclusive :
    ¬ ∀ (bufSize now : Nat) (data : Nat → UInt8) (calls : List Call),
      StepsMeet next distinctName (fresh bufSize now data) calls →
        StatesMeet next Exclusive (fresh bufSize now data) calls := by
  intro claimed
  have states := claimed 4096 1 (fun _ => 0)
    (.attachWriter 0 [0x57] false ::
      (List.range 10).map fun i =>
        .attachReader (i + 1) [0x61 + UInt8.ofNat i] false)
    (by decide +kernel)
  have shared : ((run next (fresh 4096 1 fun _ => 0)
      (.attachWriter 0 [0x57] false ::
        (List.range 10).map fun i =>
          .attachReader (i + 1) [0x61 + UInt8.ofNat i] false)).map fun r =>
      ((r.system.reader 1).map Object.m_userIdx,
        (r.system.reader 10).map Object.m_userIdx)) =
      some (some 0, some 0) := by
    decide +kernel
  obtain ⟨last, runs, slots⟩ := Option.map_eq_some_iff.mp shared
  obtain ⟨first, second⟩ := Prod.mk.inj slots
  obtain ⟨obj, found, slot⟩ := Option.map_eq_some_iff.mp first
  obtain ⟨obj', found', slot'⟩ := Option.map_eq_some_iff.mp second
  exact (states.last runs).apart 1 10 obj obj' (by decide) found found'
    (slot.trans slot'.symm)

end Registry

end CRingBuf

end MbedtlsKcp
