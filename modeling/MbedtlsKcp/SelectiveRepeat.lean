import Mathlib.Data.Set.Insert
import Mathlib.Logic.Relation

/-!
# Selective repeat over an unreliable network

A sender numbers items, keeps each of them until it is acknowledged and may
transmit it any number of times; a receiver collects the items in any order
and hands them on in the order of their numbers.  The network loses, repeats
and reorders: whatever has once been sent may arrive at any later time, any
number of times, or never.  Items are acknowledged one by one and by the
number below which nothing is missing.  What the sender has stopped to keep
has been received, and what the receiver has collected in order is the
beginning of what has been numbered.
-/

namespace MbedtlsKcp

namespace SelectiveRepeat

/-- Both ends of one direction and what is in the network. -/
structure State (Item : Type*) where
  /-- The items in the order of their numbers. -/
  log : List Item := []
  /-- The numbers the sender still keeps. -/
  waiting : Set Nat := ∅
  /-- What has been transmitted. -/
  sent : Set (Nat × Item) := ∅
  /-- The items collected in order. -/
  received : List Item := []
  /-- The items collected ahead of a missing one. -/
  early : Set (Nat × Item) := ∅
  /-- The numbers that have been acknowledged one by one. -/
  acks : Set Nat := ∅
  /-- The numbers below which everything has been acknowledged. -/
  limits : Set Nat := ∅

variable {Item : Type*}

/-- The receiver has the item with a number. -/
def State.Has (s : State Item) (number : Nat) : Prop :=
  number < s.received.length ∨ ∃ item, (number, item) ∈ s.early

/-- One step of the sender, of the receiver or of the network between them. -/
inductive Step : State Item → State Item → Prop
  | number (s : State Item) (item : Item) :
      Step s { s with
        log := s.log ++ [item], waiting := insert s.log.length s.waiting }
  | transmit (s : State Item) {number : Nat} {item : Item}
      (kept : number ∈ s.waiting) (numbered : s.log[number]? = some item) :
      Step s { s with sent := insert (number, item) s.sent }
  | collect (s : State Item) {number : Nat} {item : Item}
      (arrives : (number, item) ∈ s.sent)
      (ahead : s.received.length ≤ number) :
      Step s { s with early := insert (number, item) s.early }
  | order (s : State Item) {item : Item}
      (next : (s.received.length, item) ∈ s.early) :
      Step s { s with
        received := s.received ++ [item]
        early := {entry ∈ s.early | entry.1 ≠ s.received.length} }
  | acknowledge (s : State Item) {number : Nat} (has : s.Has number) :
      Step s { s with acks := insert number s.acks }
  | announce (s : State Item) :
      Step s { s with limits := insert s.received.length s.limits }
  | forget (s : State Item) {number : Nat} (acknowledged : number ∈ s.acks) :
      Step s { s with waiting := {kept ∈ s.waiting | kept ≠ number} }
  | forgetBelow (s : State Item) {limit : Nat} (announced : limit ∈ s.limits) :
      Step s { s with waiting := {kept ∈ s.waiting | limit ≤ kept} }

/-- Any number of steps. -/
abbrev Steps : State Item → State Item → Prop :=
  Relation.ReflTransGen Step

/-- Only the sender has made steps. -/
structure SenderOnly (s t : State Item) : Prop where
  steps : Steps s t
  received : t.received = s.received
  early : t.early = s.early
  acks : t.acks = s.acks
  limits : t.limits = s.limits

/-- Only the receiver has made steps. -/
structure ReceiverOnly (s t : State Item) : Prop where
  steps : Steps s t
  log : t.log = s.log
  waiting : t.waiting = s.waiting
  sent : t.sent = s.sent

section Ends

variable {s t u : State Item}

theorem SenderOnly.refl (s : State Item) : SenderOnly s s :=
  ⟨.refl, rfl, rfl, rfl, rfl⟩

theorem SenderOnly.trans (first : SenderOnly s t) (second : SenderOnly t u) :
    SenderOnly s u :=
  ⟨first.steps.trans second.steps, second.received.trans first.received,
    second.early.trans first.early, second.acks.trans first.acks,
    second.limits.trans first.limits⟩

theorem ReceiverOnly.refl (s : State Item) : ReceiverOnly s s :=
  ⟨.refl, rfl, rfl, rfl⟩

theorem ReceiverOnly.trans (first : ReceiverOnly s t)
    (second : ReceiverOnly t u) : ReceiverOnly s u :=
  ⟨first.steps.trans second.steps, second.log.trans first.log,
    second.waiting.trans first.waiting, second.sent.trans first.sent⟩

theorem senderOnly_number (s : State Item) (item : Item) :
    SenderOnly s { s with
      log := s.log ++ [item], waiting := insert s.log.length s.waiting } :=
  ⟨.single (.number s item), rfl, rfl, rfl, rfl⟩

theorem senderOnly_forget (s : State Item) {number : Nat}
    (acknowledged : number ∈ s.acks) :
    SenderOnly s { s with waiting := {kept ∈ s.waiting | kept ≠ number} } :=
  ⟨.single (.forget s acknowledged), rfl, rfl, rfl, rfl⟩

theorem senderOnly_forgetBelow (s : State Item) {limit : Nat}
    (announced : limit ∈ s.limits) :
    SenderOnly s { s with waiting := {kept ∈ s.waiting | limit ≤ kept} } :=
  ⟨.single (.forgetBelow s announced), rfl, rfl, rfl, rfl⟩

/-- The sender may transmit all it keeps. -/
theorem exists_transmitted (s : State Item) (entries : List (Nat × Item))
    (kept : ∀ entry ∈ entries,
      entry.1 ∈ s.waiting ∧ s.log[entry.1]? = some entry.2) :
    ∃ sent, SenderOnly s { s with sent } ∧ s.sent ⊆ sent ∧
      ∀ entry ∈ entries, entry ∈ sent := by
  induction entries with
  | nil => exact ⟨s.sent, .refl s, subset_rfl, by simp⟩
  | cons entry entries ih =>
      obtain ⟨first, others⟩ := List.forall_mem_cons.mp kept
      obtain ⟨sent, steps, more, all⟩ := ih others
      have next : SenderOnly { s with sent }
          { s with sent := insert entry sent } :=
        ⟨.single (.transmit { s with sent } first.1 first.2),
          rfl, rfl, rfl, rfl⟩
      exact ⟨insert entry sent, steps.trans next,
        more.trans (Set.subset_insert _ _), by
          intro other member
          rcases List.mem_cons.mp member with rfl | member
          · exact Set.mem_insert _ _
          · exact Set.mem_insert_of_mem _ (all other member)⟩

theorem receiverOnly_collect (s : State Item) {number : Nat} {item : Item}
    (arrives : (number, item) ∈ s.sent) (ahead : s.received.length ≤ number) :
    ReceiverOnly s { s with early := insert (number, item) s.early } :=
  ⟨.single (.collect s arrives ahead), rfl, rfl, rfl⟩

theorem receiverOnly_order (s : State Item) {item : Item}
    (next : (s.received.length, item) ∈ s.early) :
    ReceiverOnly s { s with
      received := s.received ++ [item]
      early := {entry ∈ s.early | entry.1 ≠ s.received.length} } :=
  ⟨.single (.order s next), rfl, rfl, rfl⟩

theorem receiverOnly_acknowledge (s : State Item) {number : Nat}
    (has : s.Has number) :
    ReceiverOnly s { s with acks := insert number s.acks } :=
  ⟨.single (.acknowledge s has), rfl, rfl, rfl⟩

theorem receiverOnly_announce (s : State Item) :
    ReceiverOnly s { s with limits := insert s.received.length s.limits } :=
  ⟨.single (.announce s), rfl, rfl, rfl⟩

end Ends

/-- What holds between the two ends at any time. -/
structure Sound (s : State Item) : Prop where
  numbered : ∀ number ∈ s.waiting, number < s.log.length
  genuine : ∀ entry ∈ s.sent, s.log[entry.1]? = some entry.2
  ordered : s.received <+: s.log
  collected : ∀ entry ∈ s.early, s.log[entry.1]? = some entry.2
  ahead : ∀ entry ∈ s.early, s.received.length ≤ entry.1
  acked : ∀ number ∈ s.acks, s.Has number
  announced : ∀ limit ∈ s.limits, limit ≤ s.received.length
  safe : ∀ number < s.log.length, number ∉ s.waiting → s.Has number

theorem sound_start : Sound ({} : State Item) where
  numbered := by simp
  genuine := by simp
  ordered := List.prefix_refl _
  collected := by simp
  ahead := by simp
  acked := by simp
  announced := by simp
  safe := by simp

variable {s t : State Item}

theorem getElem?_append_item {number : Nat} {item other : Item}
    {log : List Item} (numbered : log[number]? = some item) :
    (log ++ [other])[number]? = some item := by
  obtain ⟨inside, -⟩ := List.getElem?_eq_some_iff.mp numbered
  rwa [List.getElem?_append_left inside]

/-- The next item in order continues what has been collected. -/
theorem Sound.ordered_next (sound : Sound s) {item : Item}
    (next : (s.received.length, item) ∈ s.early) :
    s.received ++ [item] <+: s.log := by
  have stands := sound.collected _ next
  obtain ⟨rest, split⟩ := sound.ordered
  rw [← split, List.getElem?_append_right (Nat.le_refl _),
    Nat.sub_self] at stands
  cases rest with
  | nil => simp at stands
  | cons head rest =>
      simp only [List.getElem?_cons_zero, Option.some.injEq] at stands
      subst stands
      exact ⟨rest, by simp [← split]⟩

/-- What the receiver has, it keeps. -/
theorem Step.has (step : Step s t) {number : Nat} (has : s.Has number) :
    t.Has number := by
  cases step with
  | number item => exact has
  | transmit kept numbered => exact has
  | collect arrives ahead =>
      apply has.imp_right
      rintro ⟨item, early⟩
      exact ⟨item, Set.mem_insert_of_mem _ early⟩
  | @order item next =>
      rcases has with below | ⟨other, early⟩
      · left
        simp only [List.length_append, List.length_singleton]
        omega
      · by_cases here : number = s.received.length
        · left
          simp [here]
        · right
          exact ⟨other, early, here⟩
  | acknowledge => exact has
  | announce => exact has
  | forget => exact has
  | forgetBelow => exact has

theorem Steps.has (steps : Steps s t) {number : Nat} (has : s.Has number) :
    t.Has number := by
  induction steps with
  | refl => exact has
  | tail _ step ih => exact step.has ih

theorem Sound.step (sound : Sound s) (step : Step s t) : Sound t := by
  have keeps : ∀ number, s.Has number → t.Has number :=
    fun _ => step.has
  cases step with
  | number item =>
      have stands : ∀ entry : Nat × Item, s.log[entry.1]? = some entry.2 →
          (s.log ++ [item])[entry.1]? = some entry.2 :=
        fun _ => getElem?_append_item
      constructor
      case numbered =>
        intro number kept
        simp only [Set.mem_insert_iff, List.length_append,
          List.length_singleton] at kept ⊢
        rcases kept with rfl | kept
        · omega
        · have := sound.numbered number kept
          omega
      case genuine => exact fun entry sent => stands _ (sound.genuine _ sent)
      case ordered => exact sound.ordered.trans (List.prefix_append _ _)
      case collected =>
        exact fun entry early => stands _ (sound.collected _ early)
      case ahead => exact sound.ahead
      case acked => exact sound.acked
      case announced => exact sound.announced
      case safe =>
        intro number inside gone
        simp only [Set.mem_insert_iff, not_or, List.length_append,
          List.length_singleton] at inside gone
        exact sound.safe number (by omega) gone.2
  | transmit kept numbered =>
      exact { sound with
        genuine := by
          rintro entry (rfl | sent)
          · exact numbered
          · exact sound.genuine entry sent }
  | collect arrives notBelow =>
      exact { sound with
        collected := by
          rintro entry (rfl | early)
          · exact sound.genuine _ arrives
          · exact sound.collected entry early
        ahead := by
          rintro entry (rfl | early)
          · exact notBelow
          · exact sound.ahead entry early
        acked := fun number acked => keeps _ (sound.acked number acked)
        safe := fun number inside gone =>
          keeps _ (sound.safe number inside gone) }
  | order next =>
      exact { sound with
        ordered := sound.ordered_next next
        collected := fun entry early => sound.collected entry early.1
        ahead := by
          rintro entry ⟨early, apart⟩
          have := sound.ahead entry early
          simp only [List.length_append, List.length_singleton]
          omega
        acked := fun number acked => keeps _ (sound.acked number acked)
        announced := by
          intro limit announced
          have := sound.announced limit announced
          simp only [List.length_append]
          omega
        safe := fun number inside gone =>
          keeps _ (sound.safe number inside gone) }
  | acknowledge has =>
      exact { sound with
        acked := by
          rintro number (rfl | acked)
          · exact has
          · exact sound.acked number acked }
  | announce =>
      exact { sound with
        announced := by
          rintro limit (rfl | announced)
          · exact Nat.le_refl _
          · exact sound.announced limit announced }
  | @forget number acknowledged =>
      exact { sound with
        numbered := fun kept waiting => sound.numbered kept waiting.1
        safe := by
          intro other inside gone
          by_cases same : other = number
          · exact same ▸ sound.acked number acknowledged
          · exact sound.safe other inside fun kept => gone ⟨kept, same⟩ }
  | @forgetBelow limit announced =>
      exact { sound with
        numbered := fun kept waiting => sound.numbered kept waiting.1
        safe := by
          intro other inside gone
          by_cases below : other < limit
          · left
            exact Nat.lt_of_lt_of_le below (sound.announced limit announced)
          · exact sound.safe other inside fun kept =>
              gone ⟨kept, Nat.le_of_not_lt below⟩ }

/-- Whatever the network does, the two ends agree. -/
theorem Sound.steps (sound : Sound s) (steps : Steps s t) : Sound t := by
  induction steps with
  | refl => exact sound
  | tail _ step ih => exact ih.step step

/-- Nothing leaves the network, and no number is given away twice. -/
structure Grown (s t : State Item) : Prop where
  log : s.log <+: t.log
  sent : s.sent ⊆ t.sent
  acks : s.acks ⊆ t.acks
  limits : s.limits ⊆ t.limits

theorem Step.grown (step : Step s t) : Grown s t := by
  cases step
  case number item =>
    exact ⟨List.prefix_append _ _, subset_rfl, subset_rfl, subset_rfl⟩
  case transmit =>
    exact ⟨List.prefix_refl _, Set.subset_insert _ _, subset_rfl, subset_rfl⟩
  case acknowledge =>
    exact ⟨List.prefix_refl _, subset_rfl, Set.subset_insert _ _, subset_rfl⟩
  case announce =>
    exact ⟨List.prefix_refl _, subset_rfl, subset_rfl, Set.subset_insert _ _⟩
  all_goals exact ⟨List.prefix_refl _, subset_rfl, subset_rfl, subset_rfl⟩

theorem Steps.grown (steps : Steps s t) : Grown s t := by
  induction steps with
  | refl => exact ⟨List.prefix_refl _, subset_rfl, subset_rfl, subset_rfl⟩
  | tail _ step ih =>
      have more := step.grown
      exact ⟨ih.log.trans more.log, ih.sent.trans more.sent,
        ih.acks.trans more.acks, ih.limits.trans more.limits⟩

/-- Entries in the order of their numbers that leave out no number are the rest
of the log. -/
theorem map_snd_eq_drop {log : List Item} {entries : List (Nat × Item)}
    {first : Nat} (sorted : (entries.map Prod.fst).Pairwise (· < ·))
    (above : ∀ entry ∈ entries, first ≤ entry.1)
    (stands : ∀ entry ∈ entries, log[entry.1]? = some entry.2)
    (complete : ∀ number < log.length, first ≤ number →
      number ∈ entries.map Prod.fst) :
    entries.map Prod.snd = log.drop first := by
  induction entries generalizing first with
  | nil =>
      symm
      apply List.drop_eq_nil_of_le
      by_contra short
      simpa using complete first (by omega) (Nat.le_refl _)
  | cons entry rest ih =>
      rw [List.map_cons, List.pairwise_cons] at sorted
      obtain ⟨least, others⟩ := List.forall_mem_cons.mp above
      obtain ⟨here, there⟩ := List.forall_mem_cons.mp stands
      obtain ⟨inside, item⟩ := List.getElem?_eq_some_iff.mp here
      have isFirst : entry.1 = first := by
        have found := complete first (by omega) (Nat.le_refl _)
        rcases List.mem_cons.mp found with same | later
        · exact same.symm
        · have := sorted.1 first later
          omega
      subst isFirst
      rw [List.map_cons, List.drop_eq_getElem_cons inside, item]
      congr 1
      apply ih sorted.2 _ there
      · intro number below next
        rcases List.mem_cons.mp (complete number below (by omega)) with
          same | later
        · omega
        · exact later
      · intro other member
        exact sorted.1 _ (List.mem_map_of_mem member)

/-- When the sender keeps nothing, the receiver has everything: what it has
collected in order, and behind it what it has collected ahead. -/
theorem Sound.log_eq (sound : Sound s) (nothing : s.waiting = ∅)
    {entries : List (Nat × Item)}
    (sorted : (entries.map Prod.fst).Pairwise (· < ·))
    (early : ∀ entry, entry ∈ s.early ↔ entry ∈ entries) :
    s.log = s.received ++ entries.map Prod.snd := by
  rw [map_snd_eq_drop sorted
    (fun entry member => sound.ahead entry ((early entry).mpr member))
    (fun entry member => sound.collected entry ((early entry).mpr member))]
  · exact (List.prefix_iff_eq_append.mp sound.ordered).symm
  · intro number inside ahead
    rcases sound.safe number inside (by simp [nothing]) with
      below | ⟨item, collected⟩
    · omega
    · exact List.mem_map.mpr ⟨_, (early _).mp collected, rfl⟩

end SelectiveRepeat

end MbedtlsKcp
