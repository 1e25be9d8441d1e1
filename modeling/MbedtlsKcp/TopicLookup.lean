import Mathlib.Data.List.Infix
import MbedtlsKcp.CStrings

/-!
# Topics of a publisher

`Common_proxy_pub_add_topic` stores the method and the text `head/method`;
`Common_proxy_pub_get_topic_index` takes the first topic that has the method
and contains the head anywhere in its text.  Every allocation is granted;
`none` is an `int` that overflows or an access outside the array.
-/

namespace MbedtlsKcp

namespace Topics

open CStrings

abbrev Text := List UInt8

def intMax : Nat := 2147483647

/-- `topicCallbackManager`. -/
structure TopicCallback (Callback : Type) where
  msgHandleCb : Callback
  method : List UInt8
  str : List UInt8

/-- `TopicManager`; `topicCb` is the allocated array. -/
structure TopicManager (Callback : Type) where
  topicCb : List (TopicCallback Callback)
  count : Nat
  capacity : Nat

def TopicManager.empty (Callback : Type) : TopicManager Callback :=
  ⟨[], 0, 0⟩

/-- One call that adds a topic; `fresh` is what stands in new memory. -/
structure Added (Callback : Type) where
  topicHead : Text
  method : Text
  msgCb : Callback
  fresh : Nat → TopicCallback Callback

variable {Callback : Type}

/-- The text of a topic. -/
def topicText (topicHead method : Text) : Text :=
  topicHead ++ ascii "/" ++ method

/-- What is stored of a call. -/
def Added.stored (call : Added Callback) : TopicCallback Callback where
  msgHandleCb := call.msgCb
  method := snprintf (List.replicate 32 0) 32 call.method
  str := snprintf (List.replicate 128 0) 128
    (topicText call.topicHead call.method)

/-- The array with room for one more topic. -/
def TopicManager.grow (manager : TopicManager Callback)
    (fresh : Nat → TopicCallback Callback) : Option (TopicManager Callback) :=
  if manager.capacity ≤ manager.count then
    let newCapacity := if manager.capacity = 0 then 1 else manager.capacity * 2
    if intMax < newCapacity then none
    else
      some { manager with
        topicCb := manager.topicCb ++
          (List.range (newCapacity - manager.topicCb.length)).map fresh
        capacity := newCapacity }
  else some manager

/-- `Common_proxy_pub_add_topic`. -/
def TopicManager.addTopic (manager : TopicManager Callback)
    (call : Added Callback) : Option (TopicManager Callback) :=
  (manager.grow call.fresh).bind fun grown =>
    if grown.count < grown.topicCb.length then
      some { grown with
        topicCb := grown.topicCb.set grown.count call.stored
        count := grown.count + 1 }
    else none

/-- `strcmp` is 0 and `strstr` finds the head. -/
def TopicCallback.matches (topicHead method : Text)
    (topic : TopicCallback Callback) : Bool :=
  method = cString topic.method ∧ topicHead <:+: cString topic.str

def indexOf (found : Option Nat) : Int :=
  match found with
  | some i => i
  | none => -1

/-- `Common_proxy_pub_get_topic_index`. -/
def TopicManager.getTopicIndex (manager : TopicManager Callback)
    (topicHead method : Text) : Int :=
  indexOf ((manager.topicCb.take manager.count).findIdx?
    (TopicCallback.matches topicHead method))

/-- The manager after a sequence of calls. -/
def addTopics (calls : List (Added Callback)) :
    Option (TopicManager Callback) :=
  calls.foldlM TopicManager.addTopic (TopicManager.empty Callback)

/-- The call added exactly this topic. -/
def Added.isTopic (topicHead method : Text) (call : Added Callback) : Bool :=
  call.topicHead = topicHead ∧ call.method = method

/-- All topics are added, and the lookup gives the first one that was added
with the head and the method. -/
def Exact (calls : List (Added Callback)) (topicHead method : Text) : Prop :=
  ∃ manager, addTopics calls = some manager ∧
    manager.getTopicIndex topicHead method =
      indexOf (calls.findIdx? (Added.isTopic topicHead method))

/-- The strings of a call fit in their fields. -/
structure Added.Fits (call : Added Callback) : Prop where
  methodClear : 0 ∉ call.method
  headClear : 0 ∉ call.topicHead
  method : call.method.length < 32
  str : (topicText call.topicHead call.method).length < 128

/-- No topic of the method that was added before the first exact one contains
the head, and the array can be grown for all topics. -/
structure Distinct (calls : List (Added Callback)) (topicHead method : Text) :
    Prop where
  count : calls.length ≤ 2 ^ 30
  apart : ∀ call ∈ calls.takeWhile fun call => !call.isTopic topicHead method,
    call.method = method →
      ¬ topicHead <:+: topicText call.topicHead call.method

/-! ## First places in a list -/

theorem indexOf_inj {first second : Option Nat} :
    indexOf first = indexOf second ↔ first = second := by
  constructor
  · intro same
    cases first with
    | none =>
        cases second with
        | none => rfl
        | some j => cases same
    | some i =>
        cases second with
        | none => cases same
        | some j => exact congrArg some (Int.ofNat.inj same)
  · rintro rfl
    rfl

/-- Where everything wanted is found, the first find is the first one wanted
exactly if nothing is found before it. -/
theorem findIdx?_eq_iff {α : Type*} {found wanted : α → Bool} {list : List α}
    (implied : ∀ entry ∈ list, wanted entry = true → found entry = true) :
    list.findIdx? found = list.findIdx? wanted ↔
      ∀ entry ∈ list.takeWhile fun entry => !wanted entry,
        found entry = false := by
  induction list with
  | nil => simp
  | cons entry list ih =>
      have later := ih fun other member =>
        implied other (List.mem_cons_of_mem entry member)
      rw [List.findIdx?_cons, List.findIdx?_cons, List.takeWhile_cons]
      cases isWanted : wanted entry with
      | true =>
          have isFound := implied entry List.mem_cons_self isWanted
          simp [isFound]
      | false =>
          cases isFound : found entry with
          | true =>
              cases list.findIdx? wanted <;> simp [isFound]
          | false =>
              have mapped : (list.findIdx? found).map (· + 1) =
                  (list.findIdx? wanted).map (· + 1) ↔
                    list.findIdx? found = list.findIdx? wanted :=
                (Option.map_injective (add_left_injective 1)).eq_iff
              simp [isFound, mapped, later]

/-! ## The array holds the topics -/

/-- The first entries are the topics added, and the capacity is 0 or a power of
two. -/
structure Holds (calls : List (Added Callback))
    (manager : TopicManager Callback) : Prop where
  count : manager.count = calls.length
  length : manager.topicCb.length = manager.capacity
  room : manager.count ≤ manager.capacity
  power : manager.capacity = 0 ∨ ∃ k ≤ 30, manager.capacity = 2 ^ k
  topics : manager.topicCb.take manager.count = calls.map Added.stored

theorem holds_empty : Holds [] (TopicManager.empty Callback) :=
  ⟨rfl, rfl, Nat.le_refl 0, .inl rfl, rfl⟩

section Adding

variable {calls : List (Added Callback)} {manager : TopicManager Callback}

/-- New memory behind the entries leaves the topics where they are. -/
theorem Holds.enlarge (holds : Holds calls manager)
    (fresh : Nat → TopicCallback Callback) {newCapacity k : Nat}
    (small : k ≤ 30) (power : newCapacity = 2 ^ k)
    (more : manager.capacity ≤ newCapacity) :
    Holds calls { manager with
      topicCb := manager.topicCb ++
        (List.range (newCapacity - manager.topicCb.length)).map fresh
      capacity := newCapacity } where
  count := holds.count
  length := by
    have := holds.length
    simp only [List.length_append, List.length_map, List.length_range]
    omega
  room := holds.room.trans more
  power := .inr ⟨k, small, power⟩
  topics := by
    rw [← holds.topics]
    exact List.take_append_of_le_length
      (holds.room.trans (Nat.le_of_eq holds.length.symm))

/-- The array grows until it has 2^30 entries. -/
theorem Holds.grow (holds : Holds calls manager)
    (fresh : Nat → TopicCallback Callback) :
    (calls.length < 2 ^ 30 → ∃ grown, manager.grow fresh = some grown ∧
      Holds calls grown ∧ grown.count < grown.capacity) ∧
    (2 ^ 30 ≤ calls.length → manager.grow fresh = none) := by
  have count := holds.count
  have room := holds.room
  rw [TopicManager.grow]
  by_cases full : manager.capacity ≤ manager.count
  case neg =>
    rw [if_neg full]
    refine ⟨fun _ => ⟨manager, rfl, holds, Nat.lt_of_not_le full⟩, ?_⟩
    intro many
    rcases holds.power with zero | ⟨k, small, power⟩
    · omega
    · have := Nat.pow_le_pow_right (Nat.zero_lt_two) small
      omega
  rw [if_pos full]
  dsimp only
  -- the capacity is the count here, a power of two unless it is 0
  rcases holds.power with zero | ⟨k, small, power⟩
  · rw [zero, if_pos rfl, if_neg (by decide)]
    constructor
    · intro _
      refine ⟨_, rfl, holds.enlarge fresh (Nat.zero_le 30) rfl (by omega), ?_⟩
      change manager.count < 1
      omega
    · intro many
      omega
  · have notZero : manager.capacity ≠ 0 := by
      rw [power]
      exact Nat.ne_of_gt (Nat.two_pow_pos k)
    rw [if_neg notZero]
    constructor
    · intro few
      have smaller : k < 30 := by
        by_contra large
        have := Nat.pow_le_pow_right Nat.zero_lt_two (Nat.le_of_not_lt large)
        omega
      have doubled : manager.capacity * 2 = 2 ^ (k + 1) := by
        rw [power, Nat.pow_succ]
      have fits : 2 ^ (k + 1) ≤ 2 ^ 30 :=
        Nat.pow_le_pow_right Nat.zero_lt_two smaller
      rw [if_neg (by rw [doubled, intMax]; omega)]
      refine ⟨_, rfl, holds.enlarge fresh smaller doubled (by omega), ?_⟩
      change manager.count < manager.capacity * 2
      omega
    · intro many
      exact if_pos (by rw [intMax]; omega)

/-- A topic is added behind the others. -/
theorem Holds.addTopic (holds : Holds calls manager) (call : Added Callback) :
    (calls.length < 2 ^ 30 → ∃ after, manager.addTopic call = some after ∧
      Holds (calls ++ [call]) after) ∧
    (2 ^ 30 ≤ calls.length → manager.addTopic call = none) := by
  obtain ⟨grows, fails⟩ := holds.grow call.fresh
  constructor
  · intro few
    obtain ⟨grown, isGrown, kept, room⟩ := grows few
    have inside : grown.count < grown.topicCb.length := by
      rw [kept.length]
      exact room
    rw [TopicManager.addTopic, isGrown, Option.bind_some, if_pos inside]
    refine ⟨_, rfl, ?_⟩
    exact
      { count := by
          rw [List.length_append, List.length_singleton, ← kept.count]
        length := by rw [List.length_set, kept.length]
        room := room
        power := kept.power
        topics := by
          rw [List.take_add_one, List.take_set_of_le (Nat.le_refl _),
            List.getElem?_set_self inside, kept.topics, List.map_append]
          rfl }
  · intro many
    rw [TopicManager.addTopic, fails many, Option.bind_none]

/-- As many topics as the array can be grown for are all added. -/
theorem holds_addTopics (calls : List (Added Callback)) :
    (calls.length ≤ 2 ^ 30 → ∃ manager, addTopics calls = some manager ∧
      Holds calls manager) ∧
    (2 ^ 30 < calls.length → addTopics calls = none) := by
  induction calls using List.reverseRecOn with
  | nil =>
      exact ⟨fun _ => ⟨_, rfl, holds_empty⟩, fun many => absurd many (Nat.not_lt_zero _)⟩
  | append_singleton calls call ih =>
      obtain ⟨added, fails⟩ := ih
      have unfolds : addTopics (calls ++ [call]) =
          (addTopics calls).bind fun manager => manager.addTopic call := by
        rw [addTopics, List.foldlM_append]
        simp only [List.foldlM_cons, List.foldlM_nil, bind_pure]
        rfl
      rw [unfolds, List.length_append, List.length_singleton]
      constructor
      · intro few
        obtain ⟨manager, isManager, holds⟩ := added (by omega)
        obtain ⟨after, isAfter, kept⟩ := (holds.addTopic call).1 (by omega)
        rw [isManager]
        exact ⟨after, isAfter, kept⟩
      · intro many
        by_cases more : 2 ^ 30 < calls.length
        · rw [fails more, Option.bind_none]
        · obtain ⟨manager, isManager, holds⟩ := added (by omega)
          rw [isManager]
          exact (holds.addTopic call).2 (by omega)

end Adding

/-! ## What a lookup finds -/

theorem matches_stored {call : Added Callback} (fits : call.Fits)
    (topicHead method : Text) :
    call.stored.matches topicHead method = true ↔
      call.method = method ∧
        topicHead <:+: topicText call.topicHead call.method := by
  have slash : (0 : UInt8) ∉ ascii "/" := by decide
  have clear : 0 ∉ topicText call.topicHead call.method := by
    intro member
    rcases List.mem_append.mp member with front | inMethod
    · rcases List.mem_append.mp front with inHead | inSlash
      · exact fits.headClear inHead
      · exact slash inSlash
    · exact fits.methodClear inMethod
  have text : cString call.stored.str =
      topicText call.topicHead call.method := by
    rw [Added.stored, cString_snprintf (by decide) clear]
    exact List.take_of_length_le (Nat.le_of_lt_succ fits.str)
  have name : cString call.stored.method = call.method := by
    rw [Added.stored, cString_snprintf (by decide) fits.methodClear]
    exact List.take_of_length_le (Nat.le_of_lt_succ fits.method)
  rw [TopicCallback.matches, text, name, decide_eq_true_iff, eq_comm]

theorem matches_of_isTopic {call : Added Callback} (fits : call.Fits)
    {topicHead method : Text} (same : call.isTopic topicHead method = true) :
    call.stored.matches topicHead method = true := by
  obtain ⟨rfl, rfl⟩ := of_decide_eq_true same
  rw [matches_stored fits]
  refine ⟨rfl, List.IsPrefix.isInfix ?_⟩
  rw [topicText, List.append_assoc]
  exact List.prefix_append _ _

/-- The lookup is exact exactly when no topic of the method that was added
before contains the head. -/
theorem exact_iff_distinct {calls : List (Added Callback)}
    (fits : ∀ call ∈ calls, call.Fits) (topicHead method : Text) :
    Exact calls topicHead method ↔ Distinct calls topicHead method := by
  obtain ⟨added, fails⟩ := holds_addTopics calls
  by_cases many : 2 ^ 30 < calls.length
  · constructor
    · rintro ⟨manager, isManager, -⟩
      rw [fails many] at isManager
      cases isManager
    · intro distinct
      exact absurd distinct.count (Nat.not_le.mpr many)
  have few := Nat.le_of_not_lt many
  obtain ⟨manager, isManager, holds⟩ := added few
  have finds : manager.getTopicIndex topicHead method =
      indexOf (calls.findIdx? fun call =>
        call.stored.matches topicHead method) := by
    rw [TopicManager.getTopicIndex, holds.topics, List.findIdx?_map]
    rfl
  have meaning : Exact calls topicHead method ↔
      ∀ call ∈ calls.takeWhile fun call => !call.isTopic topicHead method,
        call.stored.matches topicHead method = false := by
    rw [← findIdx?_eq_iff fun call member =>
      matches_of_isTopic (fits call member), ← indexOf_inj, ← finds]
    constructor
    · rintro ⟨same, isSame, found⟩
      rw [isManager] at isSame
      cases isSame
      exact found
    · exact fun found => ⟨manager, isManager, found⟩
  rw [meaning]
  constructor
  · intro none
    refine ⟨few, ?_⟩
    intro call member sameMethod contains
    have isFound := (matches_stored
      (fits call (List.takeWhile_subset _ member)) topicHead method).mpr
        ⟨sameMethod, contains⟩
    rw [none call member] at isFound
    cases isFound
  · intro distinct call member
    apply eq_false_of_ne_true
    intro isFound
    obtain ⟨sameMethod, contains⟩ := (matches_stored
      (fits call (List.takeWhile_subset _ member)) topicHead method).mp isFound
    exact distinct.apart call member sameMethod contains

def added (topicHead method : String) : Added Unit where
  topicHead := ascii topicHead
  method := ascii method
  msgCb := ()
  fresh _ := ⟨(), [], []⟩

theorem fits_pair {first second : Added Callback} (fitsFirst : first.Fits)
    (fitsSecond : second.Fits) : ∀ call ∈ [first, second], call.Fits := by
  intro call member
  rcases List.mem_cons.mp member with rfl | member
  · exact fitsFirst
  · rw [List.mem_singleton.mp member]
    exact fitsSecond

theorem exact_iff_distinct_hub :
    Exact [added "hub/1" "get", added "hub" "set"] (ascii "hub") (ascii "set") ↔
      Distinct [added "hub/1" "get", added "hub" "set"] (ascii "hub")
        (ascii "set") := by
  apply exact_iff_distinct
  exact fits_pair ⟨by decide, by decide, by decide, by decide⟩
    ⟨by decide, by decide, by decide, by decide⟩

/-- A head is found inside another topic of the method. -/
theorem not_forall_exact :
    ¬ ∀ (calls : List (Added Unit)) (topicHead method : Text),
      (∀ call ∈ calls, call.Fits) → Exact calls topicHead method := by
  intro holds
  obtain ⟨manager, isManager, found⟩ :=
    holds [added "hub/1" "get", added "hub" "get"] (ascii "hub") (ascii "get")
      (fits_pair ⟨by decide, by decide, by decide, by decide⟩
        ⟨by decide, by decide, by decide, by decide⟩)
  cases isManager
  exact absurd found (by decide +kernel)

end Topics

end MbedtlsKcp
