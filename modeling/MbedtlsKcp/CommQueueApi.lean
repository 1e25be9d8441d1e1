import Mathlib.Data.List.Basic
import MbedtlsKcp.TransitionRuns

/-!
# The message queue of the communication API

`comm_queue_api.c` keeps the length of a queue beside the queue.  The queue
itself is taken to be a double-ended one whose pushes may fail.  Pushing at
the head is refused when the length has reached `MAX_QUEUE_MSG_NUM`, pushing
at the tail never is.
-/

namespace MbedtlsKcp

namespace CommQueueApi

open TransitionRuns

variable {Message : Type}

/-- `MAX_QUEUE_MSG_NUM`. -/
def maxQueueMsgNum : Nat := 50

/-- `COMM_QUE_S`; `que` is `none` for a null pointer. -/
structure CommQue (Message : Type) where
  setdata : Message
  getdata : Message
  currentLength : Int
  que : Option (List Message)
  deriving DecidableEq

namespace CommQue

/-- The messages in the queue, the head first. -/
def stored (queue : CommQue Message) : List Message :=
  queue.que.getD []

/-- `COMM_API_queue_init`. -/
def init (queue : CommQue Message) : Int × CommQue Message :=
  (0, { queue with que := some [], currentLength := 0 })

/-- `COMM_API_queue_push_tail`, given whether `COMM_queue_push_tail` gets its
memory. -/
def pushTail (allocates : Bool) (queue : CommQue Message) :
    Int × CommQue Message :=
  match queue.que with
  | none => (-1, queue)
  | some messages =>
      if allocates then
        (0, { queue with
                que := some (messages ++ [queue.setdata])
                currentLength := queue.currentLength + 1 })
      else (-1, queue)

/-- `COMM_API_queue_push_head`. -/
def pushHead (allocates : Bool) (queue : CommQue Message) :
    Int × CommQue Message :=
  match queue.que with
  | none => (-1, queue)
  | some messages =>
      if maxQueueMsgNum ≤ queue.currentLength then (-1, queue)
      else if allocates then
        (0, { queue with
                que := some (queue.setdata :: messages)
                currentLength := queue.currentLength + 1 })
      else (-1, queue)

/-- What the two pops do with the message they get and the rest. -/
def popped (queue : CommQue Message) (result : Message)
    (rest : List Message) : Int × CommQue Message :=
  (0, { queue with
          que := some rest
          currentLength := queue.currentLength - 1
          getdata := result })

/-- `COMM_API_queue_pop_tail`. -/
def popTail (queue : CommQue Message) : Int × CommQue Message :=
  match queue.que with
  | none => (-1, queue)
  | some messages =>
      match messages.getLast? with
      | none => (-1, queue)
      | some result => queue.popped result messages.dropLast

/-- `COMM_API_queue_pop_head`. -/
def popHead (queue : CommQue Message) : Int × CommQue Message :=
  match queue.que with
  | none => (-1, queue)
  | some [] => (-1, queue)
  | some (result :: messages) => queue.popped result messages

end CommQue

/-- A call, or a new message in `setdata`. -/
inductive Call (Message : Type)
  | init
  | set (message : Message)
  | pushHead (allocates : Bool)
  | pushTail (allocates : Bool)
  | popHead
  | popTail
  deriving DecidableEq

def CommQue.call (queue : CommQue Message) : Call Message → Int × CommQue Message
  | .init => queue.init
  | .set message => (0, { queue with setdata := message })
  | .pushHead allocates => queue.pushHead allocates
  | .pushTail allocates => queue.pushTail allocates
  | .popHead => queue.popHead
  | .popTail => queue.popTail

/-- The length is the number of messages and within the bound. -/
structure Exact (queue : CommQue Message) : Prop where
  length : queue.currentLength = queue.stored.length
  bounded : queue.currentLength ≤ maxQueueMsgNum

/-- What a call promises of its result and of the queue afterwards. -/
def Answers (queue : CommQue Message) (result : Int × CommQue Message) :
    Call Message → Prop
  | .init => result.2.stored = []
  | .set _ => result.2.stored = queue.stored
  | .pushHead _ => (result.1 = -1 → result.2 = queue) ∧
      (result.1 ≠ -1 → result.2.stored = queue.setdata :: queue.stored)
  | .pushTail _ => (result.1 = -1 → result.2 = queue) ∧
      (result.1 ≠ -1 → result.2.stored = queue.stored ++ [queue.setdata])
  | .popHead => (result.1 = 0 ↔ queue.stored ≠ []) ∧
      ∀ message messages, queue.stored = message :: messages →
        result.2.getdata = message ∧ result.2.stored = messages
  | .popTail => (result.1 = 0 ↔ queue.stored ≠ []) ∧
      ∀ messages message, queue.stored = messages ++ [message] →
        result.2.getdata = message ∧ result.2.stored = messages

/-- Every state of a run is exact, and every call of it answers as it
promises. -/
def Behaves : CommQue Message → List (Call Message) → Prop
  | queue, [] => Exact queue
  | queue, call :: calls =>
      Exact queue ∧ Answers queue (queue.call call) call ∧
        Behaves (queue.call call).2 calls

def step (queue : CommQue Message) (call : Call Message) :
    Option (CommQue Message) :=
  some (queue.call call).2

/-- A push at the tail finds room. -/
def HasRoom (queue : CommQue Message) (call : Call Message) : Prop :=
  call = .pushTail true → queue.que ≠ none →
    queue.stored.length < maxQueueMsgNum

variable {queue : CommQue Message}

theorem Behaves.first {calls : List (Call Message)}
    (behaves : Behaves queue calls) : Exact queue := by
  cases calls with
  | nil => exact behaves
  | cons call calls => exact behaves.1

theorem stored_of_que {messages : List Message}
    (kept : queue.que = some messages) : queue.stored = messages := by
  rw [CommQue.stored, kept, Option.getD_some]

/-- A message more and a length more. -/
theorem Exact.pushed {messages : List Message} (exact : Exact queue)
    (grown : messages.length = queue.stored.length + 1)
    (room : queue.currentLength < maxQueueMsgNum) :
    Exact { queue with
              que := some messages
              currentLength := queue.currentLength + 1 } where
  length := by
    have before := exact.length
    simp only [CommQue.stored, Option.getD_some, grown]
    unfold CommQue.stored at before
    omega
  bounded := by
    dsimp only
    omega

/-- A message less and a length less. -/
theorem Exact.popped {messages : List Message} (exact : Exact queue)
    (result : Message) (shrunk : messages.length + 1 = queue.stored.length) :
    Exact (queue.popped result messages).2 where
  length := by
    have before := exact.length
    simp only [CommQue.popped, CommQue.stored, Option.getD_some]
    unfold CommQue.stored at before shrunk
    omega
  bounded := by
    have before := exact.bounded
    simp only [CommQue.popped]
    omega

theorem Exact.init (queue : CommQue Message) : Exact queue.init.2 where
  length := rfl
  bounded := by
    simp [CommQue.init]

theorem Exact.set (exact : Exact queue) (message : Message) :
    Exact { queue with setdata := message } :=
  ⟨exact.length, exact.bounded⟩

theorem Exact.pushTail (exact : Exact queue) {allocates : Bool}
    (room : HasRoom queue (.pushTail allocates)) :
    Exact (queue.pushTail allocates).2 ∧
      Answers queue (queue.pushTail allocates) (.pushTail allocates) := by
  unfold CommQue.pushTail
  cases kept : queue.que with
  | none => exact ⟨exact, fun _ => rfl, fun fails => absurd rfl fails⟩
  | some messages =>
      have same := stored_of_que kept
      cases allocates with
      | false => exact ⟨exact, fun _ => rfl, fun fails => absurd rfl fails⟩
      | true =>
          have below := room rfl (by simp [kept])
          refine ⟨exact.pushed (by simp [same]) ?_, ?_, fun _ => ?_⟩
          · rw [exact.length]
            exact_mod_cast below
          · intro impossible
            cases impossible
          · rw [same]
            rfl

theorem Exact.pushHead (exact : Exact queue) (allocates : Bool) :
    Exact (queue.pushHead allocates).2 ∧
      Answers queue (queue.pushHead allocates) (.pushHead allocates) := by
  unfold CommQue.pushHead
  cases kept : queue.que with
  | none => exact ⟨exact, fun _ => rfl, fun fails => absurd rfl fails⟩
  | some messages =>
      have same := stored_of_que kept
      by_cases full : (maxQueueMsgNum : Int) ≤ queue.currentLength
      · simp only [if_pos full]
        exact ⟨exact, fun _ => rfl, fun fails => absurd rfl fails⟩
      · simp only [if_neg full]
        cases allocates with
        | false => exact ⟨exact, fun _ => rfl, fun fails => absurd rfl fails⟩
        | true =>
            refine ⟨exact.pushed (by simp [same]) (Int.not_le.1 full), ?_,
              fun _ => ?_⟩
            · intro impossible
              cases impossible
            · rw [same]
              rfl

theorem Exact.popHead (exact : Exact queue) :
    Exact queue.popHead.2 ∧ Answers queue queue.popHead .popHead := by
  unfold CommQue.popHead
  cases kept : queue.que with
  | none => simp [Answers, exact, CommQue.stored, kept]
  | some messages =>
      have same := stored_of_que kept
      cases messages with
      | nil => simp [Answers, exact, same]
      | cons result messages =>
          refine ⟨exact.popped result (by simp [same]), ?_, ?_⟩
          · simp [CommQue.popped, same]
          · intro message others split
            rw [same] at split
            obtain ⟨rfl, rfl⟩ := List.cons.inj split
            exact ⟨rfl, rfl⟩

theorem Exact.popTail (exact : Exact queue) :
    Exact queue.popTail.2 ∧ Answers queue queue.popTail .popTail := by
  unfold CommQue.popTail
  cases kept : queue.que with
  | none => simp [Answers, exact, CommQue.stored, kept]
  | some messages =>
      have same := stored_of_que kept
      cases last : messages.getLast? with
      | none =>
          have empty := List.getLast?_eq_none_iff.1 last
          simp [Answers, exact, same, empty]
      | some result =>
          obtain ⟨front, rfl⟩ := List.getLast?_eq_some_iff.1 last
          simp only [last, List.dropLast_concat]
          refine ⟨exact.popped result (by simp [same]), ?_, ?_⟩
          · simp [CommQue.popped, same]
          · intro others message split
            rw [same] at split
            obtain ⟨rfl, single⟩ := List.append_inj' split rfl
            obtain ⟨rfl, -⟩ := List.cons.inj single
            exact ⟨rfl, rfl⟩

/-- A call that finds room keeps the queue exact and answers. -/
theorem Exact.call (exact : Exact queue) {call : Call Message}
    (room : HasRoom queue call) :
    Exact (queue.call call).2 ∧ Answers queue (queue.call call) call := by
  cases call with
  | init => exact ⟨.init queue, rfl⟩
  | set message => exact ⟨exact.set message, rfl⟩
  | pushHead allocates => exact exact.pushHead allocates
  | pushTail allocates => exact exact.pushTail room
  | popHead => exact exact.popHead
  | popTail => exact exact.popTail

/-- A push at the tail of a full queue leaves the bound. -/
theorem Exact.not_of_full (exact : Exact queue) {call : Call Message}
    (full : ¬ HasRoom queue call) : ¬ Exact (queue.call call).2 := by
  simp only [HasRoom, Classical.not_imp] at full
  obtain ⟨rfl, kept, beyond⟩ := full
  obtain ⟨messages, kept⟩ := Option.ne_none_iff_exists'.1 kept
  intro after
  have bounded := after.bounded
  have length := exact.length
  simp only [CommQue.call, CommQue.pushTail, kept, if_true] at bounded
  omega

theorem Exact.behaves_iff (exact : Exact queue) (calls : List (Call Message)) :
    Behaves queue calls ↔ StepsMeet step HasRoom queue calls := by
  induction calls generalizing queue with
  | nil => exact iff_of_true exact trivial
  | cons call calls ih =>
      constructor
      · rintro ⟨-, -, rest⟩
        have room : HasRoom queue call := by
          by_contra full
          exact exact.not_of_full full rest.first
        refine ⟨room, fun next isNext => ?_⟩
        obtain rfl := Option.some.inj isNext
        exact (ih (exact.call room).1).1 rest
      · rintro ⟨room, rest⟩
        obtain ⟨kept, answers⟩ := exact.call room
        exact ⟨exact, answers, (ih kept).2 (rest _ rfl)⟩

/-- A queue before its first `COMM_API_queue_init`. -/
def zeroed (setdata getdata : Message) : CommQue Message where
  setdata := setdata
  getdata := getdata
  currentLength := 0
  que := none

theorem exact_zeroed (setdata getdata : Message) :
    Exact (zeroed setdata getdata) where
  length := rfl
  bounded := by
    simp [zeroed]

/-- A run keeps its length and its bound, and its calls answer as they
promise, exactly when every push at the tail that gets its memory finds
room. -/
theorem behaves_iff_hasRoom (setdata getdata : Message)
    (calls : List (Call Message)) :
    Behaves (zeroed setdata getdata) calls ↔
      StepsMeet step HasRoom (zeroed setdata getdata) calls :=
  (exact_zeroed setdata getdata).behaves_iff calls

theorem Behaves.last {calls : List (Call Message)}
    (behaves : Behaves queue calls) :
    Exact (calls.foldl (fun queue call => (queue.call call).2) queue) := by
  induction calls generalizing queue with
  | nil => exact behaves
  | cons call calls ih => exact ih behaves.2.2

/-- The tail takes a message more than the bound. -/
theorem not_forall_calls_behave :
    ¬ ∀ calls : List (Call Nat), Behaves (zeroed 0 0) calls := by
  intro behaves
  have last := (behaves (.init :: List.replicate 51 (.pushTail true))).last
  have length : ((Call.init :: List.replicate 51 (Call.pushTail true)).foldl
      (fun queue call => (queue.call call).2) (zeroed 0 0)).currentLength =
        51 := by
    decide +kernel
  have bounded := last.bounded
  rw [length] at bounded
  exact absurd bounded (by decide)

end CommQueueApi

end MbedtlsKcp
