import MbedtlsKcp.TcpHandshake

/-!
# What a frame keeps of its heap block

`tcp_client_send_frame` fills a block that `malloc` does not clear.  No frame
type has an assignment to the reserved bytes, and only a client hello one to
the random data.
-/

namespace MbedtlsKcp

namespace TcpClient

open ByteBuffers AesWrapper RepeaterAes

/-- The bytes that `tcp_client_send_frame` hands to `tcp_client_send_data`;
`none` when it does not get there. -/
def handedOver (outcome : FrameOutcome) (frameType : Nat)
    (payload : List UInt8) (process : Process) : Option (List UInt8) := do
  let client ← process.client.read
  if client.init = false ∨ client.connected = false ∨ payload = [] ∨
      outcome.malloc = false then none
  else some (process.frameBytes outcome frameType payload)

/-- A frame that is handed over is what is sent, and without one nothing
happens. -/
theorem tcpClientSendFrame_eq (outcome : FrameOutcome) (frameType : Nat)
    (payload : List UInt8) (process : Process) :
    tcpClientSendFrame outcome frameType payload process =
      match handedOver outcome frameType payload process with
      | some frame => do
          let (ret, process) ← tcpClientSendData outcome.sends frame process
          if ret ≠ ((sizeofTcpFrame + payload.length : Nat) : Int) then
            return (-1, process)
          else return (ret, process)
      | none => process.client.read.map fun _ => (-1, process) := by
  unfold tcpClientSendFrame handedOver
  cases process.client.read with
  | none => rfl
  | some client =>
      simp only [Option.bind_eq_bind, Option.bind_some, Option.map_some]
      cases init : client.init with
      | false => rfl
      | true =>
          cases connected : client.connected with
          | false => rfl
          | true =>
              by_cases empty : payload = []
              · simp [empty]
              · cases allocates : outcome.malloc with
                | false => simp [empty]
                | true => simp [empty]

/-- The bytes of the header that are not written: the reserved ones, and the
random data unless the frame is a client hello. -/
def Unwritten (frameType i : Nat) : Prop :=
  (38 ≤ i ∧ i < sizeofTcpFrame) ∨
    (16 ≤ i ∧ i < 32 ∧ frameType ≠ frameTypeClientHello)

/-- Two heap contents agree on what a frame leaves of them. -/
def SameResidue (frameType : Nat) (first second : Nat → UInt8) : Prop :=
  ∀ i, Unwritten frameType i → first i = second i

section Frames

variable {first second source : List UInt8} {position size : Nat}

/-- One copy into two blocks of the same size. -/
theorem overwrite_residue (firstSize : first.length = size)
    (secondSize : second.length = size)
    (fits : position + source.length ≤ size) (i : Nat) :
    (overwrite first position source).length = size ∧
      (overwrite second position source).length = size ∧
      ((overwrite first position source)[i]? =
          (overwrite second position source)[i]? ↔
        (position ≤ i ∧ i < position + source.length) ∨
          first[i]? = second[i]?) := by
  have firstFits : position + source.length ≤ first.length := by omega
  have secondFits : position + source.length ≤ second.length := by omega
  refine ⟨(length_overwrite firstFits).trans firstSize,
    (length_overwrite secondFits).trans secondSize, ?_⟩
  rw [getElem?_overwrite firstFits, getElem?_overwrite secondFits]
  split_ifs with inside
  · simp [inside]
  · simp [inside]

/-- The copies of a client hello and what they leave. -/
theorem written_iff_of_hello {frameType i length : Nat} {agrees : Prop}
    (hello : frameType = frameTypeClientHello) :
    (sizeofTcpFrame ≤ i ∧ i < sizeofTcpFrame + length ∨
      16 ≤ i ∧ i < 16 + 16 ∨ 8 ≤ i ∧ i < 8 + 8 ∨ 32 ≤ i ∧ i < 32 + 6 ∨
      4 ≤ i ∧ i < 4 + 4 ∨ 2 ≤ i ∧ i < 2 + 2 ∨ 0 ≤ i ∧ i < 0 + 2 ∨
      sizeofTcpFrame + length ≤ i ∨ agrees) ↔
        (Unwritten frameType i → agrees) := by
  have header : sizeofTcpFrame = 48 := rfl
  by_cases same : agrees
  · simp [same]
  · simp only [Unwritten, hello, same, ne_eq, not_true_eq_false, and_false,
      or_false, imp_false]
    omega

/-- The copies of any other frame and what they leave. -/
theorem written_iff_of_other {frameType i length : Nat} {agrees : Prop}
    (other : frameType ≠ frameTypeClientHello) :
    (sizeofTcpFrame ≤ i ∧ i < sizeofTcpFrame + length ∨
      8 ≤ i ∧ i < 8 + 8 ∨ 32 ≤ i ∧ i < 32 + 6 ∨ 4 ≤ i ∧ i < 4 + 4 ∨
      2 ≤ i ∧ i < 2 + 2 ∨ 0 ≤ i ∧ i < 0 + 2 ∨
      sizeofTcpFrame + length ≤ i ∨ agrees) ↔
        (Unwritten frameType i → agrees) := by
  have header : sizeofTcpFrame = 48 := rfl
  by_cases same : agrees
  · simp [same]
  · simp only [Unwritten, other, same, ne_eq, not_false_eq_true, and_true,
      or_false, imp_false]
    omega

/-- Two frames agree at a byte that is written, and at any other one if their
blocks did. -/
theorem getElem?_tcpFrameBytes_eq_iff (firstHeap secondHeap : Nat → UInt8)
    (frameType : Nat) (mac : Mac) (iv : AesKey) (timestamp : Nat)
    (payload : List UInt8) (i : Nat) :
    (tcpFrameBytes firstHeap frameType mac iv timestamp payload)[i]? =
        (tcpFrameBytes secondHeap frameType mac iv timestamp payload)[i]? ↔
      (Unwritten frameType i → firstHeap i = secondHeap i) := by
  have header : sizeofTcpFrame = 48 := rfl
  have blocks : ∀ heap : Nat → UInt8,
      ((List.range (sizeofTcpFrame + payload.length)).map heap).length =
        sizeofTcpFrame + payload.length := by
    intro heap
    simp
  have start : ((List.range (sizeofTcpFrame + payload.length)).map
        firstHeap)[i]? =
      ((List.range (sizeofTcpFrame + payload.length)).map secondHeap)[i]? ↔
        sizeofTcpFrame + payload.length ≤ i ∨ firstHeap i = secondHeap i := by
    rw [List.getElem?_map, List.getElem?_map]
    by_cases inside : i < sizeofTcpFrame + payload.length
    · rw [List.getElem?_range inside]
      simp [inside]
    · rw [List.getElem?_eq_none (by simpa using inside)]
      simp only [Option.map_none, true_iff]
      omega
  unfold tcpFrameBytes storeLE
  dsimp only
  obtain ⟨size1, size1', head⟩ := overwrite_residue (blocks firstHeap)
    (blocks secondHeap) (show 0 + (encodeLE 2 magicHead).length ≤ _ by
      rw [length_encodeLE]; omega) i
  obtain ⟨size2, size2', type⟩ := overwrite_residue size1 size1'
    (show 2 + (encodeLE 2 frameType).length ≤ _ by
      rw [length_encodeLE]; omega) i
  obtain ⟨size3, size3', length⟩ := overwrite_residue size2 size2'
    (show 4 + (encodeLE 4 payload.length).length ≤ _ by
      rw [length_encodeLE]; omega) i
  obtain ⟨size4, size4', address⟩ := overwrite_residue size3 size3'
    (show 32 + mac.toList.length ≤ _ by
      rw [Vector.length_toList]; omega) i
  obtain ⟨size5, size5', time⟩ := overwrite_residue size4 size4'
    (show 8 + (encodeLE 8 timestamp).length ≤ _ by
      rw [length_encodeLE]; omega) i
  rw [length_encodeLE] at head type length time
  rw [Vector.length_toList] at address
  by_cases hello : frameType = frameTypeClientHello
  · obtain ⟨size6, size6', random⟩ := overwrite_residue size5 size5'
      (show 16 + iv.toList.length ≤ _ by
        rw [Vector.length_toList]; omega) i
    obtain ⟨_, _, all⟩ := overwrite_residue size6 size6'
      (Nat.le_refl (sizeofTcpFrame + payload.length)) i
    rw [Vector.length_toList] at random
    rw [if_pos hello, if_pos hello, all, random, time, address, length, type,
      head, start]
    exact written_iff_of_hello hello
  · obtain ⟨_, _, all⟩ := overwrite_residue size5 size5'
      (Nat.le_refl (sizeofTcpFrame + payload.length)) i
    rw [if_neg hello, if_neg hello, all, time, address, length, type, head,
      start]
    exact written_iff_of_other hello

/-- Two runs hand over the same bytes exactly if nothing is handed over or
their heap blocks agree where nothing is written. -/
theorem handedOver_eq_iff_sameResidue (outcome : FrameOutcome)
    (frameType : UInt16) (payload : List UInt8) (process : Process)
    (firstHeap secondHeap : Nat → UInt8) :
    handedOver { outcome with garbage := firstHeap } frameType.toNat payload
          process =
        handedOver { outcome with garbage := secondHeap } frameType.toNat
          payload process ↔
      ((handedOver outcome frameType.toNat payload process).isSome →
        SameResidue frameType.toNat firstHeap secondHeap) := by
  unfold handedOver
  cases process.client.read with
  | none => simp
  | some client =>
      simp only [Option.bind_eq_bind, Option.bind_some]
      split_ifs with stops
      · simp
      · simp only [Option.some.injEq, Option.isSome_some, true_imp_iff]
        constructor
        · intro same i unwritten
          have byte := congrArg (·[i]?) same
          exact (getElem?_tcpFrameBytes_eq_iff _ _ _ _ _ _ _ i).mp byte
            unwritten
        · intro residue
          apply List.ext_getElem?
          intro i
          exact (getElem?_tcpFrameBytes_eq_iff _ _ _ _ _ _ _ i).mpr
            (residue i)

/-- A connected client on an otherwise empty process. -/
def connectedProcess : Process where
  aesContext := RepeaterAesContext.initial
  client := .live { Client.zero with init := true, connected := true }
  serverIp := .unallocated
  buffer := .unallocated
  openedSockets := []
  closedSockets := []
  arrivals := []
  sent := []
  received := []

/-- Blocks of zeros and of ones give different reserved bytes. -/
theorem not_forall_handedOver_eq :
    ¬ ∀ (outcome : FrameOutcome) (frameType : UInt16) (payload : List UInt8)
      (process : Process) (firstHeap secondHeap : Nat → UInt8),
      handedOver { outcome with garbage := firstHeap } frameType.toNat payload
          process =
        handedOver { outcome with garbage := secondHeap } frameType.toNat
          payload process := by
  intro claimed
  have same := claimed ⟨true, fun _ => 0, 0, []⟩ 0 [1] connectedProcess
    (fun _ => 0) (fun _ => 1)
  exact absurd same (by decide +kernel)

end Frames

end TcpClient

end MbedtlsKcp
