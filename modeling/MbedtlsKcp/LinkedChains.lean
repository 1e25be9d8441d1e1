import Mathlib.Data.List.Nodup
import Mathlib.Logic.Function.Basic

/-!
# Chains of linked nodes

A heap is the link of every node.  A chain is the list of nodes met from a
start on, up to where the links stop.
-/

namespace MbedtlsKcp

namespace LinkedChains

variable {Addr : Type*} {next other : Addr → Option Addr}
variable {start stop : Option Addr} {node last : Addr} {nodes : List Addr}

/-- The nodes met from `start` on, before `stop`. -/
def Segment (next : Addr → Option Addr) :
    Option Addr → List Addr → Option Addr → Prop
  | start, [], stop => start = stop
  | start, node :: nodes, stop =>
      start = some node ∧ Segment next (next node) nodes stop

theorem segment_append {more : List Addr} :
    Segment next start (nodes ++ more) stop ↔
      ∃ middle, Segment next start nodes middle ∧
        Segment next middle more stop := by
  induction nodes generalizing start with
  | nil => simp [Segment]
  | cons node nodes ih => simp [Segment, ih, and_assoc]

/-- A segment depends on the links of its own nodes. -/
theorem Segment.congr (segment : Segment next start nodes stop)
    (same : ∀ node ∈ nodes, other node = next node) :
    Segment other start nodes stop := by
  induction nodes generalizing start with
  | nil => exact segment
  | cons node nodes ih =>
      obtain ⟨first, rest⟩ := segment
      refine ⟨first, ?_⟩
      rw [same node List.mem_cons_self]
      exact ih rest fun later member =>
        same later (List.mem_cons_of_mem node member)

section Update

variable [DecidableEq Addr]

theorem Segment.update (segment : Segment next start nodes stop)
    (outside : node ∉ nodes) (link : Option Addr) :
    Segment (Function.update next node link) start nodes stop := by
  apply segment.congr
  intro member isMember
  apply Function.update_of_ne
  rintro rfl
  exact outside isMember

/-- A new node is linked behind the last one. -/
theorem Segment.push (chain : Segment next start (nodes ++ [last]) none)
    (nodup : (nodes ++ [last]).Nodup) (fresh : node ∉ nodes ++ [last]) :
    Segment (Function.update (Function.update next node none) last (some node))
      start (nodes ++ [last] ++ [node]) none := by
  rw [List.mem_append, List.mem_singleton, not_or] at fresh
  obtain ⟨freshFront, different⟩ := fresh
  have lastOutside : last ∉ nodes := by
    intro member
    exact List.disjoint_of_nodup_append nodup member List.mem_cons_self
  obtain ⟨middle, front, isLast, -⟩ := segment_append.mp chain
  rw [List.append_assoc]
  refine segment_append.mpr ⟨middle,
    (front.update freshFront none).update lastOutside (some node), isLast, ?_⟩
  rw [Function.update_self]
  refine ⟨rfl, ?_⟩
  rw [Function.update_of_ne different, Function.update_self]
  rfl

end Update

end LinkedChains

end MbedtlsKcp
