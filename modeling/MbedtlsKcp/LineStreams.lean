import Mathlib.Algebra.Order.BigOperators.Group.List
import Mathlib.Algebra.Order.Ring.Nat

/-!
# Lines and pieces of a stream

A stream falls into lines that end with a stop, the last one perhaps without.
A reader with a limited room cuts it into pieces: a piece ends with a stop,
with the room, or with the stream.  There is one such cut of a stream, so that
a stream put together from pieces and marks can be taken apart again.
-/

namespace MbedtlsKcp

namespace LineStreams

variable {α : Type*}

section Lines

variable [DecidableEq α] {stop : α}

/-- The lines of a stream, with their stops. -/
def lines (stop : α) : List α → List (List α)
  | [] => []
  | entry :: rest =>
      if entry = stop then [entry] :: lines stop rest
      else
        match lines stop rest with
        | [] => [[entry]]
        | line :: more => (entry :: line) :: more

theorem lines_line {front : List α} (rest : List α) (noStop : stop ∉ front) :
    lines stop (front ++ stop :: rest) =
      (front ++ [stop]) :: lines stop rest := by
  induction front with
  | nil => rw [List.nil_append, lines, if_pos rfl, List.nil_append]
  | cons entry front ih =>
      obtain ⟨other, later⟩ := not_or.1 (mt List.mem_cons.2 noStop)
      rw [List.cons_append, lines, if_neg (Ne.symm other), ih later]
      rfl

theorem lines_last {line : List α} (some : line ≠ []) (noStop : stop ∉ line) :
    lines stop line = [line] := by
  induction line with
  | nil => exact absurd rfl some
  | cons entry rest ih =>
      obtain ⟨other, later⟩ := not_or.1 (mt List.mem_cons.2 noStop)
      rw [lines, if_neg (Ne.symm other)]
      cases rest with
      | nil => rfl
      | cons next rest => rw [ih (List.cons_ne_nil next rest) later]

/-- Induction over the lines of a stream. -/
theorem line_induction (stop : α) {motive : List α → Prop}
    (nil : motive [])
    (last : ∀ line, line ≠ [] → stop ∉ line → motive line)
    (line : ∀ front rest, stop ∉ front → motive rest →
      motive (front ++ stop :: rest))
    (stream : List α) : motive stream := by
  induction length : stream.length using Nat.strongRecOn
    generalizing stream with
  | ind count ih =>
    by_cases stopped : stop ∈ stream
    · obtain ⟨front, rest, rfl, noStop⟩ :=
        List.eq_append_cons_of_mem stopped
      refine line front rest noStop (ih rest.length ?_ rest rfl)
      rw [List.length_append, List.length_cons] at length
      omega
    · by_cases empty : stream = []
      · rw [empty]
        exact nil
      · exact last stream empty stopped

theorem lines_some {stream line : List α} (member : line ∈ lines stop stream) :
    line ≠ [] ∧ stop ∉ line.dropLast := by
  induction stream using line_induction stop with
  | nil => cases member
  | last last some noStop =>
      rw [lines_last some noStop] at member
      obtain rfl := List.mem_singleton.1 member
      exact ⟨some, fun inside => noStop (List.dropLast_subset _ inside)⟩
  | line front rest noStop ih =>
      rw [lines_line rest noStop] at member
      obtain rfl | later := List.mem_cons.1 member
      · exact ⟨by simp, by rwa [List.dropLast_concat]⟩
      · exact ih later

theorem flatten_lines (stream : List α) :
    (lines stop stream).flatten = stream := by
  induction stream using line_induction stop with
  | nil => rfl
  | last line some noStop =>
      rw [lines_last some noStop, List.flatten_cons, List.flatten_nil,
        List.append_nil]
  | line front rest noStop ih =>
      rw [lines_line rest noStop, List.flatten_cons, ih, List.append_assoc]
      rfl

end Lines

/-! ## Cuts -/

/-- A piece of a stream: its stop, if it has one, is its end. -/
structure Piece (stop : α) (room : Nat) (piece : List α) : Prop where
  some : piece ≠ []
  fits : piece.length ≤ room
  inside : stop ∉ piece.dropLast

/-- Pieces of which only the last may have neither a stop nor the full
length. -/
inductive Cut (stop : α) (room : Nat) : List (List α) → Prop
  | nil : Cut stop room []
  | cons {piece : List α} {rest : List (List α)}
      (isPiece : Piece stop room piece)
      (ends : stop ∉ piece → piece.length < room → rest = [])
      (cut : Cut stop room rest) : Cut stop room (piece :: rest)

variable {stop : α} {room : Nat}

theorem Cut.some_of_mem {pieces : List (List α)} (cut : Cut stop room pieces)
    {piece : List α} (member : piece ∈ pieces) : piece ≠ [] := by
  induction cut with
  | nil => cases member
  | cons isPiece ends cut ih =>
      obtain rfl | later := List.mem_cons.1 member
      · exact isPiece.some
      · exact ih later

/-- The first piece is not shorter than another first piece. -/
theorem length_le_of_cut {first other : List α} {rest : List (List α)}
    {after : List α} (ends : stop ∉ first → first.length < room → rest = [])
    (isPiece : Piece stop room other)
    (same : first ++ rest.flatten = other ++ after) :
    other.length ≤ first.length := by
  by_contra longer
  have within : first <+: other.dropLast := by
    rw [List.dropLast_eq_take, List.prefix_take_iff]
    refine ⟨List.prefix_of_prefix_length_le (List.prefix_append first _)
      (same ▸ List.prefix_append other after) (by omega), by omega⟩
  have noStop : stop ∉ first := fun member =>
    isPiece.inside (within.subset member)
  have short : first.length < room := by
    have fits := isPiece.fits
    omega
  have lengths := congrArg List.length same
  rw [ends noStop short, List.flatten_nil, List.append_nil,
    List.length_append] at lengths
  omega

/-- A stream is cut in one way. -/
theorem Cut.unique {first second : List (List α)} (cut : Cut stop room first)
    (other : Cut stop room second) (same : first.flatten = second.flatten) :
    first = second := by
  induction cut generalizing second with
  | nil =>
      cases other with
      | nil => rfl
      | cons isPiece ends cut =>
          have empty := (List.append_eq_nil_iff.1 same.symm).1
          exact absurd empty isPiece.some
  | cons isPiece ends cut ih =>
      cases other with
      | nil =>
          have empty := (List.append_eq_nil_iff.1 same).1
          exact absurd empty isPiece.some
      | cons isOther endsOther cutOther =>
          rw [List.flatten_cons, List.flatten_cons] at same
          have length := Nat.le_antisymm
            (length_le_of_cut endsOther isPiece same.symm)
            (length_le_of_cut ends isOther same)
          obtain ⟨rfl, rest⟩ := List.append_inj same length
          rw [ih cutOther rest]

/-- Behind a stop another cut may follow. -/
theorem Cut.append {first second : List (List α)} (cut : Cut stop room first)
    (next : Cut stop room second)
    (stopped : ∀ last ∈ first.getLast?, stop ∈ last) :
    Cut stop room (first ++ second) := by
  induction cut with
  | nil => exact next
  | @cons piece rest isPiece ends cut ih =>
      rw [List.cons_append]
      refine .cons isPiece (fun noStop short => ?_) (ih ?_)
      · have alone := ends noStop short
        subst alone
        exact absurd (stopped piece rfl) noStop
      · intro last member
        apply stopped
        cases rest with
        | nil => cases member
        | cons => exact member

/-! ## Marks -/

/-- Pieces with marks between them. -/
inductive Marked (stop : α) (room : Nat) : List (Option (List α)) → Prop
  | nil : Marked stop room []
  | mark {rest : List (Option (List α))} (marked : Marked stop room rest) :
      Marked stop room (none :: rest)
  | piece {piece : List α} {rest : List (Option (List α))}
      (isPiece : Piece stop room piece)
      (ends : stop ∉ piece → piece.length < room → rest = [])
      (marked : Marked stop room rest) : Marked stop room (some piece :: rest)

/-- The stream with the same text at every mark. -/
def fill (text : List α) (items : List (Option (List α))) : List α :=
  (items.map (·.getD text)).flatten

theorem fill_append (text : List α) (first second : List (Option (List α))) :
    fill text (first ++ second) = fill text first ++ fill text second := by
  rw [fill, List.map_append, List.flatten_append]
  rfl

/-- Without marks the pieces are filled in as they are. -/
theorem fill_pieces (text : List α) (pieces : List (List α)) :
    fill text (pieces.map some) = pieces.flatten := by
  rw [fill, List.map_map]
  exact congrArg List.flatten (List.map_id pieces)

variable {items : List (Option (List α))}

theorem Marked.of_cut {pieces : List (List α)} (cut : Cut stop room pieces) :
    Marked stop room (pieces.map some) := by
  induction cut with
  | nil => exact .nil
  | cons isPiece ends cut ih =>
      refine .piece isPiece (fun noStop short => ?_) ih
      rw [ends noStop short, List.map_nil]

theorem Marked.append {next : List (Option (List α))}
    (marked : Marked stop room items) (after : Marked stop room next)
    (stopped : ∀ last ∈ items.getLast?, ∀ piece ∈ last, stop ∈ piece) :
    Marked stop room (items ++ next) := by
  have later {item : Option (List α)} {rest : List (Option (List α))}
      (stopped : ∀ last ∈ (item :: rest).getLast?, ∀ piece ∈ last,
        stop ∈ piece) :
      ∀ last ∈ rest.getLast?, ∀ piece ∈ last, stop ∈ piece := by
    intro last member
    apply stopped
    cases rest with
    | nil => cases member
    | cons => exact member
  induction marked with
  | nil => exact after
  | mark marked ih => exact .mark (ih (later stopped))
  | @piece piece rest isPiece ends marked ih =>
      refine .piece isPiece (fun noStop short => ?_) (ih (later stopped))
      have alone := ends noStop short
      subst alone
      exact absurd (stopped (some piece) rfl piece rfl) noStop

/-- A mark filled with one entry and a stop is a piece. -/
theorem Marked.cut (marked : Marked stop room items) {entry : α}
    (other : entry ≠ stop) (wide : 2 ≤ room) :
    Cut stop room (items.map (·.getD [entry, stop])) := by
  induction marked with
  | nil => exact .nil
  | mark marked ih =>
      refine .cons ⟨List.cons_ne_nil _ _, wide, ?_⟩ (fun noStop => ?_) ih
      · simp [Ne.symm other]
      · exact absurd (by simp) noStop
  | piece isPiece ends marked ih =>
      refine .cons isPiece (fun noStop short => ?_) ih
      rw [ends noStop short, List.map_nil]

/-- Two texts are enough to tell pieces from marks. -/
theorem Marked.unique {first second : List (Option (List α))} (one two : α)
    (marked : Marked stop room first) (other : Marked stop room second)
    (wide : 2 ≤ room) (oneApart : one ≠ stop) (twoApart : two ≠ stop)
    (apart : one ≠ two)
    (sameOne : fill [one, stop] first = fill [one, stop] second)
    (sameTwo : fill [two, stop] first = fill [two, stop] second) :
    first = second := by
  have ones := (marked.cut oneApart wide).unique (other.cut oneApart wide)
    sameOne
  have twos := (marked.cut twoApart wide).unique (other.cut twoApart wide)
    sameTwo
  clear marked other sameOne sameTwo
  induction first generalizing second with
  | nil => exact (List.map_eq_nil_iff.1 ones.symm).symm
  | cons item rest ih =>
      cases second with
      | nil => cases ones
      | cons next more =>
          obtain ⟨itemOne, restOne⟩ := List.cons.inj ones
          obtain ⟨itemTwo, restTwo⟩ := List.cons.inj twos
          have same : item = next := by
            cases item with
            | none =>
                cases next with
                | none => rfl
                | some piece =>
                    have both : [one, stop] = [two, stop] :=
                      itemOne.trans itemTwo.symm
                    exact absurd (List.cons.inj both).1 apart
            | some piece =>
                cases next with
                | none =>
                    have both : [one, stop] = [two, stop] :=
                      itemOne.symm.trans itemTwo
                    exact absurd (List.cons.inj both).1 apart
                | some other => exact congrArg some itemOne
          rw [same, ih restOne restTwo]

/-- Pieces that are dropped leave the rest in place. -/
theorem Marked.filterMap {pieces : List (List α)}
    (cut : Cut stop room pieces)
    {fate : List α → Option (Option (List α))}
    (kept : ∀ piece result, fate piece = some (some result) → result = piece) :
    Marked stop room (pieces.filterMap fate) := by
  induction cut with
  | nil => exact .nil
  | @cons piece rest isPiece ends cut ih =>
      cases known : fate piece with
      | none => rwa [List.filterMap_cons_none known]
      | some item =>
          rw [List.filterMap_cons_some known]
          cases item with
          | none => exact .mark ih
          | some result =>
              obtain rfl := kept piece result known
              refine .piece isPiece (fun noStop short => ?_) ih
              rw [ends noStop short, List.filterMap_nil]

/-! ## Blocks of pieces -/

section Blocks

variable {β : Type*}

/-- Terms of which each is at least another one are those when their sum is. -/
theorem eq_of_sum_le {terms : List β} {low high : β → Nat}
    (below : ∀ term ∈ terms, low term ≤ high term)
    (sum : (terms.map high).sum ≤ (terms.map low).sum) :
    ∀ term ∈ terms, high term = low term := by
  induction terms with
  | nil => exact fun term member => absurd member List.not_mem_nil
  | cons first rest ih =>
      obtain ⟨here, later⟩ := List.forall_mem_cons.1 below
      have restBelow := List.sum_le_sum later
      rw [List.map_cons, List.map_cons, List.sum_cons, List.sum_cons] at sum
      intro term member
      obtain rfl | further := List.mem_cons.1 member
      · omega
      · exact ih later (by omega) term further

variable {fate : β → Option (Option β)} {meets : List β → Prop}
variable [DecidablePred meets] {blocks : List (List β)}

/-- A block is to become one mark, or to stay. -/
def markBlock (meets : List β → Prop) [DecidablePred meets] (block : List β) :
    List (Option β) :=
  if meets block then [none] else block.map some

/-- Piece by piece the blocks become what they are to become only if the
marked ones are single pieces and all pieces of the others are kept. -/
theorem single_or_kept
    (kept : ∀ piece result, fate piece = some (some result) → result = piece)
    (undropped : ∀ block, meets block → ∀ piece ∈ block, fate piece ≠ none)
    (nonempty : ∀ block ∈ blocks, block ≠ [])
    (same : blocks.flatMap (·.filterMap fate) =
      blocks.flatMap (markBlock meets)) :
    ∀ block ∈ blocks, if meets block then block.length = 1
      else ∀ piece ∈ block, fate piece = some (some piece) := by
  have stays : ∀ block ∈ blocks, ¬ meets block → ∀ piece ∈ block,
      fate piece = some (some piece) := by
    intro block member fails piece inside
    have due : some piece ∈ blocks.flatMap (markBlock meets) := by
      refine List.mem_flatMap.2 ⟨block, member, ?_⟩
      rw [markBlock, if_neg fails]
      exact List.mem_map_of_mem inside
    rw [← same] at due
    obtain ⟨_, _, found⟩ := List.mem_flatMap.1 due
    obtain ⟨source, _, known⟩ := List.mem_filterMap.1 found
    obtain rfl := kept source piece known
    exact known
  -- nothing is dropped, so that both have the same number of items
  have whole : ∀ block ∈ blocks, (block.filterMap fate).length =
      block.length := by
    intro block member
    rw [List.length_filterMap_eq_countP, List.countP_eq_length]
    intro piece inside
    rw [Option.isSome_iff_ne_none]
    by_cases isMet : meets block
    · exact undropped block isMet piece inside
    · rw [stays block member isMet piece inside]
      exact Option.some_ne_none _
  have below : ∀ block ∈ blocks, (markBlock meets block).length ≤
      (block.filterMap fate).length := by
    intro block member
    rw [whole block member, markBlock]
    split
    · exact List.length_pos_iff.2 (nonempty block member)
    · rw [List.length_map]
  have lengths := congrArg List.length same
  rw [List.length_flatMap, List.length_flatMap] at lengths
  intro block member
  have equal := eq_of_sum_le below lengths.le block member
  rw [whole block member, markBlock] at equal
  split
  case isTrue isMet =>
    rw [if_pos isMet] at equal
    exact equal
  case isFalse fails => exact stays block member fails

end Blocks

end LineStreams

end MbedtlsKcp
