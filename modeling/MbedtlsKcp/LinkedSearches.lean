import MbedtlsKcp.LinkedChains
import Mathlib.Order.WellFounded

/-!
# Searches along links

A search visits the nodes of a chain in their order until a visit finds
something, and every visit may leave notes.  With enough fuel it is the sweep
of a list: of the nodes that the links give, or of what these nodes hold.
-/

namespace MbedtlsKcp

namespace LinkedSearches

open LinkedChains

section Sweeps

variable {Item Found Notes : Type*}

/-- The visits to a list, up to the first one that finds something. -/
def sweep (visit : Item → Notes → Option Found × Notes) :
    List Item → Notes → Option Found × Notes
  | [], notes => (none, notes)
  | item :: items, notes =>
      match visit item notes with
      | (some found, notes) => (some found, notes)
      | (none, notes) => sweep visit items notes

variable {visit : Item → Notes → Option Found × Notes}

@[simp]
theorem sweep_nil (notes : Notes) : sweep visit [] notes = (none, notes) :=
  rfl

theorem sweep_cons_some {item : Item} {notes after : Notes} {found : Found}
    (finds : visit item notes = (some found, after)) (items : List Item) :
    sweep visit (item :: items) notes = (some found, after) := by
  simp [sweep, finds]

theorem sweep_cons_none {item : Item} {notes after : Notes}
    (misses : visit item notes = (none, after)) (items : List Item) :
    sweep visit (item :: items) notes = sweep visit items after := by
  simp [sweep, misses]

theorem sweep_append_some {items : List Item} {notes after : Notes}
    {found : Found} (finds : sweep visit items notes = (some found, after))
    (more : List Item) :
    sweep visit (items ++ more) notes = (some found, after) := by
  induction items generalizing notes with
  | nil => simp at finds
  | cons item items ih =>
      rcases visited : visit item notes with ⟨_ | first, between⟩
      · rw [sweep_cons_none visited] at finds
        rw [List.cons_append, sweep_cons_none visited]
        exact ih finds
      · rw [sweep_cons_some visited] at finds
        rw [List.cons_append, sweep_cons_some visited]
        exact finds

theorem sweep_append_none {items : List Item} {notes after : Notes}
    (misses : sweep visit items notes = (none, after)) (more : List Item) :
    sweep visit (items ++ more) notes = sweep visit more after := by
  induction items generalizing notes with
  | nil =>
      obtain rfl : notes = after := by simpa using misses
      rfl
  | cons item items ih =>
      rcases visited : visit item notes with ⟨_ | first, between⟩
      · rw [sweep_cons_none visited] at misses
        rw [List.cons_append, sweep_cons_none visited]
        exact ih misses
      · rw [sweep_cons_some visited] at misses
        simp at misses

/-- Sweeping the tables one after the other sweeps them as one list. -/
theorem sweep_flatMap {Place : Type*} (table : Place → List Item)
    (places : List Place) (notes : Notes) :
    sweep (fun place => sweep visit (table place)) places notes =
      sweep visit (places.flatMap table) notes := by
  induction places generalizing notes with
  | nil => rfl
  | cons place places ih =>
      rw [List.flatMap_cons]
      rcases swept : sweep visit (table place) notes with ⟨_ | found, after⟩
      · rw [sweep_append_none swept, ← ih after]
        simp [sweep, swept]
      · rw [sweep_append_some swept]
        simp [sweep, swept]

/-- What every visit keeps is kept. -/
theorem sweep_keeps (property : Notes → Prop)
    (keeps : ∀ item notes, property notes → property (visit item notes).2)
    (items : List Item) {notes : Notes} (holds : property notes) :
    property (sweep visit items notes).2 := by
  induction items generalizing notes with
  | nil => exact holds
  | cons item items ih =>
      have kept := keeps item notes holds
      rcases visited : visit item notes with ⟨_ | found, after⟩
      · rw [visited] at kept
        rw [sweep_cons_none visited]
        exact ih kept
      · rw [visited] at kept
        rw [sweep_cons_some visited]
        exact kept

theorem exists_visit_of_sweep {items : List Item} {notes after : Notes}
    {found : Found} (finds : sweep visit items notes = (some found, after)) :
    ∃ item ∈ items, ∃ before, visit item before = (some found, after) := by
  induction items generalizing notes with
  | nil => simp at finds
  | cons item items ih =>
      rcases visited : visit item notes with ⟨_ | first, between⟩
      · rw [sweep_cons_none visited] at finds
        obtain ⟨later, member, before, visits⟩ := ih finds
        exact ⟨later, List.mem_cons_of_mem item member, before, visits⟩
      · rw [sweep_cons_some visited, ← visited] at finds
        exact ⟨item, List.mem_cons_self, notes, finds⟩

end Sweeps

section Links

variable {Addr Found Notes : Type*}

/-- The visits along the links, with fuel. -/
def search (next : Addr → Option Addr)
    (visit : Addr → Notes → Option Found × Notes) :
    Nat → Option Addr → Notes → Option (Option Found × Notes)
  | 0, _, _ => none
  | _ + 1, none, notes => some (none, notes)
  | fuel + 1, some place, notes =>
      match visit place notes with
      | (some found, notes) => some (some found, notes)
      | (none, notes) => search next visit fuel (next place) notes

/-- The place where the links end, with fuel. -/
def settle (next : Addr → Option Addr) : Nat → Addr → Option Addr
  | 0, _ => none
  | fuel + 1, place =>
      match next place with
      | none => some place
      | some inner => settle next fuel inner

variable {next : Addr → Option Addr}
variable {visit : Addr → Notes → Option Found × Notes}
variable {start : Option Addr} {place last : Addr} {notes : Notes}
variable {result : Option Found × Notes} {fuel more : Nat}

theorem search_more (ends : search next visit fuel start notes = some result)
    (enough : fuel ≤ more) :
    search next visit more start notes = some result := by
  induction fuel generalizing start notes more with
  | zero => simp [search] at ends
  | succ fuel ih =>
      obtain ⟨more, rfl⟩ : ∃ rest, more = rest + 1 := ⟨more - 1, by omega⟩
      cases start with
      | none => exact ends
      | some place =>
          simp only [search] at ends ⊢
          generalize visit place notes = visited at ends ⊢
          rcases visited with ⟨_ | found, after⟩
          · exact ih ends (by omega)
          · exact ends

theorem settle_more (ends : settle next fuel place = some last)
    (enough : fuel ≤ more) : settle next more place = some last := by
  induction fuel generalizing place more with
  | zero => simp [settle] at ends
  | succ fuel ih =>
      obtain ⟨more, rfl⟩ : ∃ rest, more = rest + 1 := ⟨more - 1, by omega⟩
      simp only [settle] at ends ⊢
      generalize next place = link at ends ⊢
      cases link with
      | none => exact ends
      | some inner => exact ih ends (by omega)

theorem exists_segment_of_search
    (ends : search next visit fuel start notes = some result) :
    ∃ places stop, Segment next start places stop ∧
      sweep visit places notes = result ∧ (result.1 = none → stop = none) := by
  induction fuel generalizing start notes with
  | zero => simp [search] at ends
  | succ fuel ih =>
      cases start with
      | none =>
          obtain rfl : (none, notes) = result := by simpa [search] using ends
          exact ⟨[], none, rfl, rfl, fun _ => rfl⟩
      | some place =>
          simp only [search] at ends
          rcases visited : visit place notes with ⟨_ | found, after⟩
          · rw [visited] at ends
            obtain ⟨places, stop, segment, swept, stops⟩ := ih ends
            refine ⟨place :: places, stop, ⟨rfl, segment⟩, ?_, stops⟩
            rw [sweep_cons_none visited]
            exact swept
          · rw [visited] at ends
            obtain rfl : (some found, after) = result := by simpa using ends
            refine ⟨[place], next place, ⟨rfl, rfl⟩, ?_, ?_⟩
            · exact sweep_cons_some visited []
            · simp

theorem exists_search_of_segment {places : List Addr} {stop : Option Addr}
    (segment : Segment next start places stop)
    (swept : sweep visit places notes = result)
    (stops : result.1 = none → stop = none) :
    ∃ fuel, search next visit fuel start notes = some result := by
  induction places generalizing start notes with
  | nil =>
      obtain rfl : (none, notes) = result := swept
      obtain rfl : start = stop := segment
      obtain rfl : start = none := stops rfl
      exact ⟨1, rfl⟩
  | cons place places ih =>
      obtain ⟨rfl, rest⟩ := segment
      rcases visited : visit place notes with ⟨_ | found, after⟩
      · rw [sweep_cons_none visited] at swept
        obtain ⟨fuel, ends⟩ := ih rest swept
        exact ⟨fuel + 1, by simpa [search, visited] using ends⟩
      · rw [sweep_cons_some visited] at swept
        exact ⟨1, by simpa [search, visited] using swept⟩

/-- A search ends exactly as a sweep of the nodes met; one that finds nothing
has met the end of the links. -/
theorem exists_search_iff :
    (∃ fuel, search next visit fuel start notes = some result) ↔
      ∃ places stop, Segment next start places stop ∧
        sweep visit places notes = result ∧
          (result.1 = none → stop = none) := by
  constructor
  · rintro ⟨fuel, ends⟩
    exact exists_segment_of_search ends
  · rintro ⟨places, stop, segment, swept, stops⟩
    exact exists_search_of_segment segment swept stops

theorem exists_settle_iff :
    (∃ fuel, settle next fuel place = some last) ↔
      ∃ places, Segment next (some place) (places ++ [last]) none := by
  constructor
  · rintro ⟨fuel, ends⟩
    induction fuel generalizing place with
    | zero => simp [settle] at ends
    | succ fuel ih =>
        simp only [settle] at ends
        cases link : next place with
        | none =>
            obtain rfl : place = last := by simpa [link] using ends
            exact ⟨[], rfl, link⟩
        | some inner =>
            rw [link] at ends
            obtain ⟨places, segment⟩ := ih ends
            exact ⟨place :: places, rfl, link ▸ segment⟩
  · rintro ⟨places, segment⟩
    induction places generalizing place with
    | nil =>
        obtain ⟨same, ends⟩ := segment
        obtain rfl := Option.some.inj same
        replace ends : next place = none := ends
        exact ⟨1, by simp [settle, ends]⟩
    | cons first places ih =>
        obtain ⟨same, rest⟩ := segment
        obtain rfl := Option.some.inj same
        cases link : next place with
        | none => cases places <;> simp [link, Segment] at rest
        | some inner =>
            obtain ⟨fuel, ends⟩ := ih (link ▸ rest)
            exact ⟨fuel + 1, by simpa [settle, link] using ends⟩

/-- No endless way along the links. -/
def Grounded (next : Addr → Option Addr) : Prop :=
  WellFounded fun inner outer => next outer = some inner

theorem Grounded.exists_search (grounded : Grounded next)
    (visit : Addr → Notes → Option Found × Notes) (start : Option Addr)
    (notes : Notes) :
    ∃ fuel result, search next visit fuel start notes = some result := by
  cases start with
  | none => exact ⟨1, _, rfl⟩
  | some place =>
      induction place using grounded.induction generalizing notes with
      | h place ih =>
          rcases visited : visit place notes with ⟨_ | found, after⟩
          · cases link : next place with
            | none => exact ⟨2, (none, after), by simp [search, visited, link]⟩
            | some inner =>
                obtain ⟨fuel, result, ends⟩ := ih inner link after
                refine ⟨fuel + 1, result, ?_⟩
                simpa [search, visited, link] using ends
          · exact ⟨1, (some found, after), by simp [search, visited]⟩

theorem Grounded.exists_settle (grounded : Grounded next) (place : Addr) :
    ∃ fuel last, settle next fuel place = some last := by
  induction place using grounded.induction with
  | h place ih =>
      cases link : next place with
      | none => exact ⟨1, place, by simp [settle, link]⟩
      | some inner =>
          obtain ⟨fuel, last, ends⟩ := ih inner link
          exact ⟨fuel + 1, last, by simpa [settle, link] using ends⟩

end Links

end LinkedSearches

end MbedtlsKcp
