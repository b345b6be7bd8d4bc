import McpTracer.Foundation.SortedSet

/-! Entries collected under their keys.

The groups are what a sorted map of lists holds after the entries were pushed one by one.
-/

set_option autoImplicit false

namespace McpTracer.Foundation.Grouping

variable {K V : Type} [LinearOrder K]

/-- What the entries have under a key, in order. -/
def valuesOf (key : K) (entries : List (K × V)) : List V := (entries.filter fun entry => entry.1 = key).map Prod.snd

def collect (entries : List (K × V)) : List (K × List V) :=
  (SortedSet.ofList (entries.map Prod.fst)).map fun key => (key, valuesOf key entries)

theorem mem_valuesOf {key : K} {entries : List (K × V)} {value : V} :
    value ∈ valuesOf key entries ↔ (key, value) ∈ entries := by
  rw [valuesOf, List.mem_map]
  constructor
  · rintro ⟨entry, kept, rfl⟩
    obtain ⟨member, same⟩ := List.mem_filter.1 kept
    obtain rfl : entry.1 = key := by simpa using same
    exact member
  · exact fun member => ⟨(key, value), List.mem_filter.2 ⟨member, by simp⟩, rfl⟩

theorem mem_collect {entries : List (K × V)} {key : K} {values : List V} :
    (key, values) ∈ collect entries ↔ values = valuesOf key entries ∧ values ≠ [] := by
  simp only [collect, List.mem_map, SortedSet.mem_ofList, Prod.mk.injEq]
  constructor
  · rintro ⟨other, ⟨entry, member, rfl⟩, rfl, rfl⟩
    exact ⟨rfl, List.ne_nil_of_mem (mem_valuesOf.2 member)⟩
  · rintro ⟨rfl, filled⟩
    obtain ⟨value, member⟩ := List.exists_mem_of_ne_nil _ filled
    exact ⟨key, ⟨(key, value), mem_valuesOf.1 member, rfl⟩, rfl, rfl⟩

end McpTracer.Foundation.Grouping
