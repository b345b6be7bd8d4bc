import Mathlib.Data.List.Induction
import Mathlib.Data.List.Nodup
import Mathlib.Data.List.Perm.Basic
import Mathlib.Data.List.Perm.Lattice

/-! Rows that are written again and again.

A row with a key of its own is merged with the row that is there under this key, and otherwise added after
the others. Rows that belong to an owner are replaced all together.
-/

set_option autoImplicit false

namespace McpTracer.Foundation

/-! ## Merging under a key -/

section Keyed
variable {R K : Type} [DecidableEq K] (key : R → K) (merge : R → R → R)

def upsert (rows : List R) (item : R) : List R :=
  if key item ∈ rows.map key then rows.map fun row => if key row = key item then merge row item else row
  else rows ++ [item]

def upsertAll (rows items : List R) : List R := items.foldl (upsert key merge) rows

variable {key merge} (keeps : ∀ row item, key (merge row item) = key row)

theorem upsertAll_append (rows first second : List R) :
    upsertAll key merge rows (first ++ second) = upsertAll key merge (upsertAll key merge rows first) second :=
  List.foldl_append

theorem upsert_fresh {rows : List R} {item : R} (fresh : key item ∉ rows.map key) :
    upsert key merge rows item = rows ++ [item] :=
  if_neg fresh

/-- Rows under new keys are added as they are. -/
theorem upsertAll_fresh {rows items : List R} (unique : ((rows ++ items).map key).Nodup) :
    upsertAll key merge rows items = rows ++ items := by
  induction items generalizing rows with
  | nil => simp [upsertAll]
  | cons item rest ih =>
    have fresh : key item ∉ rows.map key := by
      rw [List.map_append, List.map_cons] at unique
      exact fun member => (List.nodup_append.1 unique).2.2 _ member _ List.mem_cons_self rfl
    rw [upsertAll, List.foldl_cons, upsert_fresh fresh, ← upsertAll, ih (by simpa using unique), List.append_assoc,
      List.singleton_append]

include keeps

theorem map_key_upsert (rows : List R) (item : R) :
    (upsert key merge rows item).map key =
      if key item ∈ rows.map key then rows.map key else rows.map key ++ [key item] := by
  unfold upsert
  split_ifs with there
  · rw [List.map_map]
    refine List.map_congr_left fun row _ => ?_
    rw [Function.comp_apply]
    split_ifs
    · exact keeps row item
    · rfl
  · simp

theorem nodup_upsert {rows : List R} (unique : (rows.map key).Nodup) (item : R) :
    ((upsert key merge rows item).map key).Nodup := by
  rw [map_key_upsert keeps]
  split_ifs with there
  · exact unique
  · exact List.concat_eq_append ▸ unique.concat there

theorem nodup_upsertAll {rows : List R} (unique : (rows.map key).Nodup) (items : List R) :
    ((upsertAll key merge rows items).map key).Nodup := by
  induction items generalizing rows with
  | nil => exact unique
  | cons item rest ih => exact ih (nodup_upsert keeps unique item)

/-- A row stays where it is. -/
theorem map_key_prefix_upsertAll (rows items : List R) : rows.map key <+: (upsertAll key merge rows items).map key := by
  induction items generalizing rows with
  | nil => exact List.prefix_rfl
  | cons item rest ih =>
    refine List.IsPrefix.trans ?_ (ih (upsert key merge rows item))
    rw [map_key_upsert keeps]
    split_ifs
    · exact List.prefix_rfl
    · exact List.prefix_append _ _

theorem mem_map_key_upsertAll {rows items : List R} {k : K} :
    k ∈ (upsertAll key merge rows items).map key ↔ k ∈ rows.map key ∨ k ∈ items.map key := by
  induction items generalizing rows with
  | nil => simp [upsertAll]
  | cons item rest ih =>
    rw [upsertAll, List.foldl_cons, ← upsertAll, ih, map_key_upsert keeps, List.map_cons, List.mem_cons]
    split_ifs with there
    · constructor
      · exact Or.imp_right .inr
      · rintro (old | rfl | new)
        · exact .inl old
        · exact .inl there
        · exact .inr new
    · rw [List.mem_append, List.mem_singleton, or_assoc]

/-- What grows with every merge has grown for the row that now stands for an old row or for an item. -/
theorem exists_above_of_mem {below : R → R → Prop} (refl : ∀ row, below row row)
    (trans : ∀ {a b c}, below a b → below b c → below a c) (left : ∀ row item, below row (merge row item))
    (right : ∀ row item, below item (merge row item)) {rows items : List R} {row : R}
    (member : row ∈ rows ∨ row ∈ items) :
    ∃ after ∈ upsertAll key merge rows items, key after = key row ∧ below row after := by
  induction items generalizing rows row with
  | nil => exact ⟨row, member.resolve_right List.not_mem_nil, rfl, refl row⟩
  | cons item rest ih =>
    have now : (∃ after ∈ upsert key merge rows item, key after = key row ∧ below row after) ∨ row ∈ rest := by
      unfold upsert
      rcases member with old | new
      · left
        split_ifs
        · refine ⟨_, List.mem_map_of_mem old, ?_⟩
          split_ifs
          · exact ⟨keeps row item, left row item⟩
          · exact ⟨rfl, refl row⟩
        · exact ⟨row, List.mem_append_left _ old, rfl, refl row⟩
      · rcases List.mem_cons.1 new with rfl | later
        · left
          split_ifs with there
          · obtain ⟨old, found, same⟩ := List.mem_map.1 there
            exact ⟨merge old row, List.mem_map.2 ⟨old, found, if_pos same⟩, (keeps old row).trans same, right old row⟩
          · exact ⟨row, List.mem_append_right _ List.mem_cons_self, rfl, refl row⟩
        · exact .inr later
    rcases now with ⟨after, found, same, above⟩ | later
    · obtain ⟨last, inside, equal, higher⟩ := @ih (upsert key merge rows item) after (.inl found)
      exact ⟨last, inside, equal.trans same, trans above higher⟩
    · exact @ih (upsert key merge rows item) row (.inr later)

/-- A row is what the items under its key merge to, in the order in which they come. -/
theorem exists_of_mem_upsertAll {items : List R} {row : R} (member : row ∈ upsertAll key merge [] items) :
    ∃ first rest, items.filter (fun item => key item = key row) = first :: rest ∧ row = rest.foldl merge first := by
  induction items using List.reverseRecOn generalizing row with
  | nil => cases member
  | append_singleton items item ih =>
    rw [upsertAll_append, upsertAll, List.foldl_cons, List.foldl_nil, upsert] at member
    rw [List.filter_append]
    split_ifs at member with there
    · obtain ⟨old, found, rfl⟩ := List.mem_map.1 member
      obtain ⟨first, rest, group, merged⟩ := ih found
      have sameKey : key (if key old = key item then merge old item else old) = key old := by
        split_ifs
        · exact keeps old item
        · rfl
      rw [sameKey, group]
      by_cases same : key old = key item
      · exact ⟨first, rest ++ [item], by simp [same], by simp [same, ← merged]⟩
      · have other : ¬key item = key old := fun equal => same equal.symm
        exact ⟨first, rest, by simp [other], by simpa [same] using merged⟩
    · rcases List.mem_append.1 member with found | new
      · obtain ⟨first, rest, group, merged⟩ := ih found
        have other : ¬key item = key row := fun equal => there (equal ▸ List.mem_map_of_mem found)
        exact ⟨first, rest, by simp [group, other], merged⟩
      · obtain rfl := List.mem_singleton.1 new
        have none : items.filter (fun other => key other = key row) = [] := by
          refine List.filter_eq_nil_iff.2 fun other inside same => there ?_
          refine (mem_map_key_upsertAll keeps).2 (.inr ?_)
          rw [← of_decide_eq_true same]
          exact List.mem_map_of_mem inside
        exact ⟨row, [], by simp [none], rfl⟩

end Keyed

/-- In a list without repetition, the positions of a front are those of its members. -/
theorem position_lt_iff {K : Type} {front list : List K} (start : front <+: list) (unique : list.Nodup) {position : Nat}
    {k : K} (found : list[position]? = some k) : position < front.length ↔ k ∈ front := by
  obtain ⟨rest, rfl⟩ := start
  constructor
  · intro within
    rw [List.getElem?_append_left within] at found
    exact List.mem_of_getElem? found
  · intro member
    by_contra beyond
    rw [List.getElem?_append_right (Nat.not_lt.1 beyond)] at found
    exact (List.nodup_append.1 unique).2.2 k member k (List.mem_of_getElem? found) rfl

/-! ## Replacing what belongs to an owner -/

section Owned
variable {R O : Type} [DecidableEq O] (owner : R → O)

def replaceOwned (rows : List R) (own : O) (items : List R) : List R :=
  rows.filter (fun row => owner row ≠ own) ++ items

variable {owner}

theorem filter_replaceOwned {rows items : List R} {own : O} (owned : ∀ item ∈ items, owner item = own) (other : O) :
    (replaceOwned owner rows own items).filter (fun row => owner row = other) =
      if other = own then items else rows.filter fun row => owner row = other := by
  rw [replaceOwned, List.filter_append, List.filter_filter]
  split_ifs with same
  · subst same
    have none : rows.filter (fun row => decide (owner row = other) && decide (owner row ≠ other)) = [] := by simp
    rw [none, List.nil_append]
    exact List.filter_eq_self.2 fun item member => decide_eq_true (owned item member)
  · have gone : items.filter (fun row => owner row = other) = [] := by
      refine List.filter_eq_nil_iff.2 fun item member equal => same ?_
      rw [← of_decide_eq_true equal, owned item member]
    rw [gone, List.append_nil]
    refine List.filter_congr fun row _ => ?_
    by_cases here : owner row = other
    · simp [here, same]
    · simp [here]

/-- What is left after the rows of one owner after the other were replaced. -/
def replaceEach {V : Type} (owner : R → O) (own : V → O) (items : V → List R) (visits : List V) : List R :=
  visits.foldl (fun rows visit => replaceOwned owner rows (own visit) (items visit)) []

section Each
variable {V : Type} {own : V → O} {items : V → List R} (owned : ∀ visit, ∀ item ∈ items visit, owner item = own visit)

theorem replaceEach_concat (visits : List V) (visit : V) :
    replaceEach owner own items (visits ++ [visit]) =
      replaceOwned owner (replaceEach owner own items visits) (own visit) (items visit) := by
  rw [replaceEach, List.foldl_append]
  rfl

include owned

theorem filter_replaceEach_of_notMem {visits : List V} {other : O} (absent : other ∉ visits.map own) :
    (replaceEach owner own items visits).filter (fun row => owner row = other) = [] := by
  induction visits using List.reverseRecOn with
  | nil => rfl
  | append_singleton visits visit ih =>
    rw [List.map_append, List.mem_append, not_or, List.map_singleton, List.mem_singleton] at absent
    rw [replaceEach_concat, filter_replaceOwned (owned visit), if_neg absent.2, ih absent.1]

theorem filter_replaceEach_of_mem {visits : List V} {visit : V} (member : visit ∈ visits)
    (only : ∀ other ∈ visits, own other = own visit → other = visit) :
    (replaceEach owner own items visits).filter (fun row => owner row = own visit) = items visit := by
  induction visits using List.reverseRecOn with
  | nil => cases member
  | append_singleton visits last ih =>
    rw [replaceEach_concat, filter_replaceOwned (owned last)]
    split_ifs with same
    · rw [only last (List.mem_append_right _ List.mem_cons_self) same.symm]
    · have earlier : visit ∈ visits := by
        rcases List.mem_append.1 member with earlier | here
        · exact earlier
        · exact absurd (congrArg own (List.mem_singleton.1 here)) same
      exact ih earlier fun other inside => only other (List.mem_append_left _ inside)

end Each

/-- Rows are the same up to their order if those of every owner are. -/
theorem perm_of_filter_eq {rows others : List R}
    (same : ∀ own, rows.filter (fun row => owner row = own) = others.filter fun row => owner row = own) :
    rows.Perm others := by
  classical
  refine List.perm_iff_count.2 fun row => ?_
  have counted : ∀ list : List R, list.count row = (list.filter fun other => owner other = owner row).count row :=
    fun list => (List.count_filter (by simp)).symm
  rw [counted rows, counted others, same (owner row)]

/-- It does not matter in which order owners are visited, or how often. -/
theorem replaceEach_perm {V : Type} {own : V → O} {items : V → List R}
    (owned : ∀ visit, ∀ item ∈ items visit, owner item = own visit) {visits others : List V}
    (same : ∀ visit, visit ∈ visits ↔ visit ∈ others)
    (injective : ∀ visit ∈ visits, ∀ other ∈ visits, own other = own visit → other = visit) :
    (replaceEach owner own items visits).Perm (replaceEach owner own items others) := by
  refine @perm_of_filter_eq R O _ owner _ _ fun other => ?_
  by_cases visited : other ∈ visits.map own
  · obtain ⟨visit, member, rfl⟩ := List.mem_map.1 visited
    rw [filter_replaceEach_of_mem owned member (injective visit member),
      filter_replaceEach_of_mem owned ((same visit).1 member) fun other inside =>
        injective visit member other ((same other).2 inside)]
  · have unvisited : other ∉ others.map own := fun member => visited <| by
      obtain ⟨visit, inside, rfl⟩ := List.mem_map.1 member
      exact List.mem_map_of_mem ((same visit).2 inside)
    rw [filter_replaceEach_of_notMem owned visited, filter_replaceEach_of_notMem owned unvisited]

end Owned

end McpTracer.Foundation
