import Mathlib.Data.List.Range
import Mathlib.Data.Fintype.EquivFin

/-! Places handed out one after the other.

Each in turn gets the first place that is allowed and that it accepts, and keeps
it. In increasing order nothing is lost by this. In any order the outcome is an
assignment in which nobody passed over a place except for those before.
-/

set_option autoImplicit false

namespace McpTracer.Foundation

variable {E : Type}

/-- What each gets, after the places that were taken, the last one first. -/
def firstFit (n : Nat) (allowed : List Nat → Nat → Bool) (accepts : E → Nat → Bool) : List Nat → List E → List (Option Nat)
  | _, [] => []
  | taken, e :: rest =>
    match (List.range n).find? fun p => allowed taken p && accepts e p with
    | some p => some p :: firstFit n allowed accepts (p :: taken) rest
    | none => none :: firstFit n allowed accepts taken rest

/-- A place that nobody has. -/
def unused (taken : List Nat) (p : Nat) : Bool := !taken.contains p

/-- A place after the last one that was taken. -/
def later (taken : List Nat) (p : Nat) : Bool := !taken.contains p && taken.head?.all (· < p)

/-- Each has a place that it accepts, and no two have the same. -/
structure Assigned (n : Nat) (accepts : E → Nat → Bool) (es : List E) (ps : List Nat) : Prop where
  accepted : List.Forall₂ (fun e p => p < n ∧ accepts e p = true) es ps
  nodup : ps.Nodup

/-- Nobody passed over a place, unless it was taken or one before has it. -/
def FirstCome (accepts : E → Nat → Bool) (taken : List Nat) (es : List E) (ps : List Nat) : Prop :=
  ∀ i e p, es[i]? = some e → ps[i]? = some p → ∀ q < p, accepts e q = true → q ∈ taken ∨ q ∈ ps.take i

section Run
variable {n : Nat} {allowed : List Nat → Nat → Bool} {accepts : E → Nat → Bool} {taken : List Nat} {e : E} {rest : List E}

/-- The first place that is allowed and accepted. -/
def IsFirst (n : Nat) (allowed : List Nat → Nat → Bool) (accepts : E → Nat → Bool) (taken : List Nat) (e : E) (p : Nat) : Prop :=
  (p < n ∧ allowed taken p = true ∧ accepts e p = true) ∧
    ∀ q < p, allowed taken q = true → accepts e q = true → False

theorem find_eq_some_iff {p : Nat} : (List.range n).find? (fun p => allowed taken p && accepts e p) = some p ↔
    IsFirst n allowed accepts taken e p := by
  rw [List.find?_range_eq_some, IsFirst, List.mem_range]
  simp only [Bool.and_eq_true, Bool.not_eq_true', Bool.and_eq_false_iff]
  grind

/-- Everybody gets a place exactly when the first one does and the others do after it. -/
theorem firstFit_full_cons : (∀ place ∈ firstFit n allowed accepts taken (e :: rest), place.isSome = true) ↔
    ∃ p, IsFirst n allowed accepts taken e p ∧
      ∀ place ∈ firstFit n allowed accepts (p :: taken) rest, place.isSome = true := by
  simp only [firstFit, ← find_eq_some_iff]
  cases (List.range n).find? fun p => allowed taken p && accepts e p with
  | none => simp
  | some p => simp

end Run

/-! ## In increasing order -/

section Increasing
variable {n : Nat} {accepts : E → Nat → Bool}

theorem later_eq_true_iff {taken : List Nat} (descending : taken.Pairwise (· > ·)) {p : Nat} :
    later taken p = true ↔ ∀ q ∈ taken, q < p := by
  cases taken with
  | nil => simp [later]
  | cons last others =>
      have below := (List.pairwise_cons.1 descending).1
      simp only [later, List.head?_cons, Option.all_some, Bool.and_eq_true, Bool.not_eq_true', decide_eq_true_eq,
        List.contains_eq_mem, decide_eq_false_iff_not, List.forall_mem_cons]
      constructor
      · rintro ⟨-, above⟩
        exact ⟨above, fun q member => (below q member).trans above⟩
      · rintro ⟨above, others⟩
        refine ⟨fun member => ?_, above⟩
        rcases List.mem_cons.1 member with rfl | member
        · exact absurd above (lt_irrefl _)
        · exact absurd (others p member) (lt_irrefl _)

/-- The places handed out in increasing order suffice when there are places in increasing order at all. -/
theorem firstFit_later {taken : List Nat} (descending : taken.Pairwise (· > ·)) (es : List E) :
    (∀ place ∈ firstFit n later accepts taken es, place.isSome = true) ↔
      ∃ ps, Assigned n accepts es ps ∧ ps.Pairwise (· < ·) ∧ ∀ p ∈ ps, ∀ q ∈ taken, q < p := by
  induction es generalizing taken with
  | nil => exact ⟨fun _ => ⟨[], ⟨.nil, .nil⟩, .nil, by simp⟩, fun _ => by simp [firstFit]⟩
  | cons e rest ih =>
      have next {p : Nat} (above : ∀ q ∈ taken, q < p) : (p :: taken).Pairwise (· > ·) :=
        List.pairwise_cons.2 ⟨above, descending⟩
      rw [firstFit_full_cons]
      constructor
      · rintro ⟨p, ⟨⟨bound, allowed, accepted⟩, -⟩, others⟩
        have above := (later_eq_true_iff descending).1 allowed
        obtain ⟨ps, assigned, increasing, beyond⟩ := (ih (next above)).1 others
        have distinct : p ∉ ps := fun member => absurd (beyond p member p (.head _)) (lt_irrefl _)
        refine ⟨p :: ps, ⟨.cons ⟨bound, accepted⟩ assigned.accepted, List.nodup_cons.2 ⟨distinct, assigned.nodup⟩⟩, ?_, ?_⟩
        · exact List.pairwise_cons.2 ⟨fun q member => beyond q member p (.head _), increasing⟩
        · exact List.forall_mem_cons.2 ⟨above, fun q member r old => beyond q member r (.tail _ old)⟩
      · rintro ⟨ps, ⟨accepted, nodup⟩, increasing, beyond⟩
        cases accepted with
        | @cons _ p _ ps own others =>
            obtain ⟨first, increasing⟩ := List.pairwise_cons.1 increasing
            obtain ⟨above, beyond⟩ := List.forall_mem_cons.1 beyond
            have some_ : ((List.range n).find? fun p => later taken p && accepts e p).isSome := by
              rw [List.find?_isSome]
              exact ⟨p, List.mem_range.2 own.1, by simp [(later_eq_true_iff descending).2 above, own.2]⟩
            obtain ⟨q, found⟩ := Option.isSome_iff_exists.1 some_
            have chosen := find_eq_some_iff.1 found
            -- The place chosen is not after the one assigned, so the other places stay free.
            have early : q ≤ p := by
              by_contra late
              exact chosen.2 p (not_le.1 late) ((later_eq_true_iff descending).2 above) own.2
            refine ⟨q, chosen, (ih (next ((later_eq_true_iff descending).1 chosen.1.2.1))).2 ⟨ps, ?_, increasing, ?_⟩⟩
            · exact ⟨others, (List.nodup_cons.1 nodup).2⟩
            · intro r member
              exact List.forall_mem_cons.2 ⟨early.trans_lt (first r member), beyond r member⟩

end Increasing

/-! ## In any order -/

section AnyOrder
variable {n : Nat} {accepts : E → Nat → Bool}

theorem unused_eq_true_iff {taken : List Nat} {p : Nat} : unused taken p = true ↔ p ∉ taken := by
  simp [unused]

theorem firstCome_cons {taken : List Nat} {e : E} {rest : List E} {p : Nat} {ps : List Nat} :
    FirstCome accepts taken (e :: rest) (p :: ps) ↔
      (∀ q < p, accepts e q = true → q ∈ taken) ∧ FirstCome accepts (p :: taken) rest ps := by
  constructor
  · intro come
    refine ⟨fun q less accepted => ?_, fun i e' p' inner place q less accepted => ?_⟩
    · simpa using come 0 e p rfl rfl q less accepted
    · have := come (i + 1) e' p' inner place q less accepted
      simp only [List.take_succ_cons, List.mem_cons] at this ⊢
      tauto
  · rintro ⟨own, others⟩ i e' p' inner place q less accepted
    cases i with
    | zero =>
        obtain rfl := Option.some.inj inner
        obtain rfl := Option.some.inj place
        exact .inl (own q less accepted)
    | succ i =>
        have := others i e' p' inner place q less accepted
        simp only [List.take_succ_cons, List.mem_cons] at this ⊢
        tauto

/-- The places handed out suffice when there is an assignment in which nobody passes over a place. -/
theorem firstFit_unused {taken : List Nat} (es : List E) :
    (∀ place ∈ firstFit n unused accepts taken es, place.isSome = true) ↔
      ∃ ps, Assigned n accepts es ps ∧ (∀ p ∈ ps, p ∉ taken) ∧ FirstCome accepts taken es ps := by
  induction es generalizing taken with
  | nil =>
      refine ⟨fun _ => ⟨[], ⟨.nil, .nil⟩, by simp, ?_⟩, fun _ => by simp [firstFit]⟩
      intro i e p none
      cases none
  | cons e rest ih =>
      rw [firstFit_full_cons]
      constructor
      · rintro ⟨p, ⟨⟨bound, free, accepted⟩, least⟩, others⟩
        obtain ⟨ps, assigned, fresh, come⟩ := ih.1 others
        have distinct : p ∉ ps := fun member => fresh p member (.head _)
        refine ⟨p :: ps, ⟨.cons ⟨bound, accepted⟩ assigned.accepted, List.nodup_cons.2 ⟨distinct, assigned.nodup⟩⟩, ?_, ?_⟩
        · exact List.forall_mem_cons.2 ⟨unused_eq_true_iff.1 free, fun q member old => fresh q member (.tail _ old)⟩
        · refine firstCome_cons.2 ⟨fun q less wanted => ?_, come⟩
          by_contra missing
          exact least q less (unused_eq_true_iff.2 missing) wanted
      · rintro ⟨ps, ⟨accepted, nodup⟩, fresh, come⟩
        cases accepted with
        | @cons _ p _ ps own others =>
            obtain ⟨free, fresh⟩ := List.forall_mem_cons.1 fresh
            obtain ⟨distinct, nodup⟩ := List.nodup_cons.1 nodup
            obtain ⟨least, come⟩ := firstCome_cons.1 come
            refine ⟨p, ⟨⟨own.1, unused_eq_true_iff.2 free, own.2⟩, fun q less open_ wanted => ?_⟩, ?_⟩
            · exact unused_eq_true_iff.1 open_ (least q less wanted)
            · refine ih.2 ⟨ps, ⟨others, nodup⟩, fun q member => ?_, come⟩
              rintro (_ | ⟨_, old⟩)
              · exact distinct member
              · exact fresh q member old

/-! ### Nested wishes -/

/-- Of two with a place in common, the one before accepts no more than the one after. -/
def Nested (n : Nat) (accepts : E → Nat → Bool) (es : List E) : Prop :=
  es.Pairwise fun before after => (∃ p < n, accepts before p = true ∧ accepts after p = true) →
    ∀ p < n, accepts before p = true → accepts after p = true

/-- Those who took all the places of another one would need more places than there are. -/
theorem free_of_nested {front : List E} {e : E} {qs ps : List Nat}
    (places : List.Forall₂ (fun e p => p < n ∧ accepts e p = true) front qs)
    (assigned : Assigned n accepts (front ++ [e]) ps)
    (nested : ∀ other ∈ front, (∃ p < n, accepts other p = true ∧ accepts e p = true) →
      ∀ p < n, accepts other p = true → accepts e p = true) :
    ∃ p < n, accepts e p = true ∧ p ∉ qs := by
  by_contra none_
  push Not at none_
  obtain ⟨lengths, own⟩ := List.forall₂_iff_get.1 places
  obtain ⟨total, each⟩ := List.forall₂_iff_get.1 assigned.accepted
  rw [List.length_append, List.length_singleton] at total
  let wishes := (Finset.range n).filter fun p => accepts e p = true
  have mem_wishes {p : Nat} : p ∈ wishes ↔ p < n ∧ accepts e p = true := by simp [wishes]
  -- Whoever took a place of `e` is assigned a place of `e` as well.
  let moved (p : Nat) : Nat := ps.getD (qs.idxOf p) 0
  have index {p : Nat} (member : p ∈ wishes) : qs.idxOf p < front.length := by
    rw [lengths]
    exact List.idxOf_lt_length_of_mem (none_ p (mem_wishes.1 member).1 (mem_wishes.1 member).2)
  have moved_eq {p : Nat} (member : p ∈ wishes) : ∃ inside : qs.idxOf p < ps.length, moved p = ps[qs.idxOf p] := by
    have inside : qs.idxOf p < ps.length := by have := index member; omega
    exact ⟨inside, by simp [moved, inside]⟩
  have maps : wishes.image moved ⊆ wishes := by
    refine Finset.image_subset_iff.2 fun p member => ?_
    obtain ⟨inside, same⟩ := moved_eq member
    have here := index member
    have accepted := each (qs.idxOf p) (by simp; omega) inside
    have taken := own (qs.idxOf p) here (lengths ▸ here)
    simp only [List.get_eq_getElem, List.getElem_append_left here] at accepted taken
    rw [List.getElem_idxOf] at taken
    rw [same, mem_wishes]
    exact ⟨accepted.1, nested _ (List.getElem_mem here) ⟨p, taken.1, taken.2, (mem_wishes.1 member).2⟩ _ accepted.1 accepted.2⟩
  have injective : Set.InjOn moved wishes := by
    intro p left q right same
    obtain ⟨inside, atP⟩ := moved_eq left
    obtain ⟨inside', atQ⟩ := moved_eq right
    have indices := (assigned.nodup.getElem_inj_iff).1 (atP.symm.trans (same.trans atQ))
    exact (List.idxOf_inj (none_ p (mem_wishes.1 left).1 (mem_wishes.1 left).2)).1 indices
  have all : wishes.image moved = wishes :=
    Finset.eq_of_subset_of_card_le maps (Finset.card_image_of_injOn injective).ge
  -- So the place that `e` is assigned is left over.
  have inside : front.length < ps.length := by omega
  have last := each front.length (by simp) inside
  simp only [List.get_eq_getElem, List.getElem_concat_length] at last
  obtain ⟨p, member, same⟩ := Finset.mem_image.1 (all.symm ▸ mem_wishes.2 last)
  obtain ⟨inside', atP⟩ := moved_eq member
  exact (index member).ne ((assigned.nodup.getElem_inj_iff).1 (atP.symm.trans same))

theorem Assigned.front {front rest : List E} {ps : List Nat} (assigned : Assigned n accepts (front ++ rest) ps) :
    Assigned n accepts front (ps.take front.length) :=
  ⟨(List.forall₂_take_append ps front rest assigned.accepted.flip).flip, assigned.nodup.sublist (List.take_sublist _ _)⟩

/-- When the wishes are nested, the places handed out suffice if any assignment does. -/
theorem firstFit_of_nested {front rest : List E} {qs ps : List Nat}
    (places : List.Forall₂ (fun e p => p < n ∧ accepts e p = true) front qs)
    (assigned : Assigned n accepts (front ++ rest) ps) (nested : Nested n accepts (front ++ rest)) :
    ∀ place ∈ firstFit n unused accepts qs.reverse rest, place.isSome = true := by
  induction rest generalizing front qs with
  | nil => simp [firstFit]
  | cons e rest ih =>
      have apart := (List.pairwise_append.1 nested).2.2
      rw [List.append_cons] at assigned nested
      obtain ⟨p, bound, wanted, free⟩ := free_of_nested places assigned.front fun other member => apart other member e (.head _)
      have found : ((List.range n).find? fun p => unused qs.reverse p && accepts e p).isSome := by
        rw [List.find?_isSome]
        exact ⟨p, List.mem_range.2 bound, by simp [unused, wanted, free]⟩
      obtain ⟨q, chosen⟩ := Option.isSome_iff_exists.1 found
      have first := find_eq_some_iff.1 chosen
      rw [firstFit_full_cons]
      refine ⟨q, first, ?_⟩
      rw [← List.reverse_concat]
      exact ih (List.rel_append places (.cons ⟨first.1.1, first.1.2.2⟩ .nil)) assigned nested

end AnyOrder

end McpTracer.Foundation
