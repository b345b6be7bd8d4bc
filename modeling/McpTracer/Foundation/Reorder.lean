import Mathlib.Data.List.Basic
import Mathlib.Data.List.Range
import Mathlib.Data.List.Perm.Basic

/-! Numbered items that arrive out of order, and are handed on in order and in batches.

A window keeps what has arrived before its turn. It waits for the number that is next, unless it
is about to be closed or holds too many items.
-/

set_option autoImplicit false

namespace McpTracer.Foundation

variable {A : Type}

/-! ## Batches -/

def chunksFrom (size : Nat) : Nat → List A → List (List A)
  | 0, _ => []
  | fuel + 1, items =>
    if items.isEmpty then [] else items.take size :: chunksFrom size fuel (items.drop size)

/-- Consecutive pieces, all of the given size but for the last one. -/
def chunks (size : Nat) (items : List A) : List (List A) := chunksFrom size items.length items

theorem flatten_chunksFrom {size fuel : Nat} (positive : 0 < size) {items : List A}
    (enough : items.length ≤ fuel) : (chunksFrom size fuel items).flatten = items := by
  induction fuel generalizing items with
  | zero => exact (List.length_eq_zero_iff.1 (Nat.le_zero.1 enough)).symm
  | succ fuel ih =>
    unfold chunksFrom
    cases items with
    | nil => rfl
    | cons item rest =>
      have shorter : ((item :: rest).drop size).length ≤ fuel := by
        rw [List.length_drop]
        simp only [List.length_cons] at enough ⊢
        omega
      simp only [List.isEmpty_cons, Bool.false_eq_true, if_false, List.flatten_cons, ih shorter,
        List.take_append_drop]

theorem flatten_chunks {size : Nat} (positive : 0 < size) (items : List A) : (chunks size items).flatten = items :=
  flatten_chunksFrom positive le_rfl

/-! ## Taking an item out -/

theorem perm_cons_filter_ne {number : A → Nat} {items : List A} {item : A} (distinct : (items.map number).Nodup)
    (member : item ∈ items) : items.Perm (item :: items.filter fun other => number other ≠ number item) := by
  induction items with
  | nil => cases member
  | cons first rest ih =>
    rw [List.map_cons, List.nodup_cons] at distinct
    rcases List.mem_cons.1 member with rfl | later
    · -- Nothing behind the item has its number.
      have kept : rest.filter (fun other => number other ≠ number item) = rest :=
        List.filter_eq_self.2 fun other inside => decide_eq_true fun same =>
          distinct.1 (List.mem_map.2 ⟨other, inside, same⟩)
      rw [List.filter_cons_of_neg (by simp), kept]
    · have differs : number first ≠ number item := fun same =>
        distinct.1 (List.mem_map.2 ⟨item, later, same.symm⟩)
      rw [List.filter_cons_of_pos (by simpa using differs)]
      exact ((ih distinct.2 later).cons first).trans (List.Perm.swap item first _)

theorem filter_eq_singleton {number : A → Nat} {items : List A} {item : A} (distinct : (items.map number).Nodup)
    (member : item ∈ items) : items.filter (fun other => number other = number item) = [item] := by
  have out := (perm_cons_filter_ne distinct member).filter fun other => number other = number item
  rw [List.filter_cons_of_pos (by simp), List.filter_filter] at out
  have none : items.filter (fun other => decide (number other = number item) && decide (number other ≠ number item)) =
      [] := List.filter_eq_nil_iff.2 fun other _ => by simp
  rw [none] at out
  exact List.perm_singleton.1 out

/-- Of two predicates the weaker one holds more often, unless they are the same. -/
theorem forall_of_countP_le {weak strong : A → Bool} {items : List A}
    (weaker : ∀ item ∈ items, strong item = true → weak item = true)
    (few : items.countP weak ≤ items.countP strong) : ∀ item ∈ items, weak item = true → strong item = true := by
  induction items with
  | nil => exact fun _ member => absurd member List.not_mem_nil
  | cons first rest ih =>
    obtain ⟨head, tail⟩ := List.forall_mem_cons.1 weaker
    have fewer : rest.countP strong ≤ rest.countP weak := List.countP_mono_left tail
    rw [List.countP_cons, List.countP_cons] at few
    refine List.forall_mem_cons.2 ⟨fun holds => ?_, ih tail ?_⟩
    · by_contra fails
      rw [if_pos holds, if_neg fails] at few
      omega
    · split_ifs at few with holds fails fails
      all_goals first | omega | exact absurd (head ‹_›) holds

/-! ## The window -/

section
variable (number : A → Nat)

/-- An item goes behind those of its number. -/
def insertNumbered (item : A) : List A → List A
  | [] => [item]
  | first :: rest => if number item < number first then item :: first :: rest else first :: insertNumbered item rest

structure Released (A : Type) where
  items : List A
  waiting : List A
  next : Nat
  /-- An item was handed on before its turn because there were too many. -/
  pressed : Bool

def release (limit : Nat) (closing : Bool) (next : Nat) : List A → Released A
  | [] => ⟨[], [], next, false⟩
  | item :: rest =>
    let early := decide (next < number item)
    let pressure := decide (limit ≤ (item :: rest).length)
    if early && !closing && !pressure then ⟨[], item :: rest, next, false⟩
    else
      let others := release limit closing (max next (number item + 1)) rest
      ⟨item :: others.items, others.waiting, others.next, (early && pressure) || others.pressed⟩

variable {number} {limit next : Nat} {closing : Bool}

theorem insertNumbered_perm (item : A) (items : List A) : (insertNumbered number item items).Perm (item :: items) := by
  induction items with
  | nil => exact List.Perm.refl _
  | cons first rest ih =>
    unfold insertNumbered
    split_ifs
    · exact List.Perm.refl _
    · exact (ih.cons first).trans (List.Perm.swap item first rest)

theorem insertNumbered_sorted {item : A} {items : List A} (sorted : items.Pairwise fun a b => number a ≤ number b) :
    (insertNumbered number item items).Pairwise fun a b => number a ≤ number b := by
  induction items with
  | nil => exact List.pairwise_singleton _ _
  | cons first rest ih =>
    obtain ⟨least, others⟩ := List.pairwise_cons.1 sorted
    unfold insertNumbered
    split_ifs with below
    · refine List.pairwise_cons.2 ⟨fun other member => ?_, sorted⟩
      rcases List.mem_cons.1 member with rfl | later
      · exact below.le
      · exact below.le.trans (least other later)
    · refine List.pairwise_cons.2 ⟨fun other member => ?_, ih others⟩
      rcases List.mem_cons.1 ((insertNumbered_perm item rest).subset member) with rfl | later
      · exact not_lt.1 below
      · exact least other later

/-- An item with the greatest number goes to the end. -/
theorem insertNumbered_last {item : A} {items : List A} (greatest : ∀ other ∈ items, number other < number item) :
    insertNumbered number item items = items ++ [item] := by
  induction items with
  | nil => rfl
  | cons first rest ih =>
    obtain ⟨head, tail⟩ := List.forall_mem_cons.1 greatest
    rw [insertNumbered, if_neg head.not_gt, ih tail]
    rfl

theorem foldl_insertNumbered_perm (arrived items : List A) :
    (arrived.foldl (fun items item => insertNumbered number item items) items).Perm (arrived ++ items) := by
  induction arrived generalizing items with
  | nil => exact List.Perm.refl _
  | cons item rest ih =>
    have moved : (rest ++ item :: items).Perm (item :: (rest ++ items)) := List.perm_middle
    exact (ih _).trans (((insertNumbered_perm item items).append_left rest).trans moved)

theorem foldl_insertNumbered_sorted (arrived : List A) {items : List A}
    (sorted : items.Pairwise fun a b => number a ≤ number b) :
    (arrived.foldl (fun items item => insertNumbered number item items) items).Pairwise
      fun a b => number a ≤ number b := by
  induction arrived generalizing items with
  | nil => exact sorted
  | cons item rest ih => exact ih (insertNumbered_sorted sorted)

/-- Nothing is lost and the order is kept. -/
theorem release_append (items : List A) :
    (release number limit closing next items).items ++ (release number limit closing next items).waiting = items := by
  induction items generalizing next with
  | nil => rfl
  | cons item rest ih =>
    unfold release
    dsimp only
    split_ifs
    · rfl
    · exact congrArg (item :: ·) ih

/-- A window waits for the number that is next. -/
theorem release_waits {items : List A} (few : items.length < limit) (above : ∀ item ∈ items, next < number item) :
    release number limit false next items = ⟨[], items, next, false⟩ := by
  cases items with
  | nil => rfl
  | cons item rest =>
    unfold release
    have pressed : decide (limit ≤ (item :: rest).length) = false := decide_eq_false (not_le.2 few)
    simp only [decide_eq_true (above item List.mem_cons_self), pressed, Bool.not_false, Bool.and_self, if_true]

/-- A window that is closed is emptied. -/
theorem release_closing (items : List A) : (release number limit true next items).waiting = [] := by
  induction items generalizing next with
  | nil => rfl
  | cons item rest ih =>
    unfold release
    simp only [Bool.not_true, Bool.and_false, Bool.false_and, Bool.false_eq_true, if_false]
    exact ih

/-- Unless it is pressed or closed, a window hands on exactly the numbers whose turn it is. -/
theorem release_in_turn {items : List A} (sorted : items.Pairwise fun a b => number a < number b)
    (above : ∀ item ∈ items, next ≤ number item)
    (unpressed : (release number limit false next items).pressed = false) :
    (release number limit false next items).items.map number =
        List.range' next (release number limit false next items).items.length ∧
      (release number limit false next items).next = next + (release number limit false next items).items.length := by
  induction items generalizing next with
  | nil => exact ⟨rfl, rfl⟩
  | cons item rest ih =>
    obtain ⟨least, others⟩ := List.pairwise_cons.1 sorted
    unfold release at unpressed ⊢
    dsimp only at unpressed ⊢
    split_ifs at unpressed ⊢ with waits
    · exact ⟨rfl, rfl⟩
    · simp only [Bool.or_eq_false_iff, Bool.and_eq_false_iff] at unpressed
      have turn : number item = next := by
        have reached := above item List.mem_cons_self
        simp only [Bool.not_false, Bool.and_true, Bool.and_eq_true, Bool.not_eq_true', decide_eq_true_eq,
          decide_eq_false_iff_not] at waits unpressed
        omega
      have later : max next (number item + 1) = next + 1 := by omega
      rw [later] at unpressed ⊢
      obtain ⟨numbers, reached⟩ := ih others (fun other member => by
        have := least other member
        omega) unpressed.2
      refine ⟨?_, ?_⟩
      · rw [List.map_cons, numbers, turn, List.length_cons, List.range'_succ]
      · rw [reached, List.length_cons]
        omega

end

end McpTracer.Foundation
