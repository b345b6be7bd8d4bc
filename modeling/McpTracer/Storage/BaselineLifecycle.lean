import Mathlib.Data.List.Forall2
import Mathlib.Data.List.Induction
import Mathlib.Data.List.Nodup
import McpTracer.Storage.Baseline

/-! The life of baselines over any run of calls.

What one call can do to the tables is said once. That at most one baseline of a triple is
approved, and that nobody but a promotion wrote a row that is no candidate, follow from it.
-/

set_option autoImplicit false

namespace McpTracer.Storage
open McpTracer.Foundation

/-! ## What one call does -/

/-- What promoting the row with this id makes of a row. -/
def promotedRow (triple : Triple) (id : Nat) (promotion : Promotion) (row : Baseline) : Baseline :=
  if row.id = id then row.approve promotion
  else if row.isApprovedFor triple then row.supersede
  else row

def revokedRow (triple : Triple) (reason : String) (revokedAtNs : Int) (row : Baseline) : Baseline :=
  if row.isApprovedFor triple then row.revoke reason revokedAtNs else row

/-- The baselines before and after a call that succeeds. -/
inductive Performed (store : BaselineStore) : BaselineCall → List Baseline → Prop where
  | sessionCreated (sessionId : String) : Performed store (.createSession sessionId) store.baselines
  | candidateCreated (triple : Triple) (sessionId : String) (createdAtNs : Int) :
      Performed store (.createBaselineCandidate triple sessionId createdAtNs)
        (store.baselines ++ [{ Baseline.candidate triple sessionId createdAtNs with id := store.lastId + 1 }])
  | promoted {triple : Triple} {sessionId : String} {promotion : Promotion} {row : Baseline} :
      row ∈ store.baselines → row.triple = triple → row.sessionId = sessionId → row.state = .candidate →
      Performed store (.promoteBaseline triple sessionId promotion)
        (store.baselines.map (promotedRow triple row.id promotion))
  | revoked {triple : Triple} {reason : String} {revokedAtNs : Int} {row : Baseline} :
      row ∈ store.baselines → row.triple = triple → row.state = .approved →
      Performed store (.revokeBaseline triple reason revokedAtNs)
        (store.baselines.map (revokedRow triple reason revokedAtNs))

section
variable {attempt : Attempt} {store : BaselineStore}

theorem eq_of_id_eq {a b : Baseline} (first : a ∈ store.baselines) (second : b ∈ store.baselines)
    (same : a.id = b.id) : a = b :=
  List.inj_on_of_nodup_map (store.ordered.imp Nat.ne_of_lt) first second same

/-- A call that fails leaves the tables as they were. -/
theorem perform_of_error {failure : BaselineError} (failed : (attempt.perform store).1 = .error failure) :
    (attempt.perform store).2 = store := by
  obtain ⟨call, refused⟩ := attempt
  cases call with
  | createSession sessionId => cases failed
  | createBaselineCandidate triple sessionId createdAtNs =>
    simp only [Attempt.perform, BaselineCall.perform, BaselineStore.createBaselineCandidate] at failed ⊢
    split at failed
    · cases failed
    · rfl
  | promoteBaseline triple sessionId promotion =>
    simp only [Attempt.perform, BaselineCall.perform, BaselineStore.promoteBaseline, transaction] at failed ⊢
    split at failed
    · cases failed
    · rfl
  | revokeBaseline triple reason revokedAtNs =>
    simp only [Attempt.perform, BaselineCall.perform, BaselineStore.revokeBaseline] at failed ⊢
    cases ran : statement refused 0 with
    | error other => rfl
    | ok _ =>
      simp only [ran] at failed ⊢
      split_ifs at failed ⊢ with unchanged
      exact @BaselineStore.update_of_none store (Baseline.isApprovedFor triple)
        (Baseline.revoke reason revokedAtNs) (fun _ => rfl) (fun _ => rfl) fun row member => by
          simpa using List.countP_eq_zero.1 unchanged row member

/-- The two updates of a promotion as one, since a candidate is not superseded on the way. -/
theorem promoted_baselines {triple : Triple} {promotion : Promotion} {row : Baseline} (listed : row ∈ store.baselines)
    (waiting : row.state = .candidate) :
    ((store.update (Baseline.isApprovedFor triple) Baseline.supersede (fun _ => rfl) fun _ => rfl).update
      (fun other => other.id = row.id) (Baseline.approve promotion) (fun _ => rfl) fun _ => rfl).baselines =
      store.baselines.map (promotedRow triple row.id promotion) := by
  simp only [BaselineStore.update, List.map_map]
  refine List.map_congr_left fun other member => ?_
  simp only [Function.comp_apply, promotedRow]
  by_cases same : other.id = row.id
  · obtain rfl := eq_of_id_eq member listed same
    simp [Baseline.isApprovedFor, waiting]
  · by_cases approved : other.isApprovedFor triple = true
    · simp [same, approved, Baseline.supersede]
    · simp [same, approved]

theorem performed_of_ok (done : (attempt.perform store).1 = .ok ()) :
    Performed store attempt.call (attempt.perform store).2.baselines := by
  obtain ⟨call, refused⟩ := attempt
  cases call with
  | createSession sessionId => exact .sessionCreated sessionId
  | createBaselineCandidate triple sessionId createdAtNs =>
    simp only [Attempt.perform, BaselineCall.perform, BaselineStore.createBaselineCandidate] at done ⊢
    split at done
    · rename_i after inserted
      obtain ⟨-, -, inserted⟩ := bind_eq_ok_iff.1 inserted
      unfold BaselineStore.insert at inserted
      split_ifs at inserted
      cases inserted
      exact .candidateCreated triple sessionId createdAtNs
    · cases done
  | promoteBaseline triple sessionId promotion =>
    simp only [Attempt.perform, BaselineCall.perform, BaselineStore.promoteBaseline, transaction] at done ⊢
    split at done
    · rename_i after ran
      simp only [bind_eq_ok_iff, require_eq_ok_iff, pure_eq_ok_iff] at ran
      obtain ⟨-, -, -, -, row, found, -, -, -, -, -, -, rfl⟩ := ran
      have member := List.mem_of_find?_eq_some found
      have matches_ := List.find?_some found
      simp only [Baseline.isCandidateFor, Bool.and_eq_true, decide_eq_true_eq, and_assoc] at matches_
      obtain ⟨sameTriple, sameSession, waiting⟩ := matches_
      rw [promoted_baselines member waiting]
      exact .promoted member sameTriple sameSession waiting
    · cases done
  | revokeBaseline triple reason revokedAtNs =>
    simp only [Attempt.perform, BaselineCall.perform, BaselineStore.revokeBaseline] at done ⊢
    cases ran : statement refused 0 with
    | error failure =>
      rw [ran] at done
      cases done
    | ok _ =>
      simp only [ran] at done ⊢
      split_ifs at done ⊢ with unchanged
      obtain ⟨row, member, selected⟩ := List.countP_pos_iff.1 (Nat.pos_of_ne_zero unchanged)
      simp only [Baseline.isApprovedFor, Bool.and_eq_true, decide_eq_true_eq] at selected
      exact .revoked member selected.1 selected.2

end

/-! ## How rows move -/

/-- A row moves from candidate over approved to superseded or revoked, and keeps its other columns. -/
inductive Moves : Baseline → Baseline → Prop where
  | kept (row : Baseline) : Moves row row
  | approved {row : Baseline} (promotion : Promotion) : row.state = .candidate → Moves row (row.approve promotion)
  | superseded {row : Baseline} : row.state = .approved → Moves row row.supersede
  | revoked {row : Baseline} (reason : String) (revokedAtNs : Int) : row.state = .approved →
      Moves row (row.revoke reason revokedAtNs)

/-- The rows that were there, moved, and behind them new candidates. -/
def Advances (before after : List Baseline) : Prop :=
  ∃ moved created, after = moved ++ created ∧ List.Forall₂ Moves before moved ∧
    ∀ row ∈ created, row.state = .candidate

theorem forall₂_map {f : Baseline → Baseline} {rows : List Baseline} (each : ∀ row ∈ rows, Moves row (f row)) :
    List.Forall₂ Moves rows (rows.map f) :=
  List.forall₂_map_right_iff.2 (List.forall₂_same.2 each)

theorem moved_from {rows moved : List Baseline} (moves : List.Forall₂ Moves rows moved) {row : Baseline}
    (member : row ∈ moved) : ∃ before ∈ rows, Moves before row := by
  induction moves with
  | nil => cases member
  | cons head _ ih =>
    rcases List.mem_cons.1 member with rfl | later
    · exact ⟨_, .head _, head⟩
    · obtain ⟨before, listed, move⟩ := ih later
      exact ⟨before, .tail _ listed, move⟩

section
variable {attempt : Attempt} {store : BaselineStore}

theorem promotedRow_moves {triple : Triple} {promotion : Promotion} {row other : Baseline}
    (listed : row ∈ store.baselines) (waiting : row.state = .candidate) (member : other ∈ store.baselines) :
    Moves other (promotedRow triple row.id promotion other) := by
  unfold promotedRow
  split_ifs with same approved
  · obtain rfl := eq_of_id_eq member listed same
    exact .approved promotion waiting
  · exact .superseded (by simpa [Baseline.isApprovedFor] using (Bool.and_eq_true_iff.1 approved).2)
  · exact .kept other

theorem revokedRow_moves {triple : Triple} {reason : String} {revokedAtNs : Int} (row : Baseline) :
    Moves row (revokedRow triple reason revokedAtNs row) := by
  unfold revokedRow
  split_ifs with approved
  · exact .revoked reason revokedAtNs (by simpa [Baseline.isApprovedFor] using (Bool.and_eq_true_iff.1 approved).2)
  · exact .kept row

theorem Performed.advances {call : BaselineCall} {after : List Baseline} (performed : Performed store call after) :
    Advances store.baselines after := by
  cases performed with
  | sessionCreated sessionId =>
    exact ⟨_, [], (List.append_nil _).symm, List.forall₂_same.2 fun row _ => .kept row, by simp⟩
  | candidateCreated triple sessionId createdAtNs =>
    refine ⟨_, _, rfl, List.forall₂_same.2 fun row _ => .kept row, fun row member => ?_⟩
    obtain rfl := List.mem_singleton.1 member
    rfl
  | promoted listed _ _ waiting =>
    exact ⟨_, [], (List.append_nil _).symm, forall₂_map fun other member => promotedRow_moves listed waiting member,
      by simp⟩
  | revoked =>
    exact ⟨_, [], (List.append_nil _).symm, forall₂_map fun row _ => revokedRow_moves row, by simp⟩

theorem filter_map_of_frame {f : Baseline → Baseline} {rows : List Baseline} {triple : Triple}
    (stays : ∀ row, (f row).triple = row.triple) (fixed : ∀ row ∈ rows, row.triple = triple → f row = row) :
    (rows.map f).filter (fun row => row.triple = triple) = rows.filter fun row => row.triple = triple := by
  induction rows with
  | nil => rfl
  | cons row rest ih =>
    obtain ⟨head, tail⟩ := List.forall_mem_cons.1 fixed
    rw [List.map_cons, List.filter_cons, List.filter_cons, ih tail, stays row]
    split_ifs with own
    · rw [head (by simpa using own)]
    · rfl

theorem promotedRow_triple (triple : Triple) (id : Nat) (promotion : Promotion) (row : Baseline) :
    (promotedRow triple id promotion row).triple = row.triple := by
  unfold promotedRow
  split_ifs <;> rfl

theorem revokedRow_triple (triple : Triple) (reason : String) (revokedAtNs : Int) (row : Baseline) :
    (revokedRow triple reason revokedAtNs row).triple = row.triple := by
  unfold revokedRow
  split_ifs <;> rfl

/-- The rows of another triple stay as they are. -/
theorem Performed.filter_other {call : BaselineCall} {after : List Baseline} (performed : Performed store call after)
    {triple : Triple} (other : call.triple ≠ some triple) :
    after.filter (fun row => row.triple = triple) = store.baselines.filter fun row => row.triple = triple := by
  cases performed with
  | sessionCreated sessionId => rfl
  | candidateCreated own sessionId createdAtNs =>
    have differs : own ≠ triple := fun same => other (congrArg some same)
    simp [Baseline.candidate, differs]
  | @promoted own sessionId promotion row listed sameTriple _ waiting =>
    have differs : own ≠ triple := fun same => other (congrArg some same)
    refine filter_map_of_frame (promotedRow_triple own row.id promotion) fun untouched member its => ?_
    have otherId : untouched.id ≠ row.id := fun same => by
      obtain rfl := eq_of_id_eq member listed same
      exact differs (sameTriple.symm.trans its)
    simp [promotedRow, otherId, Baseline.isApprovedFor, its, differs.symm]
  | @revoked own reason revokedAtNs row listed sameTriple approved =>
    have differs : own ≠ triple := fun same => other (congrArg some same)
    refine filter_map_of_frame (revokedRow_triple own reason revokedAtNs) fun untouched member its => ?_
    simp [revokedRow, Baseline.isApprovedFor, its, differs.symm]

end

/-! ## What holds in every state that is reached -/

/-- The run promoted the row, with the values that the row carries. -/
def PromotedIn (attempts : List Attempt) (row : Baseline) : Prop :=
  ∃ before promoting rest promotion, attempts = before ++ promoting :: rest ∧
    promoting.call = .promoteBaseline row.triple row.sessionId promotion ∧
    (promoting.perform (.reached before)).1 = .ok () ∧
    (∃ fresh ∈ (promoting.perform (.reached before)).2.baselines, fresh.id = row.id ∧ fresh.state = .approved) ∧
    row.digest = some promotion.digest ∧ row.promotedBy = some promotion.promotedBy ∧
    row.promotedAt = some promotion.promotedAtNs ∧ row.promotionReason = some promotion.reason

structure Lifecycle (attempts : List Attempt) (baselines : List Baseline) : Prop where
  oneApproved : ∀ a ∈ baselines, ∀ b ∈ baselines, a.state = .approved → b.state = .approved →
    a.triple = b.triple → a.id = b.id
  promoted : ∀ row ∈ baselines, row.state ≠ .candidate → PromotedIn attempts row
  revoked : ∀ row ∈ baselines, row.state = .revoked → row.revokedAt.isSome ∧ row.revokedReason.isSome

theorem PromotedIn.append {attempts : List Attempt} {row : Baseline} (promoted : PromotedIn attempts row)
    (attempt : Attempt) : PromotedIn (attempts ++ [attempt]) row := by
  obtain ⟨before, promoting, rest, promotion, split, carried⟩ := promoted
  exact ⟨before, promoting, rest ++ [attempt], promotion, by simp [split], carried⟩

section
variable {attempts : List Attempt} {attempt : Attempt} {after : List Baseline}

/-- An approved row behind a promotion is the promoted one, or one of another triple. -/
theorem approved_of_promotedRow {triple : Triple} {id : Nat} {promotion : Promotion} {row : Baseline}
    (approved : (promotedRow triple id promotion row).state = .approved) :
    row.id = id ∨ row.state = .approved ∧ row.triple ≠ triple := by
  unfold promotedRow at approved
  split_ifs at approved with same its
  · exact .inl same
  · cases approved
  · refine .inr ⟨approved, fun own => its ?_⟩
    simp [Baseline.isApprovedFor, own, approved]

theorem approved_of_revokedRow {triple : Triple} {reason : String} {revokedAtNs : Int} {row : Baseline}
    (approved : (revokedRow triple reason revokedAtNs row).state = .approved) : row.state = .approved := by
  unfold revokedRow at approved
  split_ifs at approved
  · cases approved
  · exact approved

theorem promotedRow_id (triple : Triple) (id : Nat) (promotion : Promotion) (row : Baseline) :
    (promotedRow triple id promotion row).id = row.id := by
  unfold promotedRow
  split_ifs <;> rfl

theorem revokedRow_id (triple : Triple) (reason : String) (revokedAtNs : Int) (row : Baseline) :
    (revokedRow triple reason revokedAtNs row).id = row.id := by
  unfold revokedRow
  split_ifs <;> rfl

theorem oneApproved_step {store : BaselineStore} {call : BaselineCall}
    (one : ∀ a ∈ store.baselines, ∀ b ∈ store.baselines, a.state = .approved → b.state = .approved →
      a.triple = b.triple → a.id = b.id)
    (performed : Performed store call after) :
    ∀ a ∈ after, ∀ b ∈ after, a.state = .approved → b.state = .approved → a.triple = b.triple → a.id = b.id := by
  cases performed with
  | sessionCreated sessionId => exact one
  | candidateCreated triple sessionId createdAtNs =>
    have old : ∀ row ∈ store.baselines ++
        [{ Baseline.candidate triple sessionId createdAtNs with id := store.lastId + 1 }],
        row.state = .approved → row ∈ store.baselines := by
      intro row member approved
      rcases List.mem_append.1 member with earlier | last
      · exact earlier
      · obtain rfl := List.mem_singleton.1 last
        cases approved
    exact fun a first b second approved also =>
      one a (old a first approved) b (old b second also) approved also
  | @promoted triple sessionId promotion row listed sameTriple _ _ =>
    rintro _ first _ second approved also same
    obtain ⟨a, firstListed, rfl⟩ := List.mem_map.1 first
    obtain ⟨b, secondListed, rfl⟩ := List.mem_map.1 second
    simp only [promotedRow_triple, promotedRow_id] at same ⊢
    rcases approved_of_promotedRow approved with own | ⟨approved, others⟩
    · rcases approved_of_promotedRow also with its | ⟨-, others⟩
      · exact own.trans its.symm
      · obtain rfl := eq_of_id_eq firstListed listed own
        exact absurd (same.symm.trans sameTriple) others
    · rcases approved_of_promotedRow also with its | ⟨also, -⟩
      · obtain rfl := eq_of_id_eq secondListed listed its
        exact absurd (same.trans sameTriple) others
      · exact one a firstListed b secondListed approved also same
  | revoked =>
    rintro _ first _ second approved also same
    obtain ⟨a, firstListed, rfl⟩ := List.mem_map.1 first
    obtain ⟨b, secondListed, rfl⟩ := List.mem_map.1 second
    simp only [revokedRow_triple, revokedRow_id] at same ⊢
    exact one a firstListed b secondListed (approved_of_revokedRow approved) (approved_of_revokedRow also) same

theorem promoted_step
    (promoted : ∀ row ∈ (BaselineStore.reached attempts).baselines, row.state ≠ .candidate → PromotedIn attempts row)
    (done : (attempt.perform (.reached attempts)).1 = .ok ()) :
    ∀ row ∈ (attempt.perform (.reached attempts)).2.baselines, row.state ≠ .candidate →
      PromotedIn (attempts ++ [attempt]) row := by
  have performed := performed_of_ok done
  generalize result : (attempt.perform (.reached attempts)).2.baselines = after at performed
  generalize called : attempt.call = call at performed
  cases performed with
  | sessionCreated sessionId => exact fun row member moved => (promoted row member moved).append attempt
  | candidateCreated triple sessionId createdAtNs =>
    intro row member moved
    rcases List.mem_append.1 member with earlier | last
    · exact (promoted row earlier moved).append attempt
    · obtain rfl := List.mem_singleton.1 last
      exact absurd rfl moved
  | @promoted triple sessionId promotion row listed sameTriple sameSession _ =>
    rintro _ member moved
    have written := member
    obtain ⟨before, beforeListed, rfl⟩ := List.mem_map.1 member
    unfold promotedRow at moved written ⊢
    split_ifs at moved written ⊢ with own its
    · -- The row that this call promotes.
      obtain rfl := eq_of_id_eq beforeListed listed own
      refine ⟨attempts, attempt, [], promotion, rfl, ?_, done, ⟨_, result ▸ written, rfl, rfl⟩, rfl, rfl, rfl, rfl⟩
      rw [called, ← sameTriple, ← sameSession]
      rfl
    · have approved : before.state ≠ .candidate := by
        have state := (Bool.and_eq_true_iff.1 its).2
        simp_all
      exact (promoted before beforeListed approved).append attempt
    · exact (promoted before beforeListed moved).append attempt
  | @revoked triple reason revokedAtNs row listed sameTriple _ =>
    rintro _ member moved
    obtain ⟨before, beforeListed, rfl⟩ := List.mem_map.1 member
    unfold revokedRow at moved ⊢
    split_ifs at moved ⊢ with its
    · have approved : before.state ≠ .candidate := by
        have state := (Bool.and_eq_true_iff.1 its).2
        simp_all
      exact (promoted before beforeListed approved).append attempt
    · exact (promoted before beforeListed moved).append attempt

theorem revoked_step {store : BaselineStore} {call : BaselineCall}
    (revoked : ∀ row ∈ store.baselines, row.state = .revoked → row.revokedAt.isSome ∧ row.revokedReason.isSome)
    (performed : Performed store call after) :
    ∀ row ∈ after, row.state = .revoked → row.revokedAt.isSome ∧ row.revokedReason.isSome := by
  obtain ⟨moved, created, rfl, moves, fresh⟩ := performed.advances
  intro row member gone
  rcases List.mem_append.1 member with old | new
  · obtain ⟨before, listed, move⟩ := moved_from moves old
    cases move with
    | kept => exact revoked row listed gone
    | approved => cases gone
    | superseded => cases gone
    | revoked => exact ⟨rfl, rfl⟩
  · exact absurd ((fresh row new).symm.trans gone) (by decide)

theorem Lifecycle.step (lifecycle : Lifecycle attempts (BaselineStore.reached attempts).baselines) :
    Lifecycle (attempts ++ [attempt]) (BaselineStore.reached (attempts ++ [attempt])).baselines := by
  have next : BaselineStore.reached (attempts ++ [attempt]) = (attempt.perform (.reached attempts)).2 := by
    simp [BaselineStore.reached]
  rw [next]
  cases result : (attempt.perform (.reached attempts)).1 with
  | error failure =>
    rw [perform_of_error result]
    exact ⟨lifecycle.oneApproved, fun row member moved => (lifecycle.promoted row member moved).append attempt,
      lifecycle.revoked⟩
  | ok _ =>
    have performed := performed_of_ok result
    exact ⟨oneApproved_step lifecycle.oneApproved performed, promoted_step lifecycle.promoted result,
      revoked_step lifecycle.revoked performed⟩

end

theorem lifecycle_reached (attempts : List Attempt) : Lifecycle attempts (BaselineStore.reached attempts).baselines := by
  induction attempts using List.reverseRecOn with
  | nil =>
    refine ⟨?_, ?_, ?_⟩ <;> simp [BaselineStore.reached, BaselineStore.empty]
  | append_singleton before attempt ih => exact ih.step

theorem approved_length_le_one (attempts : List Attempt) (triple : Triple) :
    ((BaselineStore.reached attempts).baselines.filter (Baseline.isApprovedFor triple)).length ≤ 1 := by
  have one := (lifecycle_reached attempts).oneApproved
  have sorted : ((BaselineStore.reached attempts).baselines.filter (Baseline.isApprovedFor triple)).Pairwise
      fun a b => a.id < b.id :=
    (List.pairwise_map.1 (BaselineStore.reached attempts).ordered).filter _
  have its : ∀ row ∈ (BaselineStore.reached attempts).baselines.filter (Baseline.isApprovedFor triple),
      row ∈ (BaselineStore.reached attempts).baselines ∧ row.triple = triple ∧ row.state = .approved := by
    intro row member
    obtain ⟨listed, approved⟩ := List.mem_filter.1 member
    exact ⟨listed, by simpa [Baseline.isApprovedFor] using approved⟩
  generalize (BaselineStore.reached attempts).baselines.filter (Baseline.isApprovedFor triple) = approved at sorted its
  rcases approved with _ | ⟨a, _ | ⟨b, rest⟩⟩
  · simp
  · simp
  · obtain ⟨listed, own, approved⟩ := its a (by simp)
    obtain ⟨also, itsOwn, alsoApproved⟩ := its b (by simp)
    have same := one a listed b also approved alsoApproved (own.trans itsOwn.symm)
    exact absurd ((List.pairwise_cons.1 sorted).1 b (by simp)) (by omega)

/-- What resolving finds is the one approved baseline of the triple. -/
theorem resolveApprovedBaseline_eq_ok_iff (attempts : List Attempt) (triple : Triple) (row : Baseline) :
    (BaselineStore.reached attempts).resolveApprovedBaseline triple = .ok row ↔
      row ∈ (BaselineStore.reached attempts).baselines ∧ row.triple = triple ∧ row.state = .approved := by
  unfold BaselineStore.resolveApprovedBaseline
  rw [require_eq_ok_iff]
  constructor
  · intro found
    exact ⟨List.mem_of_find?_eq_some found, by simpa [Baseline.isApprovedFor] using List.find?_some found⟩
  · rintro ⟨listed, rfl, approved⟩
    have selected : row.isApprovedFor row.triple = true := by simp [Baseline.isApprovedFor, approved]
    cases found : (BaselineStore.reached attempts).baselines.find? (Baseline.isApprovedFor row.triple) with
    | none => exact absurd selected (by simpa using List.find?_eq_none.1 found row listed)
    | some other =>
      have member := List.mem_of_find?_eq_some found
      obtain ⟨itsTriple, itsState⟩ : other.triple = row.triple ∧ other.state = .approved := by
        simpa [Baseline.isApprovedFor] using List.find?_some found
      have same := (lifecycle_reached attempts).oneApproved other member row listed itsState approved itsTriple
      rw [eq_of_id_eq member listed same]

/-- The life of baselines in every state that calls reach, and over every call made there. -/
theorem baseline_lifecycle (attempts : List Attempt) :
    let store := BaselineStore.reached attempts
    (∀ triple, (store.baselines.filter (Baseline.isApprovedFor triple)).length ≤ 1) ∧
      (∀ row ∈ store.baselines, row.state ≠ .candidate → PromotedIn attempts row) ∧
      (∀ row ∈ store.baselines, row.state = .revoked → row.revokedAt.isSome ∧ row.revokedReason.isSome) ∧
      ∀ attempt : Attempt,
        let after := (attempt.perform store).2
        (∀ failure, (attempt.perform store).1 = .error failure → after = store) ∧
          Advances store.baselines after.baselines ∧
          ∀ triple, attempt.call.triple ≠ some triple →
            after.baselines.filter (fun row => row.triple = triple) =
              store.baselines.filter fun row => row.triple = triple := by
  refine ⟨approved_length_le_one attempts, (lifecycle_reached attempts).promoted,
    (lifecycle_reached attempts).revoked, fun attempt => ⟨fun failure => perform_of_error, ?_⟩⟩
  cases result : (attempt.perform (.reached attempts)).1 with
  | error failure =>
    rw [perform_of_error result]
    exact ⟨⟨_, [], (List.append_nil _).symm, List.forall₂_same.2 fun row _ => .kept row, by simp⟩,
      fun _ _ => rfl⟩
  | ok _ =>
    have performed := performed_of_ok result
    exact ⟨performed.advances, fun triple other => performed.filter_other other⟩

end McpTracer.Storage
