import Mathlib.Algebra.Group.Nat.Defs
import McpTracer.Foundation.Outcome

/-! Baselines: which recorded session a project, scenario and environment is compared with.

The schema does not say that at most one baseline is approved; promotion takes care of it. A call
is a few statements, each of which the database may refuse. Promotion runs its statements in one
transaction, the other calls consist of a single statement that commits by itself.
-/

set_option autoImplicit false

namespace McpTracer.Storage
open McpTracer.Foundation

/-! ## The table -/

inductive BaselineState where
  | candidate
  | approved
  | superseded
  | revoked
  deriving DecidableEq

/-- What a baseline is looked up by. -/
structure Triple where
  project : String
  scenario : String
  environment : String
  deriving DecidableEq

structure Baseline where
  id : Nat
  triple : Triple
  sessionId : String
  state : BaselineState
  digest : Option String
  promotedBy : Option String
  promotedAt : Option Int
  promotionReason : Option String
  revokedAt : Option Int
  revokedReason : Option String
  createdAt : Int
  deriving DecidableEq

/-- The baselines in the order of their ids, with the constraints that the schema declares. -/
structure BaselineStore where
  sessionIds : List String
  baselines : List Baseline
  /-- The greatest id that was ever given out. -/
  lastId : Nat
  ordered : (baselines.map Baseline.id).Pairwise (· < ·)
  bounded : ∀ row ∈ baselines, row.id ≤ lastId
  owned : ∀ row ∈ baselines, row.sessionId ∈ sessionIds

inductive BaselineError where
  | statementFailed (index : Nat)
  | unknownSession (sessionId : String)
  | idsExhausted
  | noCandidate (triple : Triple) (sessionId : String)
  | noApproved (triple : Triple)
  deriving DecidableEq

namespace BaselineStore

def empty : BaselineStore where
  sessionIds := []
  baselines := []
  lastId := 0
  ordered := .nil
  bounded := fun _ member => absurd member List.not_mem_nil
  owned := fun _ member => absurd member List.not_mem_nil

def insertSession (store : BaselineStore) (sessionId : String) : BaselineStore where
  sessionIds := store.sessionIds ++ [sessionId]
  baselines := store.baselines
  lastId := store.lastId
  ordered := store.ordered
  bounded := store.bounded
  owned := fun row member => List.mem_append_left _ (store.owned row member)

/-- `INSERT` under the next id; the session must exist. -/
def insert (store : BaselineStore) (row : Baseline) : Except BaselineError BaselineStore :=
  if known : row.sessionId ∈ store.sessionIds then
    if store.lastId + 1 < 2 ^ 63 then
      .ok {
        sessionIds := store.sessionIds
        baselines := store.baselines ++ [{ row with id := store.lastId + 1 }]
        lastId := store.lastId + 1
        ordered := by
          rw [List.map_append, List.pairwise_append]
          refine ⟨store.ordered, List.pairwise_singleton _ _, fun id listed new same => ?_⟩
          obtain ⟨other, member, rfl⟩ := List.mem_map.1 listed
          obtain rfl := List.mem_singleton.1 same
          exact Nat.lt_succ_of_le (store.bounded other member)
        bounded := fun other member => by
          rcases List.mem_append.1 member with earlier | last
          · exact Nat.le_succ_of_le (store.bounded other earlier)
          · obtain rfl := List.mem_singleton.1 last
            exact Nat.le_refl _
        owned := fun other member => by
          rcases List.mem_append.1 member with earlier | last
          · exact store.owned other earlier
          · obtain rfl := List.mem_singleton.1 last
            exact known }
    else .error .idsExhausted
  else .error (.unknownSession row.sessionId)

/-- `UPDATE … SET … WHERE`, which touches neither ids nor sessions. -/
def update (store : BaselineStore) (selected : Baseline → Bool) (assign : Baseline → Baseline)
    (sameId : ∀ row, (assign row).id = row.id) (sameSession : ∀ row, (assign row).sessionId = row.sessionId) :
    BaselineStore where
  sessionIds := store.sessionIds
  baselines := store.baselines.map fun row => if selected row then assign row else row
  lastId := store.lastId
  ordered := by
    have same : (store.baselines.map fun row => if selected row then assign row else row).map Baseline.id =
        store.baselines.map Baseline.id := by
      rw [List.map_map]
      refine List.map_congr_left fun row _ => ?_
      dsimp only [Function.comp_apply]
      split_ifs
      · exact sameId row
      · rfl
    rw [same]
    exact store.ordered
  bounded := fun row member => by
    obtain ⟨before, listed, rfl⟩ := List.mem_map.1 member
    split_ifs
    · exact (sameId before).symm ▸ store.bounded before listed
    · exact store.bounded before listed
  owned := fun row member => by
    obtain ⟨before, listed, rfl⟩ := List.mem_map.1 member
    split_ifs
    · exact (sameSession before).symm ▸ store.owned before listed
    · exact store.owned before listed

/-- An update that selects nothing is none. -/
theorem update_of_none {store : BaselineStore} {selected : Baseline → Bool} {assign : Baseline → Baseline}
    (sameId : ∀ row, (assign row).id = row.id) (sameSession : ∀ row, (assign row).sessionId = row.sessionId)
    (none_ : ∀ row ∈ store.baselines, selected row = false) :
    store.update selected assign sameId sameSession = store := by
  have same : (store.baselines.map fun row => if selected row then assign row else row) = store.baselines := by
    refine (List.map_congr_left fun row member => ?_).trans (List.map_id _)
    rw [none_ row member]
    rfl
  cases store
  simp only [update] at same ⊢
  congr

end BaselineStore

/-! ## The rows that calls write -/

/-- Who promoted what, when and why. -/
structure Promotion where
  digest : String
  promotedBy : String
  reason : String
  promotedAtNs : Int
  deriving DecidableEq

namespace Baseline

def candidate (triple : Triple) (sessionId : String) (createdAtNs : Int) : Baseline where
  id := 0
  triple := triple
  sessionId := sessionId
  state := .candidate
  digest := none
  promotedBy := none
  promotedAt := none
  promotionReason := none
  revokedAt := none
  revokedReason := none
  createdAt := createdAtNs

def approve (promotion : Promotion) (row : Baseline) : Baseline :=
  { row with
    state := .approved
    digest := some promotion.digest
    promotedBy := some promotion.promotedBy
    promotedAt := some promotion.promotedAtNs
    promotionReason := some promotion.reason }

def supersede (row : Baseline) : Baseline := { row with state := .superseded }

def revoke (reason : String) (revokedAtNs : Int) (row : Baseline) : Baseline :=
  { row with
    state := .revoked
    revokedAt := some revokedAtNs
    revokedReason := some reason }

def isApprovedFor (triple : Triple) (row : Baseline) : Bool := row.triple = triple && row.state = .approved

def isCandidateFor (triple : Triple) (sessionId : String) (row : Baseline) : Bool :=
  row.triple = triple && row.sessionId = sessionId && row.state = .candidate

end Baseline

/-! ## The calls -/

/-- The database carries a statement out, or refuses it. -/
def statement (refused : Nat → Bool) (index : Nat) : Except BaselineError Unit :=
  if refused index then .error (.statementFailed index) else .ok ()

/-- What a call reports, and the tables that it leaves. -/
abbrev Reported (A : Type) := Except BaselineError A × BaselineStore

/-- The tables are as before unless the body reaches its end. -/
def transaction (store : BaselineStore) (body : Except BaselineError BaselineStore) : Reported Unit :=
  match body with
  | .ok after => (.ok (), after)
  | .error failure => (.error failure, store)

namespace BaselineStore

def createBaselineCandidate (refused : Nat → Bool) (triple : Triple) (sessionId : String) (createdAtNs : Int)
    (store : BaselineStore) : Reported Nat :=
  match statement refused 0 >>= fun _ => store.insert (.candidate triple sessionId createdAtNs) with
  | .ok after => (.ok after.lastId, after)
  | .error failure => (.error failure, store)

/-- Promote a candidate, and supersede what was approved before. -/
def promoteBaseline (refused : Nat → Bool) (triple : Triple) (sessionId : String) (promotion : Promotion)
    (store : BaselineStore) : Reported Unit :=
  transaction store <| do
    statement refused 0
    statement refused 1
    let row ← require (store.baselines.find? (Baseline.isCandidateFor triple sessionId))
      (.noCandidate triple sessionId)
    statement refused 2
    let store := store.update (Baseline.isApprovedFor triple) Baseline.supersede (fun _ => rfl) fun _ => rfl
    statement refused 3
    let store := store.update (fun other => other.id = row.id) (Baseline.approve promotion) (fun _ => rfl)
      fun _ => rfl
    statement refused 4
    return store

/-- Revoke what is approved; the statement has taken effect when the rows it changed are counted. -/
def revokeBaseline (refused : Nat → Bool) (triple : Triple) (reason : String) (revokedAtNs : Int)
    (store : BaselineStore) : Reported Unit :=
  match statement refused 0 with
  | .error failure => (.error failure, store)
  | .ok () =>
    let changed := store.baselines.countP (Baseline.isApprovedFor triple)
    let after := store.update (Baseline.isApprovedFor triple) (Baseline.revoke reason revokedAtNs) (fun _ => rfl)
      fun _ => rfl
    if changed = 0 then (.error (.noApproved triple), after) else (.ok (), after)

def resolveApprovedBaseline (triple : Triple) (store : BaselineStore) : Except BaselineError Baseline :=
  require (store.baselines.find? (Baseline.isApprovedFor triple)) (.noApproved triple)

end BaselineStore

/-! ## Runs -/

inductive BaselineCall where
  | createSession (sessionId : String)
  | createBaselineCandidate (triple : Triple) (sessionId : String) (createdAtNs : Int)
  | promoteBaseline (triple : Triple) (sessionId : String) (promotion : Promotion)
  | revokeBaseline (triple : Triple) (reason : String) (revokedAtNs : Int)

namespace BaselineCall

/-- The triple that a call is about. -/
def triple : BaselineCall → Option Triple
  | .createSession _ => none
  | .createBaselineCandidate triple _ _ | .promoteBaseline triple _ _ | .revokeBaseline triple _ _ => some triple

def perform (refused : Nat → Bool) (store : BaselineStore) : BaselineCall → Reported Unit
  | .createSession sessionId => (.ok (), store.insertSession sessionId)
  | .createBaselineCandidate triple sessionId createdAtNs =>
    let reported := store.createBaselineCandidate refused triple sessionId createdAtNs
    (reported.1.map fun _ => (), reported.2)
  | .promoteBaseline triple sessionId promotion => store.promoteBaseline refused triple sessionId promotion
  | .revokeBaseline triple reason revokedAtNs => store.revokeBaseline refused triple reason revokedAtNs

end BaselineCall

/-- A call, with the statements that the database refuses during it. -/
structure Attempt where
  call : BaselineCall
  refused : Nat → Bool

def Attempt.perform (attempt : Attempt) (store : BaselineStore) : Reported Unit :=
  attempt.call.perform attempt.refused store

/-- The tables after a run of calls on an empty database. -/
def BaselineStore.reached (attempts : List Attempt) : BaselineStore :=
  attempts.foldl (fun store attempt => (attempt.perform store).2) .empty

end McpTracer.Storage
