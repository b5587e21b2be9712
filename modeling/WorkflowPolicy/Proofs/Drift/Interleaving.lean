import WorkflowPolicy.Proofs.Drift.Calls

/-!
# Audits at the same time

Audits that run at the same time share one store, and between two requests of one audit the others
may make any number of theirs. The unit of an interleaving is one request with its answer.

* `Session.Step` — a session makes its next request. A session that is alone makes its requests one
  after another and ends as it runs (`Session.Step.run_eq`).
* `Crowd` — audits under way and the store in memory that they share; `Crowd.Step` is a request of
  any one of them, and `Crowd.Run` an interleaving with all requests that were made in it.
* `Crowd.Run.store_eq` — whatever the audits are, the store after an interleaving is the one that
  has been told of the policies of the run, in their order. So it counts them, and under the keys
  that none of them has it is as it was (`Store.applies_foldl`, `Store.get?_foldl_of_ne`).
-/

namespace WorkflowPolicy

/-! ### One request of a session -/

namespace Session

variable {σ α : Type} {keeper : Keeper σ}

/-- **A session makes its next request**, goes on with the answer, and leaves its keeper in another
state. -/
inductive Step (keeper : Keeper σ) : Session α → σ → Request → Session α → σ → Prop
  | get (key : PolicyKey) (next : Except Failure (Option NetworkPolicy) → Session α) (s : σ) :
      Step keeper (.get key next) s (.get key) (next (keeper.get key s).1) (keeper.get key s).2
  | apply (policy : NetworkPolicy) (next : Except Failure Unit → Session α) (s : σ) :
      Step keeper (.apply policy next) s (.apply policy) (next (keeper.apply policy s).1)
        (keeper.apply policy s).2

variable {session rest : Session α} {s s' : σ} {request : Request}

/-- What is left of a session runs to the same end. -/
theorem Step.run_eq (h : session.Step keeper s request rest s') :
    session.run keeper s = rest.run keeper s' := by
  -- The two kinds of requests are the two equations of a run.
  cases h <;> rfl

/-- A session that has ended makes no request. -/
theorem not_step_done {result : Except Failure α} :
    ¬ (Session.done result).Step keeper s request rest s' := by
  rintro ⟨⟩

end Session

/-! ### Audits under way -/

/-- **An audit that is under way**: what is left of its session. -/
inductive Running where
  | status (rest : Session DriftReport)
  | lock (dryRun : Bool) (rest : Session LockOutcome)

/-- An audit before its first request. -/
def AuditCall.begin : AuditCall → Running
  | .status settings asked w => .status (w.status settings asked)
  | .lock settings asked dryRun w => .lock dryRun (w.lock settings asked dryRun)

/-- The audits of a workflow with the given arguments; a lock may be a dry run. -/
inductive AuditCall.IsOn (settings : Settings) (asked : Option String) (w : Workflow) :
    AuditCall → Prop
  | status : IsOn settings asked w (.status settings asked w)
  | lock (dryRun : Bool) : IsOn settings asked w (.lock settings asked dryRun w)

namespace Running

/-- What an audit has answered, if it has come to its end. -/
def answer? : Running → Option AuditAnswer
  | .status (.done report) => some (.status report)
  | .lock _ (.done outcome) => some (.lock outcome)
  | _ => none

/-- Has the audit put a policy in place and said so? -/
def hasApplied (r : Running) : Bool := r.answer?.any (·.isApplied)

/-- One request of an audit to the store in memory. -/
inductive Step : Running → Store → Request → Running → Store → Prop
  | status {rest rest' : Session DriftReport} {store store' : Store} {request : Request}
      (h : rest.Step .memory store request rest' store') :
      Step (.status rest) store request (.status rest') store'
  | lock {dryRun : Bool} {rest rest' : Session LockOutcome} {store store' : Store}
      {request : Request} (h : rest.Step .memory store request rest' store') :
      Step (.lock dryRun rest) store request (.lock dryRun rest') store'

end Running

/-- **Audits under way at the same time**, and the store that they share. -/
structure Crowd where
  running : List Running
  store : Store

namespace Crowd

/-- All audits before their first requests. -/
def start (calls : List AuditCall) (store : Store) : Crowd := ⟨calls.map AuditCall.begin, store⟩

/-- **One of the audits makes a request.** -/
inductive Step : Crowd → Request → Crowd → Prop
  | request {before after : List Running} {r r' : Running} {store store' : Store}
      {request : Request} (h : r.Step store request r' store') :
      Step ⟨before ++ r :: after, store⟩ request ⟨before ++ r' :: after, store'⟩

/-- **An interleaving**, with the requests that have been made in it. -/
inductive Run (first : Crowd) : List Request → Crowd → Prop
  | start : Run first [] first
  | next {said : List Request} {crowd crowd' : Crowd} {request : Request}
      (hrun : Run first said crowd) (hstep : crowd.Step request crowd') :
      Run first (said ++ [request]) crowd'

/-- An interleaving that goes on where another one has come to. -/
theorem Run.trans {first crowd crowd' : Crowd} {said said' : List Request}
    (h : Run first said crowd) (h' : Run crowd said' crowd') :
    Run first (said ++ said') crowd' := by
  -- The second interleaving is gone through; the first one stays in front of it.
  induction h' with
  | start => rwa [List.append_nil]
  | next _ hstep ih =>
    rw [← List.append_assoc]
    exact ih.next hstep

end Crowd

/-! ### What the store is told -/

/-- The policy that a request puts in place. -/
def Request.policy? : Request → Option NetworkPolicy
  | .get _ => none
  | .apply policy => some policy

namespace Store

/-- The store counts what it is told. -/
theorem applies_foldl (policies : List NetworkPolicy) (store : Store) :
    (policies.foldl apply store).applies = store.applies + policies.length := by
  induction policies generalizing store with
  | nil => rfl
  -- The induction goes on from the store after the first policy, so it is for any store.
  | cons policy policies ih =>
    rw [List.foldl_cons, ih, applies_apply, List.length_cons]
    omega

/-- Under a key that none of the policies has, the store is as it was. -/
theorem get?_foldl_of_ne {policies : List NetworkPolicy} {key : PolicyKey}
    (h : ∀ policy ∈ policies, key ≠ policy.key) (store : Store) :
    (policies.foldl apply store).get? key = store.get? key := by
  induction policies generalizing store with
  | nil => rfl
  | cons policy policies ih =>
    obtain ⟨hfirst, hrest⟩ := List.forall_mem_cons.mp h
    rw [List.foldl_cons, ih hrest, get?_apply, get?_insert_of_ne hfirst]

/-- A policy stays where it is if the store is told of no other one. -/
theorem get?_foldl_of_forall_eq {policies : List NetworkPolicy} {made : NetworkPolicy}
    {key : PolicyKey} (h : ∀ policy ∈ policies, policy = made) (hkey : made.key = key)
    {store : Store} (hnow : store.get? key = some made) :
    (policies.foldl apply store).get? key = some made := by
  induction policies generalizing store with
  | nil => exact hnow
  | cons policy policies ih =>
    obtain ⟨rfl, hrest⟩ := List.forall_mem_cons.mp h
    rw [List.foldl_cons]
    refine ih hrest ?_
    -- Putting the same policy in place once more leaves it under its key.
    rw [← hkey, get?_apply, get?_insert_self]

end Store

/-- A request tells the store of its policy, if it has one. -/
theorem Running.Step.store_eq {r r' : Running} {store store' : Store} {request : Request}
    (h : r.Step store request r' store') :
    store' = request.policy?.toList.foldl Store.apply store := by
  -- A read tells nothing and leaves the store in memory as it is.
  cases h with
  | status h => cases h <;> rfl
  | lock h => cases h <;> rfl

/-- **The store after an interleaving** of any audits. -/
theorem Crowd.Run.store_eq {first crowd : Crowd} {said : List Request} (h : Run first said crowd) :
    crowd.store = (said.filterMap Request.policy?).foldl Store.apply first.store := by
  induction h with
  | start => rfl
  | @next said crowd crowd' request hrun hstep ih =>
    cases hstep with
    | request hrequest =>
      -- The last request tells its policy to the store that the others have left.
      rw [List.filterMap_append, List.foldl_append, ← ih, hrequest.store_eq]
      cases request <;> rfl

end WorkflowPolicy
