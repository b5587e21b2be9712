import WorkflowPolicy.Drift.Audit

/-!
# How audits end

A report and a lock are sessions with a store, and nothing is known of the store but its answers: a
`Keeper` may fail at any request, and may be changed by others between two of them. This module says
for every keeper which requests an audit makes and what it ends with.

* `Session.requests` — what a run says to its keeper, in order; `Session.Ends` puts it together with
  the result and the state that is left.
* `Workflow.withLive_…` — both audits look for the live policy first, once and under one key.
* `Workflow.status_ends` and `Workflow.lock_clean`, `lock_dryRun`, `lock_stale` — what they do with
  a policy that is there. Only the last makes a second request.
* `Workflow.lock_exit` — a lock ends in one of the seven ways of `Workflow.LockExit`, so a fact
  about all locks is a case split over these.
-/

namespace WorkflowPolicy

/-- What a store is asked for. -/
inductive Request where
  | get (key : PolicyKey)
  | apply (policy : NetworkPolicy)
  deriving DecidableEq

/-! ### Requests of a run -/

namespace Session

variable {σ α : Type}

/-- **What a run says to its keeper**, in order. -/
def requests (keeper : Keeper σ) : Session α → σ → List Request
  | .done _, _ => []
  | .get key next, s =>
    let (answer, s) := keeper.get key s
    .get key :: (next answer).requests keeper s
  | .apply policy next, s =>
    let (answer, s) := keeper.apply policy s
    .apply policy :: (next answer).requests keeper s

/-- **How a run ends**: what it has said to its keeper, what it results in, and the state that it
leaves behind. -/
structure Ends (session : Session α) (keeper : Keeper σ) (s : σ) (requests : List Request)
    (result : Except Failure α) (s' : σ) : Prop where
  requests : session.requests keeper s = requests
  run : session.run keeper s = (result, s')

variable {keeper : Keeper σ} {s s' s'' : σ} {result : Except Failure α} {said : List Request}

theorem ends_done : (Session.done result).Ends keeper s [] result s := ⟨rfl, rfl⟩

/-- A read goes on with its answer. -/
theorem ends_get {key : PolicyKey} {answer : Except Failure (Option NetworkPolicy)}
    {next : Except Failure (Option NetworkPolicy) → Session α}
    (hget : keeper.get key s = (answer, s'))
    (hnext : (next answer).Ends keeper s' said result s'') :
    (Session.get key next).Ends keeper s (.get key :: said) result s'' := by
  -- Both parts go on in the state in which the read has left the store.
  constructor
  · rw [Session.requests, hget]
    show Request.get key :: (next answer).requests keeper s' = _
    rw [hnext.requests]
  · rw [Session.run, hget]
    exact hnext.run

/-- A write goes on with its answer. -/
theorem ends_apply {policy : NetworkPolicy} {answer : Except Failure Unit}
    {next : Except Failure Unit → Session α} (happly : keeper.apply policy s = (answer, s'))
    (hnext : (next answer).Ends keeper s' said result s'') :
    (Session.apply policy next).Ends keeper s (.apply policy :: said) result s'' := by
  constructor
  · rw [Session.requests, happly]
    show Request.apply policy :: (next answer).requests keeper s' = _
    rw [hnext.requests]
  · rw [Session.run, happly]
    exact hnext.run

end Session

namespace Workflow

variable {settings : Settings} {asked : Option String} {w : Workflow}

/-! ### The key -/

/-- The namespace that counts. -/
def liveNamespace (settings : Settings) (asked : Option String) (w : Workflow) : String :=
  settings.namespaceOf asked w.declaredNamespace

/-- The key under which a lock and a report look for the policy. -/
def liveKey (settings : Settings) (asked : Option String) (w : Workflow) : PolicyKey :=
  w.policyKey (w.liveNamespace settings asked)

/-- The policy of a workflow is found under its name. -/
theorem key_of_networkPolicy {policySettings : PolicySettings} {namespaceName : String}
    {policy : NetworkPolicy} (h : w.networkPolicy? policySettings namespaceName = some policy) :
    policy.key = w.policyKey namespaceName := by
  -- Name and namespace of a policy are those for which it is made, whatever its rules are.
  obtain ⟨c, -, rfl⟩ := Option.map_eq_some_iff.mp h
  rfl

/-- The policy made without registries takes the place of the one that was found. -/
theorem key_networkPolicy {policy : NetworkPolicy} {settings' : PolicySettings}
    (h : w.withoutBootstrap.networkPolicy? settings' (w.liveNamespace settings asked) =
      some policy) : policy.key = w.liveKey settings asked := by
  rw [key_of_networkPolicy h]
  rfl

/-- A workflow with a contract keeps one without its dependencies on registries, so a policy can
always be made. -/
theorem exists_networkPolicy (hcontract : w.contract.isSome) (settings' : PolicySettings)
    (namespaceName : String) :
    ∃ policy, w.withoutBootstrap.networkPolicy? settings' namespaceName = some policy := by
  -- Taking out dependencies keeps a contract, even if none is left.
  apply Option.isSome_iff_exists.mp
  rw [networkPolicy?, Option.isSome_map, withoutBootstrap, Option.isSome_map]
  exact hcontract

variable {σ : Type} {keeper : Keeper σ} {s s' s'' : σ}

/-! ### Looking for the live policy -/

section Search

variable {α : Type} {action : String} {next : String → NetworkPolicy → Session α}

/-- Without a contract the store is not asked at all. -/
theorem withLive_noContract (hcontract : w.contract = none) :
    (w.withLive settings asked action next).Ends keeper s [] (.error (w.noContract action)) s := by
  rw [withLive, hcontract]
  exact Session.ends_done

/-- With a contract the store is asked for the live policy. -/
theorem withLive_eq (hcontract : w.contract.isSome) :
    w.withLive settings asked action next = .get (w.liveKey settings asked) fun
      | .error failure => .done (.error failure)
      | .ok none => .done (.error (noPolicy (w.liveKey settings asked)))
      | .ok (some live) => next (w.liveNamespace settings asked) live := by
  -- The contract is asked for only as being there.
  have hnone : w.contract.isNone = false := by
    rw [← Option.not_isSome, hcontract]
    rfl
  rw [withLive, hnone]
  rfl

/-- What the store says of a policy that cannot be read is handed on. -/
theorem withLive_unreadable (hcontract : w.contract.isSome) {failure : Failure}
    (hget : keeper.get (w.liveKey settings asked) s = (.error failure, s')) :
    (w.withLive settings asked action next).Ends keeper s [.get (w.liveKey settings asked)]
      (.error failure) s' := by
  rw [withLive_eq hcontract]
  exact Session.ends_get hget Session.ends_done

theorem withLive_missing (hcontract : w.contract.isSome)
    (hget : keeper.get (w.liveKey settings asked) s = (.ok none, s')) :
    (w.withLive settings asked action next).Ends keeper s [.get (w.liveKey settings asked)]
      (.error (noPolicy (w.liveKey settings asked))) s' := by
  rw [withLive_eq hcontract]
  exact Session.ends_get hget Session.ends_done

/-- What is done with a live policy that is there. -/
theorem withLive_found (hcontract : w.contract.isSome) {live : NetworkPolicy}
    (hget : keeper.get (w.liveKey settings asked) s = (.ok (some live), s'))
    {said : List Request} {result : Except Failure α}
    (hnext : (next (w.liveNamespace settings asked) live).Ends keeper s' said result s'') :
    (w.withLive settings asked action next).Ends keeper s
      (.get (w.liveKey settings asked) :: said) result s'' := by
  rw [withLive_eq hcontract]
  exact Session.ends_get hget hnext

end Search

/-! ### Reports and locks -/

variable {live : NetworkPolicy}

/-- A report reads the live policy and says nothing more to the store. -/
theorem status_ends (hcontract : w.contract.isSome)
    (hget : keeper.get (w.liveKey settings asked) s = (.ok (some live), s')) :
    (w.status settings asked).Ends keeper s [.get (w.liveKey settings asked)]
      (.ok (.compare w.name (w.liveNamespace settings asked) live.metadata.name w.contractHosts
        live.liveHosts)) s' :=
  withLive_found hcontract hget Session.ends_done

/-- Whatever the store answers, a report changes its state by one read at most. -/
theorem status_reads (keeper : Keeper σ) (settings : Settings) (asked : Option String)
    (w : Workflow) (s : σ) : ∃ report s', (w.status settings asked).run keeper s = (report, s') ∧
      (s' = s ∨ ∃ answer, keeper.get (w.liveKey settings asked) s = (answer, s')) := by
  -- The cases are those of the look-up. Each of them has its own end, and only the first leaves the
  -- store unread.
  cases hcontract : w.contract with
  | none => exact ⟨_, _, (withLive_noContract hcontract).run, .inl rfl⟩
  | some c =>
    have hsome : w.contract.isSome := by rw [hcontract]; rfl
    rcases hget : keeper.get (w.liveKey settings asked) s with ⟨failure | _ | live, s'⟩
    · exact ⟨_, _, (withLive_unreadable hsome hget).run, .inr ⟨_, rfl⟩⟩
    · exact ⟨_, _, (withLive_missing hsome hget).run, .inr ⟨_, rfl⟩⟩
    · exact ⟨_, _, (status_ends hsome hget).run, .inr ⟨_, rfl⟩⟩

/-- A clean policy is left alone. -/
theorem lock_clean (hcontract : w.contract.isSome)
    (hget : keeper.get (w.liveKey settings asked) s = (.ok (some live), s'))
    (hclean : live.bootstrapHosts = []) (dryRun : Bool) :
    (w.lock settings asked dryRun).Ends keeper s [.get (w.liveKey settings asked)]
      (.ok .alreadyClean) s' := by
  refine withLive_found hcontract hget ?_
  -- There is nothing to remove, so the first test ends the lock.
  rw [hclean]
  exact Session.ends_done

/-- A dry run tells what would be removed. -/
theorem lock_dryRun (hcontract : w.contract.isSome)
    (hget : keeper.get (w.liveKey settings asked) s = (.ok (some live), s'))
    (hstale : live.bootstrapHosts ≠ []) :
    (w.lock settings asked true).Ends keeper s [.get (w.liveKey settings asked)]
      (.ok (.dryRun live.bootstrapHosts)) s' := by
  refine withLive_found hcontract hget ?_
  -- There is something to remove, and the second test is for dry runs.
  rw [if_neg (by rw [List.isEmpty_iff]; exact hstale), if_pos rfl]
  exact Session.ends_done

/-- A policy that is not clean is replaced, and the answer to that is handed on. -/
theorem lock_stale (hcontract : w.contract.isSome)
    (hget : keeper.get (w.liveKey settings asked) s = (.ok (some live), s'))
    (hstale : live.bootstrapHosts ≠ []) {policy : NetworkPolicy}
    (hpolicy : w.withoutBootstrap.networkPolicy? settings.policy (w.liveNamespace settings asked) =
      some policy)
    {answer : Except Failure Unit} (happly : keeper.apply policy s' = (answer, s'')) :
    (w.lock settings asked false).Ends keeper s
      [.get (w.liveKey settings asked), .apply policy]
      (answer.map fun _ => .applied live.bootstrapHosts policy) s'' := by
  refine withLive_found hcontract hget ?_
  rw [if_neg (by rw [List.isEmpty_iff]; exact hstale), if_neg Bool.false_ne_true, hpolicy]
  refine Session.ends_apply happly ?_
  -- The answer to the write is the end in either case.
  cases answer <;> exact Session.ends_done

/-- **The ways in which a lock ends**: what it has said to the store, its result, and the state of
the store after it. -/
inductive LockExit (keeper : Keeper σ) (settings : Settings) (asked : Option String)
    (w : Workflow) (s : σ) : Bool → List Request → Except Failure LockOutcome → σ → Prop
  | noContract {dryRun : Bool} (hcontract : w.contract = none) :
      LockExit keeper settings asked w s dryRun [] (.error (w.noContract "lock")) s
  | unreadable {dryRun : Bool} {failure : Failure} {s' : σ} (hcontract : w.contract.isSome)
      (hget : keeper.get (w.liveKey settings asked) s = (.error failure, s')) :
      LockExit keeper settings asked w s dryRun [.get (w.liveKey settings asked)]
        (.error failure) s'
  | missing {dryRun : Bool} {s' : σ} (hcontract : w.contract.isSome)
      (hget : keeper.get (w.liveKey settings asked) s = (.ok none, s')) :
      LockExit keeper settings asked w s dryRun [.get (w.liveKey settings asked)]
        (.error (noPolicy (w.liveKey settings asked))) s'
  | clean {dryRun : Bool} {live : NetworkPolicy} {s' : σ} (hcontract : w.contract.isSome)
      (hget : keeper.get (w.liveKey settings asked) s = (.ok (some live), s'))
      (hclean : live.bootstrapHosts = []) :
      LockExit keeper settings asked w s dryRun [.get (w.liveKey settings asked)]
        (.ok .alreadyClean) s'
  | dryRun {live : NetworkPolicy} {s' : σ} (hcontract : w.contract.isSome)
      (hget : keeper.get (w.liveKey settings asked) s = (.ok (some live), s'))
      (hstale : live.bootstrapHosts ≠ []) :
      LockExit keeper settings asked w s true [.get (w.liveKey settings asked)]
        (.ok (.dryRun live.bootstrapHosts)) s'
  | refused {live policy : NetworkPolicy} {failure : Failure} {s' s'' : σ}
      (hcontract : w.contract.isSome)
      (hget : keeper.get (w.liveKey settings asked) s = (.ok (some live), s'))
      (hstale : live.bootstrapHosts ≠ [])
      (hpolicy : w.withoutBootstrap.networkPolicy? settings.policy
        (w.liveNamespace settings asked) = some policy)
      (happly : keeper.apply policy s' = (.error failure, s'')) :
      LockExit keeper settings asked w s false
        [.get (w.liveKey settings asked), .apply policy] (.error failure) s''
  | applied {live policy : NetworkPolicy} {s' s'' : σ} (hcontract : w.contract.isSome)
      (hget : keeper.get (w.liveKey settings asked) s = (.ok (some live), s'))
      (hstale : live.bootstrapHosts ≠ [])
      (hpolicy : w.withoutBootstrap.networkPolicy? settings.policy
        (w.liveNamespace settings asked) = some policy)
      (happly : keeper.apply policy s' = (.ok (), s'')) :
      LockExit keeper settings asked w s false
        [.get (w.liveKey settings asked), .apply policy]
        (.ok (.applied live.bootstrapHosts policy)) s''

/-- **Every lock ends in one of these ways.** -/
theorem lock_exit (keeper : Keeper σ) (settings : Settings) (asked : Option String)
    (w : Workflow) (s : σ) (dryRun : Bool) : ∃ said result s',
      (w.lock settings asked dryRun).Ends keeper s said result s' ∧
        LockExit keeper settings asked w s dryRun said result s' := by
  cases hcontract : w.contract with
  | none => exact ⟨_, _, _, withLive_noContract hcontract, .noContract hcontract⟩
  | some c =>
    have hsome : w.contract.isSome := by rw [hcontract]; rfl
    -- The cases are the answers of the store, first to the read and then to the write.
    rcases hget : keeper.get (w.liveKey settings asked) s with ⟨failure | _ | live, s'⟩
    · exact ⟨_, _, _, withLive_unreadable hsome hget, .unreadable hsome hget⟩
    · exact ⟨_, _, _, withLive_missing hsome hget, .missing hsome hget⟩
    · by_cases hstale : live.bootstrapHosts = []
      · exact ⟨_, _, _, lock_clean hsome hget hstale dryRun, .clean hsome hget hstale⟩
      · cases dryRun with
        | true => exact ⟨_, _, _, lock_dryRun hsome hget hstale, .dryRun hsome hget hstale⟩
        | false =>
          obtain ⟨policy, hpolicy⟩ := exists_networkPolicy hsome settings.policy
            (w.liveNamespace settings asked)
          rcases happly : keeper.apply policy s' with ⟨failure | _, s''⟩
          · exact ⟨_, _, _, lock_stale hsome hget hstale hpolicy happly,
              .refused hsome hget hstale hpolicy happly⟩
          · exact ⟨_, _, _, lock_stale hsome hget hstale hpolicy happly,
              .applied hsome hget hstale hpolicy happly⟩

/-- The way in which a lock with this result has ended. -/
theorem lockExit_of_run {dryRun : Bool} {result : Except Failure LockOutcome}
    (h : (w.lock settings asked dryRun).run keeper s = (result, s')) :
    ∃ said, LockExit keeper settings asked w s dryRun said result s' := by
  obtain ⟨said, result', s₁, hends, hexit⟩ := lock_exit keeper settings asked w s dryRun
  -- The result and the state are those of the run, so the end is the one that was found.
  rw [hends.run] at h
  obtain ⟨rfl, rfl⟩ := Prod.mk.inj h
  exact ⟨said, hexit⟩

end Workflow

end WorkflowPolicy
