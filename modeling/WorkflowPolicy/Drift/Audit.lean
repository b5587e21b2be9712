import WorkflowPolicy.Drift.Report
import WorkflowPolicy.Drift.Session
import WorkflowPolicy.NetworkPolicy.Synthesis

/-!
# Auditing live policies

* `status` — reads the live policy of a workflow and reports how far it has drifted from the
  contract;
* `lock` — replaces a live policy that has bootstrap hosts on record with the one made from the
  contract without its dependencies on registries. A clean policy is left alone, and a dry run only
  tells what would be removed.

Both need a contract, and find the policy by the name of the workflow in the namespace that counts
(`Settings.namespaceOf`).
-/

namespace WorkflowPolicy

/-- **What a lock has done.** -/
inductive LockOutcome where
  /-- There was nothing to remove, and nothing was written. -/
  | alreadyClean
  /-- These hosts would be removed. -/
  | dryRun (removable : List String)
  /-- These hosts were removed by putting the policy in place. -/
  | applied (removed : List String) (policy : NetworkPolicy)
  deriving DecidableEq

namespace Workflow

/-- A workflow without a contract. -/
def noContract (w : Workflow) (action : String) : Failure :=
  .workflow ("workflow " ++ Text.quoted w.name ++ " has no contract, nothing to " ++ action)

/-- A policy that is not there. -/
def noPolicy (key : PolicyKey) : Failure :=
  .audit ("NetworkPolicy " ++ key.namespaceName ++ "/" ++ key.name ++ " not found")

/-- The key of the policy of a workflow in a namespace. -/
def policyKey (w : Workflow) (namespaceName : String) : PolicyKey := ⟨namespaceName, w.policyName⟩

/-- Goes on with the namespace that counts and the live policy of a workflow with a contract. -/
def withLive {α : Type} (settings : Settings) (asked : Option String) (action : String)
    (w : Workflow) (next : String → NetworkPolicy → Session α) : Session α :=
  if w.contract.isNone then .done (.error (w.noContract action))
  else
    let namespaceName := settings.namespaceOf asked w.declaredNamespace
    let key := w.policyKey namespaceName
    .get key fun
      | .error failure => .done (.error failure)
      | .ok none => .done (.error (noPolicy key))
      | .ok (some live) => next namespaceName live

/-- **How far the live policy has drifted.** -/
def status (settings : Settings) (asked : Option String) (w : Workflow) : Session DriftReport :=
  w.withLive settings asked "check" fun namespaceName live =>
    .done (.ok (.compare w.name namespaceName live.metadata.name w.contractHosts live.liveHosts))

/-- **Removes the bootstrap hosts from the live policy.** -/
def lock (settings : Settings) (asked : Option String) (dryRun : Bool) (w : Workflow) :
    Session LockOutcome :=
  w.withLive settings asked "lock" fun namespaceName live =>
    if live.bootstrapHosts.isEmpty then .done (.ok .alreadyClean)
    else if dryRun then .done (.ok (.dryRun live.bootstrapHosts))
    else
      match w.withoutBootstrap.networkPolicy? settings.policy namespaceName with
      | none =>
        .done (.error (.audit ("failed to regenerate NetworkPolicy for " ++ w.name)))
      | some policy =>
        .apply policy fun
          | .error failure => .done (.error failure)
          | .ok () => .done (.ok (.applied live.bootstrapHosts policy))

end Workflow

end WorkflowPolicy
