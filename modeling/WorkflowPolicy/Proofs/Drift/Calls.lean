import WorkflowPolicy.Proofs.Draft.Accepted
import WorkflowPolicy.Proofs.Drift.Exits

/-!
# Audits and the store

What a single audit may do to a store, and what many of them do to the store in memory.

* `Workflow.Audited` — for every keeper: an audit reads one policy, and at most it writes one, after
  the read and under the key that it has read. Each of its exits hands on what the store has said.
* `AuditCall` and `AuditCall.runAll` — audits of any workflows, one after another. One call leaves
  the store as it is, or puts one policy in place under its own key (`AuditCall.run_cases`), so
  after many calls the store counts the policies that were put in place, and has under every other
  key what it had before.
-/

namespace WorkflowPolicy

namespace Workflow

variable {σ : Type} {keeper : Keeper σ} {settings : Settings} {asked : Option String}
  {w : Workflow} {s s' : σ}

/-! ### One audit with any store -/

/-- What a lock would fail with if no policy could be made. -/
def notRegenerated (w : Workflow) : Failure :=
  .audit ("failed to regenerate NetworkPolicy for " ++ w.name)

/-- The failures of a lock have different texts. -/
theorem noPolicy_ne_notRegenerated (key : PolicyKey) : noPolicy key ≠ w.notRegenerated := by
  intro h
  have htext : "NetworkPolicy " ++ key.namespaceName ++ "/" ++ key.name ++ " not found" =
      "failed to regenerate NetworkPolicy for " ++ w.name := Failure.audit.inj h
  -- Already the first letters differ.
  have hhead : some 'N' = some 'f' := by
    simpa using congrArg (fun text => text.toList.head?) htext
  cases hhead

/-- **What audits do with a store**, whatever it answers. The key is the same in all of them, and a
policy that is written has it. -/
structure Audited (keeper : Keeper σ) (settings : Settings) (asked : Option String) (w : Workflow)
    (s : σ) : Prop where
  /-- Without a contract the store is not asked. -/
  noContract : w.contract = none →
    (w.status settings asked).Ends keeper s [] (.error (w.noContract "check")) s ∧
      ∀ dryRun, (w.lock settings asked dryRun).Ends keeper s [] (.error (w.noContract "lock")) s
  /-- A failed read is handed on. -/
  unreadable : ∀ failure s', w.contract.isSome →
    keeper.get (w.liveKey settings asked) s = (.error failure, s') →
    (w.status settings asked).Ends keeper s [.get (w.liveKey settings asked)] (.error failure) s' ∧
      ∀ dryRun, (w.lock settings asked dryRun).Ends keeper s [.get (w.liveKey settings asked)]
        (.error failure) s'
  /-- A policy that is not there cannot be audited. -/
  missing : ∀ s', w.contract.isSome →
    keeper.get (w.liveKey settings asked) s = (.ok none, s') →
    (w.status settings asked).Ends keeper s [.get (w.liveKey settings asked)]
        (.error (noPolicy (w.liveKey settings asked))) s' ∧
      ∀ dryRun, (w.lock settings asked dryRun).Ends keeper s [.get (w.liveKey settings asked)]
        (.error (noPolicy (w.liveKey settings asked))) s'
  /-- A report only reads. -/
  reported : ∀ live s', w.contract.isSome →
    keeper.get (w.liveKey settings asked) s = (.ok (some live), s') →
    (w.status settings asked).Ends keeper s [.get (w.liveKey settings asked)]
      (.ok (.compare w.name (w.liveNamespace settings asked) live.metadata.name w.contractHosts
        live.liveHosts)) s'
  /-- So does a lock that finds no registry. -/
  clean : ∀ live s', w.contract.isSome →
    keeper.get (w.liveKey settings asked) s = (.ok (some live), s') →
    live.liveHosts.filter isBootstrapHost = [] →
    ∀ dryRun, (w.lock settings asked dryRun).Ends keeper s [.get (w.liveKey settings asked)]
      (.ok .alreadyClean) s'
  /-- So does a dry run, which names the registries on record. -/
  dryRun : ∀ live s', w.contract.isSome →
    keeper.get (w.liveKey settings asked) s = (.ok (some live), s') →
    live.liveHosts.filter isBootstrapHost ≠ [] →
    (w.lock settings asked true).Ends keeper s [.get (w.liveKey settings asked)]
      (.ok (.dryRun (live.liveHosts.filter isBootstrapHost))) s'
  /-- What is left writes once, under the key that was read, and hands on the answer. -/
  replaced : ∀ live s', w.contract.isSome →
    keeper.get (w.liveKey settings asked) s = (.ok (some live), s') →
    live.liveHosts.filter isBootstrapHost ≠ [] →
    ∃ policy, policy.key = w.liveKey settings asked ∧
      ∀ answer s'', keeper.apply policy s' = (answer, s'') →
        (w.lock settings asked false).Ends keeper s
          [.get (w.liveKey settings asked), .apply policy]
          (answer.map fun _ => .applied (live.liveHosts.filter isBootstrapHost) policy) s''
  /-- A lock never fails for want of a policy: only the store itself can have said so. -/
  regenerated : ∀ dryRun s', (w.lock settings asked dryRun).run keeper s =
      (.error w.notRegenerated, s') →
    (keeper.get (w.liveKey settings asked) s).1 = .error w.notRegenerated ∨
      ∃ policy s₁, keeper.apply policy s₁ = (.error w.notRegenerated, s')

/-- The failure of a lock that no store has said is one of two. -/
theorem of_lock_error {dryRun : Bool} {failure : Failure}
    (h : (w.lock settings asked dryRun).run keeper s = (.error failure, s')) :
    failure = w.noContract "lock" ∨ failure = noPolicy (w.liveKey settings asked) ∨
      (keeper.get (w.liveKey settings asked) s).1 = .error failure ∨
        ∃ policy s₁, keeper.apply policy s₁ = (.error failure, s') := by
  obtain ⟨said, hexit⟩ := lockExit_of_run h
  -- The store has said it, or the lock has ended before it could.
  cases hexit with
  | noContract hcontract => exact .inl rfl
  | missing hcontract hget => exact .inr (.inl rfl)
  | unreadable hcontract hget =>
    refine .inr (.inr (.inl ?_))
    rw [hget]
  | refused hcontract hget hstale hpolicy happly =>
    exact .inr (.inr (.inr ⟨_, _, happly⟩))

theorem audited (keeper : Keeper σ) (settings : Settings) (asked : Option String) (w : Workflow)
    (s : σ) : w.Audited keeper settings asked s where
  noContract hcontract :=
    ⟨withLive_noContract hcontract, fun _ => withLive_noContract hcontract⟩
  unreadable _ _ hcontract hget :=
    ⟨withLive_unreadable hcontract hget, fun _ => withLive_unreadable hcontract hget⟩
  missing _ hcontract hget :=
    ⟨withLive_missing hcontract hget, fun _ => withLive_missing hcontract hget⟩
  reported _ _ hcontract hget := status_ends hcontract hget
  clean _ _ hcontract hget hclean dryRun := lock_clean hcontract hget hclean dryRun
  dryRun _ _ hcontract hget hstale := lock_dryRun hcontract hget hstale
  replaced live s' hcontract hget hstale := by
    -- A policy can be made, since there is a contract.
    obtain ⟨policy, hpolicy⟩ := exists_networkPolicy hcontract settings.policy
      (w.liveNamespace settings asked)
    refine ⟨policy, key_networkPolicy hpolicy, fun answer s'' happly => ?_⟩
    exact lock_stale hcontract hget hstale hpolicy happly
  regenerated dryRun s' h := by
    rcases of_lock_error h with hnone | hmissing | hstore
    · cases hnone
    · -- Both failures have texts of their own, so they are not confused.
      exact absurd hmissing.symm (noPolicy_ne_notRegenerated _)
    · exact hstore

end Workflow

/-! ### Many audits with the store in memory -/

/-- **An audit of a workflow.** -/
inductive AuditCall where
  | status (settings : Settings) (asked : Option String) (w : Workflow)
  | lock (settings : Settings) (asked : Option String) (dryRun : Bool) (w : Workflow)

/-- What an audit answers. -/
inductive AuditAnswer where
  | status (report : Except Failure DriftReport)
  | lock (outcome : Except Failure LockOutcome)

/-- Has a policy been put in place? -/
def AuditAnswer.isApplied : AuditAnswer → Bool
  | .lock (.ok (.applied _ _)) => true
  | _ => false

namespace AuditCall

/-- The key under which an audit looks. -/
def key : AuditCall → PolicyKey
  | .status settings asked w | .lock settings asked _ w => w.liveKey settings asked

/-- The answer of an audit, and the store after it. -/
def run : AuditCall → Store → AuditAnswer × Store
  | .status settings asked w, store =>
    let (report, store) := (w.status settings asked).run .memory store
    (.status report, store)
  | .lock settings asked dryRun w, store =>
    let (outcome, store) := (w.lock settings asked dryRun).run .memory store
    (.lock outcome, store)

/-- **Audits one after another**: each with its answer, and the store after the last one. -/
def runAll : List AuditCall → Store → List (AuditCall × AuditAnswer) × Store
  | [], store => ([], store)
  | call :: calls, store =>
    let (answer, store) := call.run store
    let (answers, store) := runAll calls store
    ((call, answer) :: answers, store)

/-- The policy that an audit may put in place. -/
def Makes (policy : NetworkPolicy) : AuditCall → Prop
  | .status _ _ _ => False
  | .lock settings asked _ w => w.withoutBootstrap.networkPolicy? settings.policy
      (w.liveNamespace settings asked) = some policy

/-- **What one audit does**: it leaves the store alone, or puts one policy in place, which is made
from the workflow without its dependencies on registries. -/
theorem run_cases (call : AuditCall) (store : Store) :
    ((call.run store).1.isApplied = false ∧ (call.run store).2 = store) ∨
      ((call.run store).1.isApplied = true ∧ ∃ policy, call.Makes policy ∧
        (call.run store).2 = store.apply policy) := by
  cases call with
  | status settings asked w =>
    obtain ⟨report, store', hrun, hread⟩ := w.status_reads .memory settings asked store
    -- A read of the store in memory does not change it.
    have hstore : store' = store := by
      rcases hread with rfl | ⟨answer, hget⟩
      · rfl
      · exact (Prod.mk.inj hget).2.symm
    rw [run, hrun, hstore]
    exact .inl ⟨rfl, rfl⟩
  | lock settings asked dryRun w =>
    rcases hrun : (w.lock settings asked dryRun).run .memory store with ⟨outcome, store'⟩
    obtain ⟨said, hexit⟩ := Workflow.lockExit_of_run hrun
    rw [run, hrun]
    -- The store in memory is changed by no read, and refuses no write.
    cases hexit with
    | noContract hcontract => exact .inl ⟨rfl, rfl⟩
    | unreadable hcontract hget => cases hget
    | missing hcontract hget => exact .inl ⟨rfl, (Prod.mk.inj hget).2.symm⟩
    | clean hcontract hget hclean => exact .inl ⟨rfl, (Prod.mk.inj hget).2.symm⟩
    | dryRun hcontract hget hstale => exact .inl ⟨rfl, (Prod.mk.inj hget).2.symm⟩
    | refused hcontract hget hstale hpolicy happly => cases happly
    | applied hcontract hget hstale hpolicy happly =>
      obtain ⟨-, rfl⟩ := Prod.mk.inj hget
      exact .inr ⟨rfl, _, hpolicy, (Prod.mk.inj happly).2.symm⟩

/-- The policy of an audit has its key. -/
theorem key_of_makes {call : AuditCall} {policy : NetworkPolicy} (h : call.Makes policy) :
    policy.key = call.key := by
  cases call with
  | status settings asked w => exact h.elim
  | lock settings asked dryRun w => exact Workflow.key_networkPolicy h

/-- The answers that have put a policy in place. -/
def appliedCalls (answers : List (AuditCall × AuditAnswer)) : List AuditCall :=
  (answers.filter (·.2.isApplied)).map (·.1)

theorem appliedCalls_cons (call : AuditCall) (answer : AuditAnswer)
    (answers : List (AuditCall × AuditAnswer)) : appliedCalls ((call, answer) :: answers) =
      if answer.isApplied then call :: appliedCalls answers else appliedCalls answers := by
  cases h : answer.isApplied <;> simp [appliedCalls, h]

/-- **Many audits**: the store counts those that have put a policy in place, and keeps what it has
under the keys of all others. -/
theorem runAll_frame (calls : List AuditCall) (store : Store) :
    (runAll calls store).2.applies =
        store.applies + (appliedCalls (runAll calls store).1).length ∧
      ∀ other, (∀ call ∈ appliedCalls (runAll calls store).1, call.key ≠ other) →
        (runAll calls store).2.get? other = store.get? other := by
  -- What is said of the later calls is said of the store that the first one leaves.
  induction calls generalizing store with
  | nil => exact ⟨rfl, fun _ _ => rfl⟩
  | cons call calls ih =>
    have hcases := run_cases call store
    rcases hcall : call.run store with ⟨answer, middle⟩
    obtain ⟨hcount, hothers⟩ := ih middle
    rw [hcall] at hcases
    simp only [runAll, hcall]
    -- Either the call has changed nothing, and the later calls begin with the same store, or it has
    -- put its policy there.
    rcases hcases with ⟨hread, rfl⟩ | ⟨happlied, policy, hmakes, rfl⟩
    · rw [appliedCalls_cons, hread]
      exact ⟨hcount, hothers⟩
    · rw [appliedCalls_cons, happlied, if_pos rfl]
      refine ⟨?_, fun other hother => ?_⟩
      · rw [hcount, Store.applies_apply, List.length_cons]
        omega
      · -- The policy that this call has put in place has the key of the call.
        have hne : other ≠ policy.key := by
          rw [key_of_makes hmakes]
          exact (hother call List.mem_cons_self).symm
        calc (runAll calls (store.apply policy)).2.get? other
            = (store.apply policy).get? other :=
              hothers other fun later hlater => hother later (List.mem_cons_of_mem _ hlater)
          _ = store.get? other := Store.get?_insert_of_ne hne

end AuditCall

/-- **An audit is one read and at most one write under the same key**, whatever the store answers,
and after any audits of any workflows the store in memory is changed by what they report. -/
theorem audits_touch_one_key :
    (∀ (σ : Type) (keeper : Keeper σ) (settings : Settings) (asked : Option String) (w : Workflow)
        (s : σ), w.Audited keeper settings asked s) ∧
      ∀ (calls : List AuditCall) (store : Store),
        (AuditCall.runAll calls store).2.applies = store.applies +
            (AuditCall.appliedCalls (AuditCall.runAll calls store).1).length ∧
          ∀ other, (∀ call ∈ AuditCall.appliedCalls (AuditCall.runAll calls store).1,
              call.key ≠ other) →
            (AuditCall.runAll calls store).2.get? other = store.get? other :=
  ⟨fun _ keeper settings asked w s => w.audited keeper settings asked s, AuditCall.runAll_frame⟩

namespace Workflow

/-- A draft with a dependency on the given host and one on a registry. -/
def releaseText (host : String) : String :=
"name: release
version: '1.0'
triggers:
- type: manual
nodes:
  fetch:
    path: fetch.ts
contract:
  version: '1'
  dependencies:
    source:
      protocol: https
      host: " ++ host ++ "
    registry:
      protocol: https
      host: jsr.io
"

/-- A policy for it that still opens the registry. -/
def releasePolicy : NetworkPolicy :=
  (NetworkPolicy.named "release-netpol" "default").recordHosts "jsr.io:443"

/-- The store with that policy. -/
def releaseStore : Store := ({} : Store).insert releasePolicy

theorem bootstrapHosts_releasePolicy : releasePolicy.bootstrapHosts = ["jsr.io:443"] := by
  decide +kernel

theorem bootstrapHosts_releasePolicy_ne_nil : releasePolicy.bootstrapHosts ≠ [] := by
  rw [bootstrapHosts_releasePolicy]
  exact List.cons_ne_nil _ _

/-- The policy is live for the draft with a plain host, and the lock will leave that host. -/
theorem exists_release : ∃ w, Workflow.parse (releaseText "api.example.com") = .ok w ∧
    w.contract.isSome ∧ w.name = "release" ∧ w.liveNamespace {} none = "default" ∧
      releaseStore.get? (w.liveKey {} none) = some releasePolicy ∧
      w.withoutBootstrap.contractHosts.flatMap hostsOfRecord = ["api.example.com:443"] :=
  exists_parse (by decide +kernel)

/-- A lock that finds a registry on record reads the policy and writes another one in its place. A
report before it does not count, and nothing else in the store is changed. -/
theorem release_lock_touches_one_key :
    ∃ w, Workflow.parse (releaseText "api.example.com") = .ok w ∧
      ∃ policy, policy.key = w.liveKey {} none ∧
        (w.lock {} none false).Ends .memory releaseStore
          [.get (w.liveKey {} none), .apply policy] (.ok (.applied ["jsr.io:443"] policy))
          (releaseStore.apply policy) ∧
        ∃ answers store,
          AuditCall.runAll [.status {} none w, .lock {} none false w] releaseStore =
              (answers, store) ∧
            AuditCall.appliedCalls answers = [.lock {} none false w] ∧ store.applies = 1 ∧
            ∀ other, w.liveKey {} none ≠ other → store.get? other = releaseStore.get? other := by
  have hregistry : releasePolicy.liveHosts.filter isBootstrapHost = ["jsr.io:443"] :=
    bootstrapHosts_releasePolicy
  obtain ⟨w, hparse, hcontract, -, -, hlive, -⟩ := exists_release
  have hget : Keeper.memory.get (w.liveKey {} none) releaseStore =
      (.ok (some releasePolicy), releaseStore) := by
    rw [Keeper.memory_get, hlive]
  obtain ⟨haudit, hframe⟩ := audits_touch_one_key
  have hw := haudit Store .memory {} none w releaseStore
  -- The registry makes the policy stale, so the lock replaces it, and the store in memory accepts
  -- that.
  obtain ⟨policy, hkey, hlock⟩ := hw.replaced releasePolicy releaseStore hcontract hget
    bootstrapHosts_releasePolicy_ne_nil
  have hends := hlock (.ok ()) (releaseStore.apply policy) rfl
  rw [hregistry] at hends
  have hreport := hw.reported releasePolicy releaseStore hcontract hget
  have hrun : ∃ report outcome,
      AuditCall.runAll [.status {} none w, .lock {} none false w] releaseStore =
        ([(.status {} none w, .status (.ok report)),
          (.lock {} none false w, .lock (.ok (.applied outcome policy)))],
          releaseStore.apply policy) := by
    simp only [AuditCall.runAll, AuditCall.run, hreport.run, hends.run]
    exact ⟨_, _, rfl⟩
  obtain ⟨report, outcome, hrun⟩ := hrun
  obtain ⟨hcount, hothers⟩ := hframe [.status {} none w, .lock {} none false w] releaseStore
  rw [hrun] at hcount hothers
  -- One of the two calls has put a policy in place.
  refine ⟨w, hparse, policy, hkey, hends, _, _, hrun, rfl, hcount, fun other hother => ?_⟩
  exact hothers other (List.forall_mem_singleton.mpr hother)

end Workflow

end WorkflowPolicy
