import WorkflowPolicy.Proofs.Drift.Lock

/-!
# Workflows in one store

Policies are found by their names, and a name is that of a workflow and one of two endings. One
ending ends in the other, so the policy that triggers a workflow has the name of the policy for the
pods of another workflow, whose own name ends accordingly. `PolicyKind.sharesName_iff` says that
this is the only way in which two policies come to one name.

What is done to a store in the name of one workflow stays at one key. An audit is a session
`Session.Within` its key, and what such a session finds elsewhere does not matter. So in any history
a workflow is answered as if only those deeds had been done whose policies share its name
(`Deed.get?_runAll_filter`).
-/

namespace WorkflowPolicy

/-! ### Names -/

/-- **The two policies of a workflow**: one for its pods, and one for the pods that trigger it. -/
inductive PolicyKind where
  | pods
  | trigger
  deriving DecidableEq, Repr

namespace PolicyKind

/-- What follows the name of a workflow in the name of its policy. -/
def suffix : PolicyKind → String
  | .pods => Cluster.policySuffix
  | .trigger => Cluster.triggerPolicySuffix

/-- **Two policies of one name**: they are of one kind for workflows of one name, or a workflow is
named like the trigger of the other. -/
def SharesName (kind : PolicyKind) (name : String) (kind' : PolicyKind) (name' : String) : Prop :=
  (kind = kind' ∧ name = name') ∨
    (kind = .trigger ∧ kind' = .pods ∧ name' = name ++ "-trigger") ∨
    (kind = .pods ∧ kind' = .trigger ∧ name = name' ++ "-trigger")

instance (kind : PolicyKind) (name : String) (kind' : PolicyKind) (name' : String) :
    Decidable (kind.SharesName name kind' name') :=
  inferInstanceAs (Decidable (_ ∨ _))

/-- The longer ending ends in the shorter one. -/
theorem append_trigger_suffix (name : String) :
    name ++ suffix .trigger = name ++ "-trigger" ++ suffix .pods := by
  rw [String.append_assoc]
  rfl

/-- **Two policies have one name** only so. -/
theorem sharesName_iff {kind kind' : PolicyKind} {name name' : String} :
    kind.SharesName name kind' name' ↔ name ++ kind.suffix = name' ++ kind'.suffix := by
  -- Of different kinds, the longer ending is split, and the shorter one cancelled.
  cases kind <;> cases kind'
  case pods.pods => simp [SharesName]
  case trigger.trigger => simp [SharesName]
  case trigger.pods =>
    rw [append_trigger_suffix, String.append_left_inj, eq_comm]
    simp [SharesName]
  case pods.trigger =>
    rw [append_trigger_suffix, String.append_left_inj]
    simp [SharesName]

end PolicyKind

namespace Workflow

variable {w : Workflow}

/-- The policy of the kind, if the workflow has one. -/
def policyOf? (settings : PolicySettings) (kind : PolicyKind) (w : Workflow)
    (namespaceName : String) : Option NetworkPolicy :=
  match kind with
  | .pods => w.networkPolicy? settings namespaceName
  | .trigger => w.triggerPolicy? namespaceName

/-- The key of the policy of the kind. -/
def keyOf (kind : PolicyKind) (w : Workflow) (namespaceName : String) : PolicyKey :=
  ⟨namespaceName, w.name ++ kind.suffix⟩

/-- A policy is found under the key of its kind. -/
theorem key_of_policyOf {settings : PolicySettings} {kind : PolicyKind} {namespaceName : String}
    {policy : NetworkPolicy} (h : w.policyOf? settings kind namespaceName = some policy) :
    policy.key = w.keyOf kind namespaceName := by
  cases kind with
  | pods => exact key_of_networkPolicy h
  | trigger =>
    simp only [policyOf?, triggerPolicy?] at h
    split at h
    · obtain rfl := Option.some.inj h
      rfl
    · cases h

end Workflow

/-! ### Sessions at one key -/

namespace Session

variable {α : Type} {key : PolicyKey} {s s' : Store}

/-- **A session at one key**: whatever it is answered, it reads and writes under this key only. -/
inductive Within (key : PolicyKey) : Session α → Prop
  | done (result : Except Failure α) : Within key (.done result)
  | get {next : Except Failure (Option NetworkPolicy) → Session α}
      (hnext : ∀ answer, Within key (next answer)) : Within key (.get key next)
  | apply {policy : NetworkPolicy} {next : Except Failure Unit → Session α}
      (hkey : policy.key = key) (hnext : ∀ answer, Within key (next answer)) :
      Within key (.apply policy next)

/-- **It looks at nothing else**: stores with the same policy under the key are left with the same
policy there, and with the same result. -/
theorem Within.agree {session : Session α} (h : session.Within key)
    (hs : s.get? key = s'.get? key) :
    (session.run .memory s).1 = (session.run .memory s').1 ∧
      (session.run .memory s).2.get? key = (session.run .memory s').2.get? key := by
  induction h generalizing s s' with
  | done result => exact ⟨rfl, hs⟩
  | get hnext ih =>
    simp only [run, Keeper.memory_get, hs]
    exact ih _ hs
  | @apply policy next hkey hnext ih =>
    -- Both stores now hold the new policy under the key.
    refine ih _ ?_
    show (s.insert policy).get? key = (s'.insert policy).get? key
    rw [← hkey, Store.get?_insert_self, Store.get?_insert_self]

end Session

namespace Workflow

variable {settings : Settings} {asked : Option String} {w : Workflow}

/-- Whatever is done with the live policy of a workflow, looking for it is done at its key. -/
theorem withLive_within {α : Type} {action : String} {next : String → NetworkPolicy → Session α}
    (hnext : w.contract.isSome → ∀ live,
      (next (w.liveNamespace settings asked) live).Within (w.liveKey settings asked)) :
    (w.withLive settings asked action next).Within (w.liveKey settings asked) := by
  by_cases hcontract : w.contract.isSome
  · rw [withLive_eq hcontract]
    refine .get fun answer => ?_
    -- Without an answer, or without a policy, the session is over.
    rcases answer with failure | _ | live
    · exact .done _
    · exact .done _
    · exact hnext hcontract live
  · rw [withLive, if_pos (by simpa using hcontract)]
    exact .done _

theorem status_within : (w.status settings asked).Within (w.liveKey settings asked) :=
  withLive_within fun _ _ => .done _

/-- The policy that a lock puts in place has the key under which it has looked. -/
theorem lock_within {dryRun : Bool} :
    (w.lock settings asked dryRun).Within (w.liveKey settings asked) := by
  refine withLive_within fun hcontract live => ?_
  -- Of the four ends only the last puts a policy in place.
  split
  · exact .done _
  · split
    · exact .done _
    · split
      · exact .done _
      · next policy hpolicy =>
        refine .apply (key_networkPolicy hpolicy) fun answer => ?_
        cases answer <;> exact .done _

end Workflow

/-! ### Histories of a store -/

namespace AuditCall

/-- The workflow that is audited. -/
def workflow : AuditCall → Workflow
  | .status _ _ w | .lock _ _ _ w => w

/-- The namespace in which its policy is looked for. -/
def namespaceName : AuditCall → String
  | .status settings asked w | .lock settings asked _ w => w.liveNamespace settings asked

variable {call : AuditCall} {s s' : Store}

/-- An audit is answered by what is under its key. -/
theorem agree (hs : s.get? call.key = s'.get? call.key) :
    (call.run s).1 = (call.run s').1 ∧
      (call.run s).2.get? call.key = (call.run s').2.get? call.key := by
  cases call with
  | status settings asked w =>
    obtain ⟨hanswer, hstore⟩ := Workflow.status_within.agree hs
    exact ⟨congrArg AuditAnswer.status hanswer, hstore⟩
  | lock settings asked dryRun w =>
    obtain ⟨hanswer, hstore⟩ := Workflow.lock_within.agree hs
    exact ⟨congrArg AuditAnswer.lock hanswer, hstore⟩

end AuditCall

/-- **What is done to a store in the name of a workflow**: one of its policies is put in place, or
it is audited. -/
inductive Deed where
  | put (settings : PolicySettings) (kind : PolicyKind) (namespaceName : String) (w : Workflow)
  | audit (call : AuditCall)

namespace Deed

/-- The kind of policy that is put in place or audited. -/
def kind : Deed → PolicyKind
  | .put _ kind _ _ => kind
  | .audit _ => .pods

/-- The workflow in whose name it is done. -/
def workflow : Deed → Workflow
  | .put _ _ _ w => w
  | .audit call => call.workflow

/-- The namespace in which it is done. -/
def namespaceName : Deed → String
  | .put _ _ namespaceName _ => namespaceName
  | .audit call => call.namespaceName

/-- The key at which it is done. -/
def key (d : Deed) : PolicyKey := d.workflow.keyOf d.kind d.namespaceName

/-- The policy that may be put in place. -/
def Makes (policy : NetworkPolicy) : Deed → Prop
  | .put settings kind namespaceName w => w.policyOf? settings kind namespaceName = some policy
  | .audit call => call.Makes policy

/-- The answer, if it is an audit, and the store after it. -/
def run : Deed → Store → Option AuditAnswer × Store
  | .put settings kind namespaceName w, store =>
    match w.policyOf? settings kind namespaceName with
    | some policy => (none, store.apply policy)
    | none => (none, store)
  | .audit call, store =>
    let (answer, store) := call.run store
    (some answer, store)

/-- **A history**: the store after deeds of any workflows, one after another. -/
def runAll : List Deed → Store → Store
  | [], store => store
  | d :: deeds, store => runAll deeds (d.run store).2

/-- **Two deeds meet** if they are done in one namespace, to policies of one name. -/
def Meets (d d' : Deed) : Prop :=
  d.namespaceName = d'.namespaceName ∧
    d.kind.SharesName d.workflow.name d'.kind d'.workflow.name

instance (d d' : Deed) : Decidable (d.Meets d') := inferInstanceAs (Decidable (_ ∧ _))

variable {d d' : Deed} {s s' : Store}

/-- Deeds meet if they are done at one key. -/
theorem meets_iff : d.Meets d' ↔ d.key = d'.key := by
  rw [Meets, PolicyKind.sharesName_iff, key, key, Workflow.keyOf, Workflow.keyOf,
    PolicyKey.mk.injEq]

/-- The key of an audit is that of the policy for the pods. -/
theorem key_audit (call : AuditCall) : (Deed.audit call).key = call.key := by
  cases call <;> rfl

/-- What is put in place has the key. -/
theorem key_of_makes {policy : NetworkPolicy} (h : d.Makes policy) : policy.key = d.key := by
  cases d with
  | put settings kind namespaceName w => exact Workflow.key_of_policyOf h
  | audit call => rw [key_audit, AuditCall.key_of_makes h]

/-- One deed leaves the policies alone, or puts one in place that it has made. -/
theorem run_cases (d : Deed) (s : Store) :
    (d.run s).2 = s ∨ ∃ policy, d.Makes policy ∧ (d.run s).2 = s.apply policy := by
  cases d with
  | put settings kind namespaceName w =>
    rw [run]
    split
    · next policy hpolicy => exact .inr ⟨policy, hpolicy, rfl⟩
    · exact .inl rfl
  | audit call =>
    rcases call.run_cases s with ⟨-, hsame⟩ | ⟨-, policy, hmakes, hstore⟩
    · exact .inl hsame
    · exact .inr ⟨policy, hmakes, hstore⟩

/-- **A deed changes nothing but what is under its key.** -/
theorem frame {other : PolicyKey} (hother : other ≠ d.key) :
    (d.run s).2.get? other = s.get? other := by
  rcases d.run_cases s with hsame | ⟨policy, hmakes, hstore⟩
  · rw [hsame]
  · rw [hstore, Store.get?_apply]
    rw [← key_of_makes hmakes] at hother
    exact Store.get?_insert_of_ne hother

/-- **A deed is answered by what is under its key**, and leaves there what follows from it. -/
theorem agree (hs : s.get? d.key = s'.get? d.key) :
    (d.run s).1 = (d.run s').1 ∧ (d.run s).2.get? d.key = (d.run s').2.get? d.key := by
  cases d with
  | put settings kind namespaceName w =>
    simp only [run]
    split
    · next policy hpolicy =>
      have hkey : (Deed.put settings kind namespaceName w).key = policy.key :=
        (Workflow.key_of_policyOf hpolicy).symm
      rw [hkey, Store.get?_apply, Store.get?_apply, Store.get?_insert_self,
        Store.get?_insert_self]
      exact ⟨rfl, rfl⟩
    · exact ⟨rfl, hs⟩
  | audit call =>
    rw [key_audit] at hs ⊢
    obtain ⟨hanswer, hstore⟩ := AuditCall.agree hs
    exact ⟨congrArg some hanswer, hstore⟩

/-- **Of a history only what was done at a key matters there.** -/
theorem get?_runAll_filter (deeds : List Deed) {key : PolicyKey} (hs : s.get? key = s'.get? key) :
    (runAll deeds s).get? key = (runAll (deeds.filter fun d => d.key = key) s').get? key := by
  -- The two histories go on from stores that differ, but not at the key.
  induction deeds generalizing s s' with
  | nil => exact hs
  | cons d deeds ih =>
    by_cases hkey : d.key = key
    · rw [List.filter_cons_of_pos (by simpa using hkey)]
      subst hkey
      exact ih (agree hs).2
    · rw [List.filter_cons_of_neg (by simpa using hkey)]
      exact ih ((frame (Ne.symm hkey)).trans hs)

/-- A policy that is there after a deed was there before, or was made by it. -/
theorem of_get?_run {key : PolicyKey} {policy : NetworkPolicy}
    (h : (d.run s).2.get? key = some policy) :
    s.get? key = some policy ∨ d.key = key ∧ d.Makes policy := by
  by_cases hkey : key = d.key
  · rcases d.run_cases s with hsame | ⟨made, hmakes, hstore⟩
    · rw [hsame] at h
      exact .inl h
    · rw [hstore, hkey, ← key_of_makes hmakes, Store.get?_apply, Store.get?_insert_self] at h
      obtain rfl := Option.some.inj h
      exact .inr ⟨hkey.symm, hmakes⟩
  · -- Elsewhere nothing has changed.
    rw [frame hkey] at h
    exact .inl h

/-- **Whatever is in the store** after a history was there before, or was made in it. -/
theorem of_get?_runAll {deeds : List Deed} {key : PolicyKey} {policy : NetworkPolicy}
    (h : (runAll deeds s).get? key = some policy) :
    s.get? key = some policy ∨ ∃ d ∈ deeds, d.key = key ∧ d.Makes policy := by
  induction deeds generalizing s with
  | nil => exact .inl h
  -- On the deeds, from the store after the first of them.
  | cons d deeds ih =>
    rcases ih h with hmiddle | ⟨later, hlater, hdone⟩
    · rcases of_get?_run hmiddle with hfirst | hdone
      · exact .inl hfirst
      · exact .inr ⟨d, List.mem_cons_self, hdone⟩
    · exact .inr ⟨later, List.mem_cons_of_mem d hlater, hdone⟩

end Deed

/-- **Policies are kept apart by their names.** Two policies have one key only if they are in one
namespace and share their name. Whatever else is done in a store, a policy is replaced, and an audit
answered, only by what was made by a deed that meets it. -/
theorem policies_kept_apart :
    (∀ (settings settings' : PolicySettings) (kind kind' : PolicyKind)
        (namespaceName namespaceName' : String) (w w' : Workflow) (policy policy' : NetworkPolicy),
        w.policyOf? settings kind namespaceName = some policy →
        w'.policyOf? settings' kind' namespaceName' = some policy' →
        (policy.key = policy'.key ↔
          namespaceName = namespaceName' ∧ kind.SharesName w.name kind' w'.name)) ∧
    (∀ (d other : Deed) (store : Store), ¬ d.Meets other →
      (d.run store).2.get? other.key = store.get? other.key) ∧
    (∀ (deeds : List Deed) (d : Deed) (store : Store),
      (d.run (Deed.runAll deeds store)).1 =
        (d.run (Deed.runAll (deeds.filter fun other => other.Meets d) store)).1) ∧
    ∀ (deeds : List Deed) (d : Deed) (policy : NetworkPolicy),
      (Deed.runAll deeds {}).get? d.key = some policy →
      ∃ other ∈ deeds, other.Meets d ∧ other.Makes policy := by
  refine ⟨?_, ?_, ?_, ?_⟩
  · -- Equal keys are equal namespaces and equal names.
    intro settings settings' kind kind' namespaceName namespaceName' w w' policy policy' h h'
    rw [Workflow.key_of_policyOf h, Workflow.key_of_policyOf h', PolicyKind.sharesName_iff,
      Workflow.keyOf, Workflow.keyOf, PolicyKey.mk.injEq]
  · -- A deed stays at its key.
    intro d other store hapart
    rw [Deed.meets_iff] at hapart
    exact Deed.frame (Ne.symm hapart)
  · -- At the key of a deed only the deeds at that key matter.
    intro deeds d store
    simp only [Deed.meets_iff]
    exact (Deed.agree (Deed.get?_runAll_filter deeds rfl)).1
  · -- The store was empty, so what is found has been made.
    intro deeds d policy hfound
    rcases Deed.of_get?_runAll hfound with hnone | ⟨other, hmem, hkey, hmakes⟩
    · cases hnone
    · exact ⟨other, hmem, Deed.meets_iff.mpr hkey, hmakes⟩

/-- A draft that runs on a schedule. -/
def reportText : String :=
"name: report
version: '1.0'
triggers:
- type: cron
  schedule: '0 6 * * *'
nodes:
  fetch:
    path: fetch.ts
"

/-- A draft with the name of its trigger. -/
def reportTriggerText : String :=
"name: report-trigger
version: '1.0'
triggers:
- type: manual
nodes:
  fetch:
    path: fetch.ts
contract:
  version: '1'
  dependencies:
    source:
      protocol: https
      host: api.example.com
"

/-- It has a policy for its pods, which speaks of both directions. -/
theorem exists_reportTrigger : ∃ w, Workflow.parse reportTriggerText = .ok w ∧
    w.name = "report-trigger" ∧ w.contract.isSome ∧ w.liveNamespace {} none = "default" ∧
      ∃ pods, w.networkPolicy? {} "default" = some pods ∧
        pods.spec.directions = [.ingress, .egress] := by
  obtain ⟨w, hparse, hname, hcontract, hnamespace, hpods⟩ : ∃ w,
      Workflow.parse reportTriggerText = .ok w ∧ w.name = "report-trigger" ∧
        w.contract.isSome ∧ w.liveNamespace {} none = "default" ∧
        (w.networkPolicy? {} "default").map (·.spec.directions) = some [.ingress, .egress] :=
    Workflow.exists_parse (by decide +kernel)
  exact ⟨w, hparse, hname, hcontract, hnamespace, Option.map_eq_some_iff.mp hpods⟩

/-- A lock of one workflow puts a policy in place, in a store that also has the policy of another
workflow. That policy stays, and a report on it is answered as if there had been no lock. -/
theorem release_lock_kept_apart : ∃ release other,
    Workflow.parse (Workflow.releaseText "api.example.com") = .ok release ∧
    Workflow.parse reportTriggerText = .ok other ∧
    ∃ made pods, other.networkPolicy? {} "default" = some pods ∧ made.key ≠ pods.key ∧
      (∃ store, (Deed.audit (.lock {} none false release)).run (Workflow.releaseStore.apply pods) =
          (some (.lock (.ok (.applied ["jsr.io:443"] made))), store) ∧
        store.get? pods.key = some pods) ∧
      ((Deed.audit (.status {} none other)).run (Deed.runAll
          [.audit (.lock {} none false release)] (Workflow.releaseStore.apply pods))).1 =
        ((Deed.audit (.status {} none other)).run (Workflow.releaseStore.apply pods)).1 := by
  obtain ⟨release, hrelease, hcontract, hname, hnamespace, hlive, -⟩ := Workflow.exists_release
  obtain ⟨other, hother, hotherName, -, hotherNamespace, pods, hpods, -⟩ := exists_reportTrigger
  obtain ⟨hkeys, hframe, hanswers, -⟩ := policies_kept_apart
  -- Neither name ends like the trigger of the other, so the two audits do not meet.
  have hnames : ¬ PolicyKind.pods.SharesName release.name .pods other.name := by
    rw [hname, hotherName]
    decide
  have hmeets : ¬ (Deed.audit (.lock {} none false release)).Meets
      (.audit (.status {} none other)) := fun hmeets => hnames hmeets.2
  have hplace : (Deed.audit (.status {} none other)).key = pods.key := by
    rw [Deed.key_audit, AuditCall.key, Workflow.liveKey, hotherNamespace,
      Workflow.key_of_networkPolicy hpods]
  -- The lock finds its own policy, since that of the other workflow is under another key.
  have hfound : (Workflow.releaseStore.apply pods).get? (release.liveKey {} none) =
      some Workflow.releasePolicy := by
    rw [Deed.meets_iff, hplace, Deed.key_audit, AuditCall.key] at hmeets
    rw [Store.get?_apply, Store.get?_insert_of_ne hmeets, hlive]
  obtain ⟨made, hmade, hlock⟩ := Workflow.run_lock_of_stale hcontract hfound
    Workflow.bootstrapHosts_releasePolicy_ne_nil
  rw [Workflow.bootstrapHosts_releasePolicy] at hlock
  rw [hnamespace] at hmade
  have hkey : made.key ≠ pods.key := fun heq =>
    hnames ((hkeys _ _ .pods .pods _ _ _ _ made pods hmade hpods).mp heq).2
  -- What stays at the other key, and the answer that does not depend on the lock.
  have hstays := hframe _ _ (Workflow.releaseStore.apply pods) hmeets
  rw [hplace, Store.get?_apply, Store.get?_insert_self] at hstays
  have hsame := hanswers [.audit (.lock {} none false release)] (.audit (.status {} none other))
    (Workflow.releaseStore.apply pods)
  rw [List.filter_cons_of_neg (by simpa using hmeets)] at hsame
  refine ⟨release, other, hrelease, hother, made, pods, hpods, hkey, ⟨_, ?_, hstays⟩, hsame⟩
  simp only [Deed.run, AuditCall.run, hlock]

/-- **Two workflows of different names with one key.** The policy that triggers the one takes the
place of the policy for the pods of the other, and a report on the other is answered from it. -/
theorem report_replaces_report_trigger : ∃ report other, Workflow.parse reportText = .ok report ∧
    Workflow.parse reportTriggerText = .ok other ∧ report.name ≠ other.name ∧
    ∃ trigger pods, report.triggerPolicy? "default" = some trigger ∧
      other.networkPolicy? {} "default" = some pods ∧ trigger.key = pods.key ∧ trigger ≠ pods ∧
      ((({} : Store).apply pods).apply trigger).get? (other.liveKey {} none) = some trigger ∧
      ((other.status {} none).run .memory ((({} : Store).apply pods).apply trigger)).1 =
        .ok (.compare other.name "default" trigger.metadata.name other.contractHosts
          trigger.liveHosts) := by
  obtain ⟨report, hreport, hreportName, htriggers⟩ : ∃ report,
      Workflow.parse reportText = .ok report ∧ report.name = "report" ∧
        (report.triggerPolicy? "default").map (·.spec.directions) = some [.egress] :=
    Workflow.exists_parse (by decide +kernel)
  obtain ⟨other, hother, hotherName, hcontract, hnamespace, pods, hpods, hboth⟩ :=
    exists_reportTrigger
  obtain ⟨trigger, htrigger, hout⟩ := Option.map_eq_some_iff.mp htriggers
  -- Both keys are the namespace and the name of the second workflow with the shorter ending.
  have hkey : trigger.key = other.liveKey {} none := by
    have hkind : report.policyOf? {} .trigger "default" = some trigger := htrigger
    rw [Workflow.key_of_policyOf hkind, Workflow.liveKey, Workflow.keyOf, hreportName, hnamespace,
      Workflow.policyKey, Workflow.policyName, hotherName]
    rfl
  have hsame : trigger.key = pods.key := by
    rw [hkey, Workflow.liveKey, hnamespace, Workflow.key_of_networkPolicy hpods]
  have hfound : ((({} : Store).apply pods).apply trigger).get? (other.liveKey {} none) =
      some trigger := by
    rw [← hkey, Store.get?_apply, Store.get?_insert_self]
  refine ⟨report, other, hreport, hother, by rw [hreportName, hotherName]; decide, trigger, pods,
    htrigger, hpods, hsame, fun heq => ?_, hfound, ?_⟩
  · -- The trigger says nothing of ingress, and the pods do.
    rw [heq, hboth] at hout
    cases hout
  · rw [(Workflow.status_ends hcontract (by rw [Keeper.memory_get, hfound])).run, hnamespace]

end WorkflowPolicy
