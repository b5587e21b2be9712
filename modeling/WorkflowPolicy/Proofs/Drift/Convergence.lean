import WorkflowPolicy.Proofs.Drift.Interleaving
import WorkflowPolicy.Proofs.Drift.Lock

/-!
# Audits of one workflow converge

Any number of locks and reports of one workflow, at the same time and with the same arguments. A
lock decides on what it has read, and writes in a later request, so others may have written in
between. That does no harm, since all of them write the same policy: the one that is made without
registries.

The invariant has a part for the store and a part for every audit, which relates where the audit
stands to what the store has now:

* `Converging.here` — under the key of the workflow is what was there at first, or the policy;
* `Underway` — an audit has asked nothing yet, or is about to put the policy in place, or is at its
  end; and if a lock that was to write is at its end, then either there was nothing to remove at
  first or the store has the policy.

`Underway.step` is what a request of one audit keeps, and `converging_of_run` what an interleaving
keeps. `audits_converge` reads the outcome off.
-/

namespace WorkflowPolicy

namespace Workflow

variable {settings : Settings} {asked : Option String} {w : Workflow} {made : NetworkPolicy}

/-- A list with one member somewhere in it. -/
theorem forall_mem_insert_iff {α : Type} {p : α → Prop} {before after : List α} {a : α} :
    (∀ x ∈ before ++ a :: after, p x) ↔ p a ∧ ∀ x ∈ before ++ after, p x := by
  simp only [List.mem_append, List.mem_cons]
  grind

/-! ### Where an audit stands -/

/-- A lock that is about to put a policy in place. -/
def replacing (removed : List String) (policy : NetworkPolicy) : Session LockOutcome :=
  .apply policy fun
    | .error failure => .done (.error failure)
    | .ok () => .done (.ok (.applied removed policy))

/-- There is a policy with a registry on record. -/
def IsStale (found : Option NetworkPolicy) : Prop :=
  ∃ live, found = some live ∧ live.bootstrapHosts ≠ []

/-- **How a lock goes on** after it has read what the store has under its key. -/
inductive LockTurn (settings : Settings) (asked : Option String) (w : Workflow)
    (made : NetworkPolicy) : Bool → Option NetworkPolicy → Session LockOutcome → Prop
  | missing (dryRun : Bool) : LockTurn settings asked w made dryRun none
      (.done (.error (noPolicy (w.liveKey settings asked))))
  | clean (dryRun : Bool) (live : NetworkPolicy) (hclean : live.bootstrapHosts = []) :
      LockTurn settings asked w made dryRun (some live) (.done (.ok .alreadyClean))
  | dryRun (live : NetworkPolicy) (hstale : live.bootstrapHosts ≠ []) :
      LockTurn settings asked w made true (some live) (.done (.ok (.dryRun live.bootstrapHosts)))
  | stale (live : NetworkPolicy) (hstale : live.bootstrapHosts ≠ []) :
      LockTurn settings asked w made false (some live) (replacing live.bootstrapHosts made)

variable {store store' : Store} {request : Request}

/-- The first request of a lock reads, and the lock goes on by what it has found. -/
theorem lockTurn_of_step {dryRun : Bool} {rest : Session LockOutcome}
    (hcontract : w.contract.isSome)
    (hmade : w.withoutBootstrap.networkPolicy? settings.policy (w.liveNamespace settings asked) =
      some made)
    (h : (w.lock settings asked dryRun).Step .memory store request rest store') :
    request = .get (w.liveKey settings asked) ∧ store' = store ∧
      LockTurn settings asked w made dryRun (store.get? (w.liveKey settings asked)) rest := by
  rw [lock, withLive_eq hcontract] at h
  cases h
  refine ⟨rfl, rfl, ?_⟩
  rw [Keeper.memory_get]
  cases store.get? (w.liveKey settings asked) with
  | none => exact .missing dryRun
  | some live =>
    by_cases hstale : live.bootstrapHosts = []
    · simp only [hstale, List.isEmpty_nil, if_true]
      exact .clean dryRun live hstale
    · have hnonempty : live.bootstrapHosts.isEmpty = false := by
        rw [List.isEmpty_eq_false_iff]
        exact hstale
      cases dryRun with
      | true =>
        simp only [hnonempty, Bool.false_eq_true, if_false, if_true]
        exact .dryRun live hstale
      | false =>
        simp only [hnonempty, Bool.false_eq_true, if_false, hmade]
        exact .stale live hstale

/-- A lock that finds a registry on record goes on to put the policy in place. -/
theorem step_of_stale {live : NetworkPolicy} (hcontract : w.contract.isSome)
    (hmade : w.withoutBootstrap.networkPolicy? settings.policy (w.liveNamespace settings asked) =
      some made)
    (hlive : store.get? (w.liveKey settings asked) = some live)
    (hstale : live.bootstrapHosts ≠ []) :
    (w.lock settings asked false).Step .memory store (.get (w.liveKey settings asked))
      (replacing live.bootstrapHosts made) store := by
  obtain ⟨rest, hstep⟩ : ∃ rest, (w.lock settings asked false).Step .memory store
      (.get (w.liveKey settings asked)) rest store := by
    rw [lock, withLive_eq hcontract]
    exact ⟨_, .get _ _ store⟩
  -- Of the ways in which a lock goes on only one is left.
  have hturn := (lockTurn_of_step hcontract hmade hstep).2.2
  rw [hlive] at hturn
  cases hturn with
  | clean _ _ hclean => exact absurd hclean hstale
  | stale _ _ => exact hstep

/-- The first request of a report reads, and the report is at its end. -/
theorem done_of_status_step {rest : Session DriftReport} (hcontract : w.contract.isSome)
    (h : (w.status settings asked).Step .memory store request rest store') :
    request = .get (w.liveKey settings asked) ∧ store' = store ∧
      ∃ report, rest = .done report := by
  rw [status, withLive_eq hcontract] at h
  cases h
  refine ⟨rfl, rfl, ?_⟩
  rw [Keeper.memory_get]
  cases store.get? (w.liveKey settings asked) with
  | none => exact ⟨_, rfl⟩
  | some live => exact ⟨_, rfl⟩

/-- The last request of a lock puts its policy in place. -/
theorem done_of_replacing_step {removed : List String} {rest : Session LockOutcome}
    (h : (replacing removed made).Step .memory store request rest store') :
    request = .apply made ∧ store' = store.apply made ∧
      rest = .done (.ok (.applied removed made)) := by
  cases h
  exact ⟨rfl, rfl, rfl⟩

/-- A report puts nothing in place. -/
theorem hasApplied_status (rest : Session DriftReport) :
    (Running.status rest).hasApplied = false := by
  cases rest <;> rfl

/-- Neither does a lock that has asked nothing yet. -/
theorem hasApplied_lock {dryRun : Bool} (hcontract : w.contract.isSome) :
    (Running.lock dryRun (w.lock settings asked dryRun)).hasApplied = false := by
  rw [lock, withLive_eq hcontract]
  rfl

/-- **Where an audit stands**, by what the store had at first under the key and what it has now. -/
inductive Underway (settings : Settings) (asked : Option String) (w : Workflow)
    (made : NetworkPolicy) (first now : Option NetworkPolicy) : Running → Prop
  | status : Underway settings asked w made first now (.status (w.status settings asked))
  | reported (report : Except Failure DriftReport) :
      Underway settings asked w made first now (.status (.done report))
  | lock (dryRun : Bool) :
      Underway settings asked w made first now (.lock dryRun (w.lock settings asked dryRun))
  | replacing (removed : List String) :
      Underway settings asked w made first now (.lock false (replacing removed made))
  | refrained (dryRun : Bool) (outcome : Except Failure LockOutcome)
      (hnone : (AuditAnswer.lock outcome).isApplied = false)
      (hseen : dryRun = false → IsStale first → now = some made) :
      Underway settings asked w made first now (.lock dryRun (.done outcome))
  | replaced (removed : List String) (hnow : now = some made) :
      Underway settings asked w made first now (.lock false (.done (.ok (.applied removed made))))

variable {first now : Option NetworkPolicy} {r r' : Running}

/-- An audit stands where it does also after others have put the policy in place. -/
theorem Underway.mono (h : Underway settings asked w made first now r) :
    Underway settings asked w made first (some made) r := by
  cases h with
  | status => exact .status
  | reported report => exact .reported report
  | lock dryRun => exact .lock dryRun
  | replacing removed => exact .replacing removed
  | refrained dryRun outcome hnone _ => exact .refrained dryRun outcome hnone fun _ _ => rfl
  | replaced removed _ => exact .replaced removed rfl

/-- A lock at its end has put the policy in place, or there was nothing that it had to remove. -/
theorem Underway.of_done {dryRun : Bool} {outcome : Except Failure LockOutcome}
    (hcontract : w.contract.isSome)
    (h : Underway settings asked w made first now (.lock dryRun (.done outcome))) :
    ((AuditAnswer.lock outcome).isApplied = false ∧
        (dryRun = false → IsStale first → now = some made)) ∨
      ∃ removed, outcome = .ok (.applied removed made) ∧ now = some made := by
  generalize hr : Running.lock dryRun (.done outcome) = r at h
  cases h with
  | refrained _ _ hnone hseen =>
    cases hr
    exact .inl ⟨hnone, hseen⟩
  | replaced removed hnow =>
    cases hr
    exact .inr ⟨removed, rfl, hnow⟩
  | lock _ =>
    -- A lock that has asked nothing yet is not at its end.
    rw [Workflow.lock, withLive_eq hcontract] at hr
    cases hr
  | _ => cases hr

/-- What a lock does next after it has read something that was not removed at first, or that is the
policy. -/
theorem LockTurn.underway {dryRun : Bool} {rest : Session LockOutcome}
    (h : LockTurn settings asked w made dryRun now rest) (hnow : now = first ∨ now = some made) :
    Underway settings asked w made first now (.lock dryRun rest) ∧
      (Running.lock dryRun rest).hasApplied = false := by
  cases h with
  | missing =>
    refine ⟨.refrained dryRun _ rfl fun _ hstale => ?_, rfl⟩
    -- Nothing was there, so it was not there at first either.
    obtain ⟨live, hlive, -⟩ := hstale
    rw [hlive] at hnow
    rcases hnow with hnow | hnow <;> cases hnow
  | clean _ live hclean =>
    refine ⟨.refrained dryRun _ rfl fun _ hstale => hnow.resolve_left fun hfirst => ?_, rfl⟩
    -- A clean policy is not the stale one of the beginning.
    obtain ⟨old, hold, hne⟩ := hstale
    rw [hold] at hfirst
    obtain rfl := Option.some.inj hfirst
    exact hne hclean
  | dryRun live hstale => exact ⟨.refrained true _ rfl nofun, rfl⟩
  | stale live hstale => exact ⟨.replacing live.bootstrapHosts, rfl⟩

/-- **What one request keeps.** Either it reads, and the store stays as it is, or it puts the policy
in place, and the audit says so. -/
theorem Underway.step (hcontract : w.contract.isSome)
    (hmade : w.withoutBootstrap.networkPolicy? settings.policy (w.liveNamespace settings asked) =
      some made)
    (hnow : store.get? (w.liveKey settings asked) = first ∨
      store.get? (w.liveKey settings asked) = some made)
    (h : Underway settings asked w made first (store.get? (w.liveKey settings asked)) r)
    (hstep : r.Step store request r' store') :
    (request.policy? = none ∧ store' = store ∧ r'.hasApplied = r.hasApplied ∧
        Underway settings asked w made first (store.get? (w.liveKey settings asked)) r') ∨
      (request.policy? = some made ∧ store' = store.apply made ∧ r.hasApplied = false ∧
        r'.hasApplied = true ∧ Underway settings asked w made first (some made) r') := by
  cases h with
  | status =>
    cases hstep with
    | status hstep =>
      obtain ⟨rfl, rfl, report, rfl⟩ := done_of_status_step hcontract hstep
      exact .inl ⟨rfl, rfl, by rw [hasApplied_status, hasApplied_status], .reported report⟩
  | lock dryRun =>
    cases hstep with
    | lock hstep =>
      obtain ⟨rfl, rfl, hturn⟩ := lockTurn_of_step hcontract hmade hstep
      obtain ⟨hunderway, hnone⟩ := hturn.underway hnow
      exact .inl ⟨rfl, rfl, by rw [hnone, hasApplied_lock hcontract], hunderway⟩
  | replacing removed =>
    cases hstep with
    | lock hstep =>
      obtain ⟨rfl, rfl, rfl⟩ := done_of_replacing_step hstep
      exact .inr ⟨rfl, rfl, rfl, rfl, .replaced removed rfl⟩
  -- The others are at their end and make no request.
  | reported report =>
    cases hstep with
    | status hstep => exact absurd hstep Session.not_step_done
  | refrained dryRun outcome hnone hseen =>
    cases hstep with
    | lock hstep => exact absurd hstep Session.not_step_done
  | replaced removed hnow =>
    cases hstep with
    | lock hstep => exact absurd hstep Session.not_step_done

/-! ### What an interleaving keeps -/

/-- **The invariant of audits of one workflow**: `said` are the requests so far. -/
structure Converging (settings : Settings) (asked : Option String) (w : Workflow)
    (made : NetworkPolicy) (first : Store) (said : List Request) (crowd : Crowd) : Prop where
  /-- No other policy has been put in place. -/
  written : ∀ policy ∈ said.filterMap Request.policy?, policy = made
  /-- Under the key of the workflow is what was there at first, or the policy. -/
  here : crowd.store.get? (w.liveKey settings asked) = first.get? (w.liveKey settings asked) ∨
    crowd.store.get? (w.liveKey settings asked) = some made
  /-- Each audit that has put the policy in place has said so. -/
  counted : crowd.running.countP Running.hasApplied = (said.filterMap Request.policy?).length
  /-- Where the audits stand. -/
  underway : ∀ r ∈ crowd.running, Underway settings asked w made
    (first.get? (w.liveKey settings asked)) (crowd.store.get? (w.liveKey settings asked)) r

variable {first : Store} {said : List Request} {crowd crowd' : Crowd}

/-- The audits before their first requests. -/
theorem converging_start (hcontract : w.contract.isSome) {calls : List AuditCall}
    (hcalls : ∀ call ∈ calls, call.IsOn settings asked w) (first : Store) :
    Converging settings asked w made first [] (.start calls first) where
  written := nofun
  here := .inl rfl
  counted := by
    refine List.countP_eq_zero.mpr fun r hr => ?_
    obtain ⟨call, hcall, rfl⟩ := List.mem_map.mp hr
    cases hcalls call hcall with
    | status => rw [AuditCall.begin, hasApplied_status]; exact Bool.false_ne_true
    | lock dryRun => rw [AuditCall.begin, hasApplied_lock hcontract]; exact Bool.false_ne_true
  underway := by
    intro r hr
    obtain ⟨call, hcall, rfl⟩ := List.mem_map.mp hr
    cases hcalls call hcall with
    | status => exact .status
    | lock dryRun => exact .lock dryRun

/-- Whichever audit makes a request, the invariant is kept. -/
theorem Converging.step (hcontract : w.contract.isSome)
    (hmade : w.withoutBootstrap.networkPolicy? settings.policy (w.liveNamespace settings asked) =
      some made)
    (h : Converging settings asked w made first said crowd) (hstep : crowd.Step request crowd') :
    Converging settings asked w made first (said ++ [request]) crowd' := by
  obtain ⟨hwritten, hhere, hcounted, hunderway⟩ := h
  cases hstep with
  | @request before after r r' store store' request hrequest =>
    have hr := hunderway r (by simp)
    have hothers : ∀ other ∈ before ++ after, Underway settings asked w made
        (first.get? (w.liveKey settings asked)) (store.get? (w.liveKey settings asked)) other := by
      intro other hother
      refine hunderway other ?_
      rcases List.mem_append.mp hother with hbefore | hafter
      · exact List.mem_append_left _ hbefore
      · exact List.mem_append_right _ (List.mem_cons_of_mem r hafter)
    rcases hr.step hcontract hmade hhere hrequest with
      ⟨hread, rfl, happlied, hr'⟩ | ⟨hwrite, rfl, hbefore, hafter, hr'⟩
    · -- A read changes where this audit stands, and nothing else.
      refine ⟨?_, hhere, ?_, ?_⟩
      · simpa [hread] using hwritten
      · simpa [hread, List.countP_cons, happlied] using hcounted
      · exact forall_mem_insert_iff.mpr ⟨hr', hothers⟩
    · -- A write leaves the policy under the key, which is what the others can live with.
      have hnow : (store.apply made).get? (w.liveKey settings asked) = some made := by
        rw [← key_networkPolicy hmade, Store.get?_apply, Store.get?_insert_self]
      refine ⟨?_, .inr hnow, ?_, ?_⟩
      · simpa [hwrite, or_imp, forall_and] using hwritten
      · simp [hwrite, hbefore, hafter] at hcounted ⊢
        omega
      · rw [hnow]
        exact forall_mem_insert_iff.mpr ⟨hr', fun other hother => (hothers other hother).mono⟩

/-- **Every interleaving keeps the invariant.** -/
theorem converging_of_run (hcontract : w.contract.isSome)
    (hmade : w.withoutBootstrap.networkPolicy? settings.policy (w.liveNamespace settings asked) =
      some made) {calls : List AuditCall} (hcalls : ∀ call ∈ calls, call.IsOn settings asked w)
    (hrun : (Crowd.start calls first).Run said crowd) :
    Converging settings asked w made first said crowd := by
  induction hrun with
  | start => exact converging_start hcontract hcalls first
  | next hrun hstep ih => exact ih.step hcontract hmade hstep

/-! ### The outcome -/

/-- **What holds at every moment of an interleaving** of audits that look under the key, where
`made` is the policy that their locks put in place. -/
structure Converges (key : PolicyKey) (made : NetworkPolicy) (first : Store) (said : List Request)
    (crowd : Crowd) : Prop where
  /-- Under the key is what was there at first, or the policy. -/
  here : crowd.store.get? key = first.get? key ∨ crowd.store.get? key = some made
  /-- Once the policy is there, it stays. -/
  stays : crowd.store.get? key = some made →
    ∀ later crowd', crowd.Run later crowd' → crowd'.store.get? key = some made
  /-- A lock that says that it has put a policy in place names this one. -/
  applied : ∀ dryRun removed policy,
    .lock dryRun (.done (.ok (.applied removed policy))) ∈ crowd.running → policy = made
  /-- What has another key is as it was at first. -/
  elsewhere : ∀ other, other ≠ key → crowd.store.get? other = first.get? other
  /-- The store has counted the requests to put a policy in place. -/
  applies : crowd.store.applies = first.applies + (said.filterMap Request.policy?).length
  /-- Each of them is one lock that says so. -/
  counted : crowd.running.countP Running.hasApplied = (said.filterMap Request.policy?).length
  /-- A lock that was to remove registries is at its end only after the policy is there. -/
  locked : IsStale (first.get? key) → ∀ outcome,
    .lock false (.done outcome) ∈ crowd.running → crowd.store.get? key = some made

/-- **Locks and reports of one workflow converge** under any interleaving of their requests. -/
theorem audits_converge (settings : Settings) (asked : Option String) (w : Workflow)
    (hcontract : w.contract.isSome) : ∃ made,
      w.withoutBootstrap.networkPolicy? settings.policy (w.liveNamespace settings asked) =
          some made ∧
        ∀ (calls : List AuditCall), (∀ call ∈ calls, call.IsOn settings asked w) →
          ∀ (first : Store) (said : List Request) (crowd : Crowd),
            (Crowd.start calls first).Run said crowd →
              Converges (w.liveKey settings asked) made first said crowd := by
  obtain ⟨made, hmade⟩ := exists_networkPolicy hcontract settings.policy
    (w.liveNamespace settings asked)
  have hkey : made.key = w.liveKey settings asked := key_networkPolicy hmade
  refine ⟨made, hmade, fun calls hcalls first said crowd hrun => ?_⟩
  have hinv := converging_of_run hcontract hmade hcalls hrun
  refine ⟨hinv.here, fun hnow later crowd' hlater => ?_, ?_, ?_, ?_, hinv.counted, ?_⟩
  · -- The later requests are requests of one longer interleaving.
    have hinv' := converging_of_run hcontract hmade hcalls (hrun.trans hlater)
    rw [hlater.store_eq]
    refine Store.get?_foldl_of_forall_eq (fun policy hpolicy => ?_) hkey hnow
    refine hinv'.written policy ?_
    rw [List.filterMap_append]
    exact List.mem_append_right _ hpolicy
  · intro dryRun removed policy hmem
    rcases (hinv.underway _ hmem).of_done hcontract with ⟨hnone, -⟩ | ⟨_, heq, -⟩
    · cases hnone
    · cases heq
      rfl
  · intro other hother
    rw [hrun.store_eq]
    refine Store.get?_foldl_of_ne (fun policy hpolicy => ?_) first
    rw [hinv.written policy hpolicy, hkey]
    exact hother
  · rw [hrun.store_eq, Store.applies_foldl]
    rfl
  · intro hstale outcome hmem
    rcases (hinv.underway _ hmem).of_done hcontract with ⟨-, hseen⟩ | ⟨_, -, hnow⟩
    · exact hseen rfl hstale
    · exact hnow

/-- Two locks that both read before either of them writes. The second one decides on a policy that
the first one is about to replace, and both say that they have put the new one in place. -/
theorem run_two_locks {live : NetworkPolicy} (hcontract : w.contract.isSome)
    (hmade : w.withoutBootstrap.networkPolicy? settings.policy (w.liveNamespace settings asked) =
      some made)
    (hlive : first.get? (w.liveKey settings asked) = some live)
    (hstale : live.bootstrapHosts ≠ []) :
    (Crowd.start [.lock settings asked false w, .lock settings asked false w] first).Run
      [.get (w.liveKey settings asked), .get (w.liveKey settings asked), .apply made, .apply made]
      ⟨[.lock false (.done (.ok (.applied live.bootstrapHosts made))),
          .lock false (.done (.ok (.applied live.bootstrapHosts made)))],
        (first.apply made).apply made⟩ := by
  -- The three places at which the two locks stand on the way.
  let asking : Running := .lock false (w.lock settings asked false)
  let deciding : Running := .lock false (replacing live.bootstrapHosts made)
  let ended : Running := .lock false (.done (.ok (.applied live.bootstrapHosts made)))
  have hread : asking.Step first (.get (w.liveKey settings asked)) deciding first :=
    .lock (step_of_stale hcontract hmade hlive hstale)
  have hwrite : ∀ store : Store, deciding.Step store (.apply made) ended (store.apply made) :=
    fun store => .lock (.apply made _ store)
  have hone := Crowd.Run.start.next (@Crowd.Step.request [] [asking] _ _ _ _ _ hread)
  have htwo := hone.next (@Crowd.Step.request [deciding] [] _ _ _ _ _ hread)
  have hthree := htwo.next (@Crowd.Step.request [] [deciding] _ _ _ _ _ (hwrite first))
  exact hthree.next (@Crowd.Step.request [ended] [] _ _ _ _ _ (hwrite (first.apply made)))

/-- Two locks of a workflow whose live policy opens a registry put the policy in place twice, and
the store ends with it. It opens the host that is left in the contract. -/
theorem release_locks_converge :
    ∃ w, Workflow.parse (releaseText "api.example.com") = .ok w ∧ w.contract.isSome ∧
      ∃ made said crowd, made.key = w.liveKey {} none ∧ made.liveHosts = ["api.example.com:443"] ∧
        (Crowd.start [.lock {} none false w, .lock {} none false w] releaseStore).Run said crowd ∧
          Converges (w.liveKey {} none) made releaseStore said crowd ∧
          crowd.store.applies = 2 ∧ crowd.store.get? (w.liveKey {} none) = some made := by
  have hstale := bootstrapHosts_releasePolicy_ne_nil
  obtain ⟨w, hparse, hcontract, -, -, hlive, hkept⟩ := exists_release
  obtain ⟨made, hmade, hconverge⟩ := audits_converge {} none w hcontract
  have hhosts : made.liveHosts = ["api.example.com:443"] :=
    (liveHosts_networkPolicy hmade).trans hkept
  have hrun := run_two_locks hcontract hmade hlive hstale
  have hcalls : ∀ call ∈ [AuditCall.lock {} none false w, .lock {} none false w],
      call.IsOn {} none w := by
    simp only [List.forall_mem_cons, List.not_mem_nil, false_imp_iff, implies_true, and_true]
    exact ⟨.lock false, .lock false⟩
  have hall := hconverge _ hcalls releaseStore _ _ hrun
  refine ⟨w, hparse, hcontract, made, _, _, key_networkPolicy hmade, hhosts, hrun, hall, rfl, ?_⟩
  exact hall.locked ⟨releasePolicy, hlive, hstale⟩ _ List.mem_cons_self

end Workflow

end WorkflowPolicy
