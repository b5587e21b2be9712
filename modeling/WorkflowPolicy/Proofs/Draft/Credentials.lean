import WorkflowPolicy.Proofs.Draft.Composition

/-!
# What is found in credentials

The check of a dependency goes on after a violation, so the faults of its credentials are found
whatever else is wrong with it. There is one exception: a dependency without a protocol is left at
once, and then nothing is said of its credentials. `credentials_found_iff` says for every contract
that there is no other; `mail_credentials_not_found` is a contract with the exception.
-/

namespace WorkflowPolicy.Draft

open Check (findings)

/-! ### Faults of credentials -/

/-- **What may be wrong with credentials**, wherever they stand. -/
@[mk_iff] inductive CredentialFault (a : Auth) : DependencyFault → Prop where
  | kindMissing (h : a.kind = "") : CredentialFault a .authKindMissing
  | secretMissing (h : a.secret = "") : CredentialFault a .secretMissing
  /-- There is a secret, and it is no reference to a key of a service. -/
  | secretMalformed (h : a.secret ≠ "") (hform : a.secret.toList ∉ Text.secretRefPattern) :
    CredentialFault a (.secretMalformed a.secret)

theorem CredentialFault.isOnCredentials {a : Auth} {fault : DependencyFault}
    (h : CredentialFault a fault) : fault.isOnCredentials = true := by
  cases h <;> rfl

/-- Acceptable credentials are those without a fault. -/
theorem acceptableAuth_iff_forall_not {a : Auth} :
    AcceptableAuth a ↔ ∀ fault, ¬ CredentialFault a fault := by
  constructor
  · rintro ⟨hkind, hsecret⟩ fault hfault
    cases hfault with
    | kindMissing h => exact hkind h
    | secretMissing h =>
      rw [h, ← Text.isSecretRef_iff] at hsecret
      exact absurd hsecret (by decide)
    | secretMalformed _ hform => exact hform hsecret
  · intro hnone
    have hsecret : a.secret ≠ "" := fun h => hnone _ (.secretMissing h)
    exact ⟨fun h => hnone _ (.kindMissing h),
      by_contra fun hform => hnone _ (.secretMalformed hsecret hform)⟩

namespace Check

variable {name : String} {d : Dependency} {fault : DependencyFault}

/-! ### Where they are found -/

/-- The check of credentials finds their faults. -/
theorem mem_findings_auth {a : Auth} :
    .dependency name fault ∈ findings (auth name a) ↔ CredentialFault a fault := by
  rw [credentialFault_iff, ← Text.isSecretRef_iff]
  -- The kind is looked at first, and the form of the secret only if there is one.
  by_cases hkind : a.kind = "" <;> by_cases hsecret : a.secret = "" <;>
    simp [auth, hkind, hsecret]

/-- A dependency with a protocol has the faults of its credentials, one without has none of them. -/
theorem mem_findings_dependency (hfault : fault.isOnCredentials = true) :
    .dependency name fault ∈ findings (dependency name d) ↔
      d.protocol ≠ "" ∧ ∃ a, d.auth = some a ∧ CredentialFault a fault := by
  -- What the check of the name and that of the target find is about something else.
  have hname : .dependency name fault ≠ Finding.dependency name .nameMalformed := by
    rintro ⟨⟩
    cases hfault
  have hmissing : .dependency name fault ≠ Finding.dependency name .protocolMissing := by
    rintro ⟨⟩
    cases hfault
  have htarget : ∀ fault', fault'.isOnCredentials = false →
      .dependency name fault ≠ Finding.dependency name fault' := by
    rintro fault' hother ⟨⟩
    rw [hfault] at hother
    cases hother
  have hdynamic : .dependency name fault ∉ findings (dynamicTarget name d) := fun hmem =>
    allFound_dynamicTarget htarget d _ hmem rfl
  have hfixed : .dependency name fault ∉ findings (fixedTarget name d) := fun hmem =>
    allFound_fixedTarget htarget d _ hmem rfl
  by_cases hprotocol : d.protocol = ""
  · simp [dependency, hprotocol, hname, hmissing]
  · by_cases hkind : d.kind = dynamicKind <;>
      simp [dependency, dependencyWithProtocol, Option.forM_eq_forM, hprotocol, hkind, hname,
        hdynamic, hfixed, mem_findings_auth]

/-- What a dependency has of the contract's findings is what is found in it. -/
theorem mem_findings_contract {c : Contract} (h : (name, d) ∈ c.entries) :
    .dependency name fault ∈ findings (contract c) ↔
      .dependency name fault ∈ findings (dependency name d) := by
  have hversion : .dependency name fault ∉ versionFindings c.version := by
    unfold versionFindings
    split
    · simp
    · split <;> simp
  rw [findings_contract, List.mem_append, List.mem_append, List.mem_flatMap, List.mem_flatMap]
  constructor
  · rintro ((hmem | ⟨⟨name', d'⟩, he, hmem⟩) | ⟨block, -, hmem⟩)
    · exact absurd hmem hversion
    · -- The finding tells the name, and no two dependencies have the same name.
      have hname : name = name' := allFound_dependency (P := fun f => ∀ name fault,
        f = .dependency name fault → name = name') (by simp) d' _ hmem name fault rfl
      subst hname
      have heq := List.inj_on_of_nodup_map (Table.nodup_keys _) he h rfl
      obtain rfl := (Prod.mk.inj heq).2
      exact hmem
    · simp at hmem
  · exact fun hmem => .inl (.inr ⟨_, h, hmem⟩)

end Check

/-- **The faults of the credentials of a dependency are found in the contract exactly if the
dependency has a protocol.** A contract with a fault in credentials is refused in either case. -/
theorem credentials_found_iff {c : Contract} {name : String} {d : Dependency} {a : Auth}
    (hd : (name, d) ∈ c.entries) (ha : d.auth = some a) :
    (∀ fault : DependencyFault, fault.isOnCredentials = true →
      (.dependency name fault ∈ findings (Check.contract c) ↔
        d.protocol ≠ "" ∧ CredentialFault a fault)) ∧
    ((∀ fault, CredentialFault a fault →
        .dependency name fault ∈ findings (Check.contract c)) ↔
      d.protocol ≠ "" ∨ AcceptableAuth a) ∧
    (¬ AcceptableAuth a → c.validate = .error (findings (Check.contract c))) := by
  have hfound : ∀ fault : DependencyFault, fault.isOnCredentials = true →
      (.dependency name fault ∈ findings (Check.contract c) ↔
        d.protocol ≠ "" ∧ CredentialFault a fault) := by
    intro fault hfault
    rw [Check.mem_findings_contract hd, Check.mem_findings_dependency hfault, ha]
    simp
  refine ⟨hfound, ⟨fun hall => ?_, fun hor fault hfault => ?_⟩, fun hfaulty => ?_⟩
  · by_cases hprotocol : d.protocol = ""
    · -- Nothing of the credentials is found, so there is nothing to find.
      refine .inr (acceptableAuth_iff_forall_not.mpr fun fault hfault => ?_)
      exact ((hfound fault hfault.isOnCredentials).mp (hall fault hfault)).1 hprotocol
    · exact .inl hprotocol
  · rcases hor with hprotocol | hacceptable
    · exact (hfound fault hfault.isOnCredentials).mpr ⟨hprotocol, hfault⟩
    · exact absurd hfault (acceptableAuth_iff_forall_not.mp hacceptable fault)
  · have hnone : Check.built (Check.contract c) = none := by
      rw [← Option.not_isSome_iff_eq_none, Check.isSome_built_contract,
        Check.findings_contract_eq_nil_iff]
      exact fun haccepted => hfaulty ((haccepted.dependencies _ hd).auth a ha)
    rw [c.validate_eq, hnone]

/-- A contract with a dependency that has no protocol, and credentials with two faults. -/
def mailText : String :=
"version: '1'
dependencies:
  mail:
    host: smtp.example.com
    auth:
      type: ''
      secret: mailpassword
"

/-- Its credentials. -/
def mailAuth : Auth := ⟨"", "mailpassword"⟩

/-- Its dependency. -/
def mail : Dependency := { host := "smtp.example.com", auth := some mailAuth }

/-- The missing protocol is all that is found in it. -/
theorem mail_credentials_not_found : ∃ c, Reading.fromYaml Contract.read mailText = .ok c ∧
    ("mail", mail) ∈ c.entries ∧ mail.auth = some mailAuth ∧
    CredentialFault mailAuth .authKindMissing ∧
    CredentialFault mailAuth (.secretMalformed "mailpassword") ∧
    c.validate = .error [.dependency "mail" .protocolMissing] ∧
    ¬ ∀ fault, CredentialFault mailAuth fault →
      .dependency "mail" fault ∈ findings (Check.contract c) := by
  obtain ⟨c, hread, rfl⟩ : ∃ c, Reading.fromYaml Contract.read mailText = .ok c ∧
      c = Contract.only "mail" mail := exists_ok_of_any (by decide +kernel)
  have hmem : ("mail", mail) ∈ (Contract.only "mail" mail).entries := List.mem_singleton_self _
  have hsecret : "mailpassword".toList ∉ Text.secretRefPattern := by
    rw [← Text.isSecretRef_iff]
    decide
  have hfaulty : ¬ AcceptableAuth mailAuth := fun h => hsecret h.secret
  obtain ⟨-, hall, hrefused⟩ := credentials_found_iff hmem rfl
  refine ⟨_, hread, hmem, rfl, .kindMissing rfl, .secretMalformed (by decide) hsecret, ?_, ?_⟩
  · rw [hrefused hfaulty]
    exact congrArg Except.error (by decide +kernel)
  · rw [hall]
    rintro (hprotocol | hacceptable)
    · exact hprotocol rfl
    · exact hfaulty hacceptable

end WorkflowPolicy.Draft
