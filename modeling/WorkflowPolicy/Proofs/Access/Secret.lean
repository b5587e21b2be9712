import WorkflowPolicy.Access.Secret
import WorkflowPolicy.Proofs.Draft.Accepted

/-!
# References to secrets

A reference is recognised by one pattern and taken apart by another rule: it is cut at its first
point. The two agree, because an identifier has no point: a text is a reference exactly if what
stands before and behind its first point are identifiers (`isSecretRef_iff_splits`). The secrets of
a contract that has passed the check are references (`isSecretRef_of_mem_secrets`), so whoever
provides a secret finds its service and its key in it.
-/

namespace WorkflowPolicy

/-! ### Service and key -/

theorem secretService_eq {reference : String} {service key : List Char} (hservice : '.' ∉ service)
    (h : reference.toList = service ++ '.' :: key) :
    secretService reference = String.ofList service := by
  rw [secretService, h, Text.splitFirst_append hservice]

theorem secretKey_eq {reference : String} {service key : List Char} (hservice : '.' ∉ service)
    (h : reference.toList = service ++ '.' :: key) :
    secretKey reference = String.ofList key := by
  rw [secretKey, h, Text.splitFirst_append hservice]

/-- **A text with a point is its service and its key again**, whatever they are. -/
theorem secretService_append_secretKey {reference : String} (h : '.' ∈ reference.toList) :
    secretService reference ++ "." ++ secretKey reference = reference := by
  -- A text with a point is cut there, so there are two parts.
  cases hcut : Text.splitFirst '.' reference.toList with
  | none => exact absurd h (Text.splitFirst_eq_none_iff.mp hcut)
  | some parts =>
    obtain ⟨hparts, hservice⟩ := Text.append_of_splitFirst hcut
    rw [secretService_eq hservice hparts, secretKey_eq hservice hparts]
    apply String.toList_inj.mp
    simp [hparts]

/-- Two identifiers that are joined by the first point of a text. -/
structure SplitsCleanly (reference : String) : Prop where
  service : Text.isIdent (secretService reference) = true
  key : Text.isIdent (secretKey reference) = true
  joined : reference = secretService reference ++ "." ++ secretKey reference

/-- **References are the texts with a point that split into two identifiers.** -/
theorem isSecretRef_iff_splits {s : String} : Text.isSecretRef s = true ↔
    '.' ∈ s.toList ∧ Text.isIdent (secretService s) = true ∧ Text.isIdent (secretKey s) = true := by
  rw [Text.isSecretRef_iff, Text.mem_secretRefPattern_iff]
  constructor
  · rintro ⟨service, hservice, key, hkey, hs⟩
    -- The point between the two identifiers is the first one.
    have hpoint := Text.not_mem_of_mem_identPattern hservice
    rw [secretService_eq hpoint hs, secretKey_eq hpoint hs, Text.isIdent_iff, Text.isIdent_iff]
    exact ⟨by simp [hs], by simpa using hservice, by simpa using hkey⟩
  · rintro ⟨hpoint, hservice, hkey⟩
    refine ⟨_, Text.isIdent_iff.mp hservice, _, Text.isIdent_iff.mp hkey, ?_⟩
    -- The two parts joined by a point are the text, so it matches the pattern.
    simpa using congrArg String.toList (secretService_append_secretKey hpoint).symm

theorem splitsCleanly_of_isSecretRef {s : String} (h : Text.isSecretRef s = true) :
    SplitsCleanly s := by
  obtain ⟨hpoint, hservice, hkey⟩ := isSecretRef_iff_splits.mp h
  exact ⟨hservice, hkey, (secretService_append_secretKey hpoint).symm⟩

/-! ### The secrets of a contract -/

/-- The secret of a dependency is that of its credentials. -/
theorem secret?_eq_some_iff {d : Dependency} {s : String} : d.secret? = some s ↔
    d.target.isDynamic = false ∧ s ≠ "" ∧ ∃ a, d.auth = some a ∧ a.secret = s := by
  unfold Dependency.secret?
  cases d.target.isDynamic with
  | true => simp
  | false => simp [Option.filter_eq_some_iff, and_comm]

theorem mem_secrets_iff {c : Contract} {s : String} : s ∈ secrets (some c) ↔
    ∃ d ∈ c.dependencies.values, d.secret? = some s := by
  rw [secrets, mem_ascending, List.mem_filterMap]

/-- **The secrets of an accepted contract are references**: the check looks at the credentials of
every dependency, whether or not its secret is to be provided. -/
theorem isSecretRef_of_mem_secrets {c : Contract} (h : c.Accepted) {s : String}
    (hs : s ∈ secrets (some c)) : Text.isSecretRef s = true := by
  -- The secrets are those of the dependencies, and each dependency has passed a check of its own.
  obtain ⟨draft, hbuilt⟩ := exists_built_of_accepted h
  obtain ⟨d, hd, hsecret⟩ := mem_secrets_iff.mp hs
  obtain ⟨-, -, a, hauth, rfl⟩ := secret?_eq_some_iff.mp hsecret
  obtain ⟨e, -, hdependency⟩ := Draft.Check.exists_built_dependency hbuilt hd
  obtain ⟨hacceptable, target, -, rfl⟩ :=
    Draft.Check.exists_target_of_built_dependency hdependency
  exact Text.isSecretRef_iff.mpr (hacceptable.auth a hauth).secret

/-- **References to secrets split cleanly.** A text is a reference exactly if it has a point and
what stands before and behind the first one are identifiers; then the two joined by a point are the
text again. So it is with every secret of a contract that has passed the check. -/
theorem secretRefs_split :
    (∀ s : String,
      (Text.isSecretRef s = true ↔ '.' ∈ s.toList ∧
        Text.isIdent (secretService s) = true ∧ Text.isIdent (secretKey s) = true) ∧
      (Text.isSecretRef s = true → s = secretService s ++ "." ++ secretKey s)) ∧
    ∀ c : Contract, c.Accepted → ∀ s ∈ secrets (some c), SplitsCleanly s :=
  ⟨fun _ => ⟨isSecretRef_iff_splits, fun h => (splitsCleanly_of_isSecretRef h).joined⟩,
    fun _ haccepted _ hs => splitsCleanly_of_isSecretRef (isSecretRef_of_mem_secrets haccepted hs)⟩

/-- Two dependencies with one secret, one with another, and one whose host is known at run time
only. -/
def mailDraft : Draft.Contract where
  version := "1"
  dependencies := some (.ofList
    [ ("inbox", { protocol := "https", host := "in.example.org",
                  auth := some ⟨"bearer", "mail.token"⟩ }),
      ("outbox", { protocol := "https", host := "out.example.org",
                   auth := some ⟨"bearer", "mail.token"⟩ }),
      ("probes", { protocol := "https", kind := "dynamic-target", cidr := "0.0.0.0/0",
                   dynPorts := ["443"], auth := some ⟨"bearer", "probe.token"⟩ }),
      ("store", { protocol := "blob", host := "blob.example.org", container := "letters",
                  auth := some ⟨"key", "blob-store.write_key"⟩ }) ])

/-- The contract of `mailDraft`. -/
def mailContract : Contract where
  dependencies := .ofList
    [ ("inbox", ⟨.fixed .https "in.example.org" none, some ⟨"bearer", "mail.token"⟩, .empty⟩),
      ("outbox", ⟨.fixed .https "out.example.org" none, some ⟨"bearer", "mail.token"⟩, .empty⟩),
      ("probes", ⟨.dynamic "https" ⟨.v4 #v[0, 0, 0, 0], 0⟩ [⟨443, .tcp⟩],
        some ⟨"bearer", "probe.token"⟩, .empty⟩),
      ("store", ⟨.fixed (.blob "letters") "blob.example.org" none,
        some ⟨"key", "blob-store.write_key"⟩, .empty⟩) ]

/-- The secrets of the contract of `mailDraft` split. A text with two points does not. -/
theorem mail_secrets_split : mailContract.Accepted ∧
    secrets (some mailContract) = ["blob-store.write_key", "mail.token"] ∧
    SplitsCleanly "blob-store.write_key" ∧ SplitsCleanly "mail.token" ∧
    (Text.isSecretRef "mail.token" = true ∧
      "mail.token" = secretService "mail.token" ++ "." ++ secretKey "mail.token") ∧
    Text.isSecretRef "mail.token.old" = false := by
  obtain ⟨hsplit, hsecrets⟩ := secretRefs_split
  have haccepted : mailContract.Accepted := .inl ⟨mailDraft, by rfl⟩
  have hlist : secrets (some mailContract) = ["blob-store.write_key", "mail.token"] := by
    decide +kernel
  have hreference : Text.isSecretRef "mail.token" = true := by decide +kernel
  -- What stands behind the first point has a point itself, so it is no identifier.
  have hkey : ¬ Text.isIdent (secretKey "mail.token.old") = true := by decide +kernel
  refine ⟨haccepted, hlist, hsecrets _ haccepted _ (by simp [hlist]),
    hsecrets _ haccepted _ (by simp [hlist]), ⟨hreference, (hsplit _).2 hreference⟩, ?_⟩
  exact Bool.eq_false_iff.mpr fun h => hkey ((hsplit "mail.token.old").1.mp h).2.2

end WorkflowPolicy
