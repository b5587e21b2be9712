import WorkflowPolicy.Access.Package
import WorkflowPolicy.Proofs.Access.Sandbox
import WorkflowPolicy.Proofs.Access.Secret

/-!
# What depends on the set of dependencies only

Besides the rules of egress three things are derived on a walk through the dependencies of a
contract: the secrets that it needs, the command that runs it, and the addresses of its packages.
Each of them sorts what it collects by an order that tells all elements apart, and drops repeats.
So, unlike the rules, none of them depends on the walk, on the names, or on how often a dependency
is declared (`Contract.SameDependencies`).

`projections_of_dependencies` says this together with what the lists of secrets and of addresses
hold.
-/

namespace WorkflowPolicy

/-! ### The addresses of packages -/

/-- **Where a target is found** at a proxy: a package of JSR in a folder of its own, one of npm at
the top, and either of them with its version, if it has one. -/
inductive Target.FoundAt (base : String) : Target → String → Prop
  | jsr (specifier : String) :
    FoundAt base (.package .jsr specifier none) (base ++ "/jsr/" ++ specifier)
  | jsrVersion (specifier version : String) :
    FoundAt base (.package .jsr specifier (some version))
      (base ++ "/jsr/" ++ specifier ++ "@" ++ version)
  | npm (specifier : String) :
    FoundAt base (.package .npm specifier none) (base ++ "/" ++ specifier)
  | npmVersion (specifier version : String) :
    FoundAt base (.package .npm specifier (some version))
      (base ++ "/" ++ specifier ++ "@" ++ version)

theorem packageUrl?_eq_some_iff {base url : String} {t : Target} :
    t.packageUrl? base = some url ↔ t.FoundAt base url := by
  constructor
  · intro h
    -- Only a package has an address, and its registry and version say in which of the four forms.
    cases t with
    | package registry specifier version =>
      obtain rfl := Option.some.inj h
      cases registry with
      | jsr => cases version with
        | none => exact .jsr specifier
        | some version => exact .jsrVersion specifier version
      | npm => cases version with
        | none => exact .npm specifier
        | some version => exact .npmVersion specifier version
    | _ => cases h
  · rintro (_ | _ | _ | _) <;> rfl

/-- **A proxy is its base and the slashes at its end.** -/
theorem exists_append_slashes (url : String) :
    ∃ slashes : String, url = withoutFinalSlashes url ++ slashes ∧
      (∀ c ∈ slashes.toList, c = '/') ∧ (withoutFinalSlashes url).toList.getLast? ≠ some '/' := by
  -- The slashes at the end are the run of slashes with which the reversed text begins.
  have hcut := List.takeWhile_append_dropWhile (p := (· == '/')) (l := url.toList.reverse)
  refine ⟨.ofList (url.toList.reverse.takeWhile (· == '/')).reverse, ?_, fun c hc => ?_, ?_⟩
  · apply String.toList_inj.mp
    rw [withoutFinalSlashes, String.toList_append, String.toList_ofList, String.toList_ofList,
      ← List.reverse_append, hcut, List.reverse_reverse]
  · rw [String.toList_ofList, List.mem_reverse] at hc
    simpa using List.mem_takeWhile_imp hc
  · rw [withoutFinalSlashes, String.toList_ofList, List.getLast?_reverse]
    intro hlast
    -- What is left after the run does not begin with another slash.
    have hslash := List.head?_dropWhile_not (· == '/') url.toList.reverse
    simp [hlast] at hslash

/-- Nothing is left of a proxy exactly if it is made of slashes. -/
theorem withoutFinalSlashes_eq_empty_iff {url : String} :
    withoutFinalSlashes url = "" ↔ ∀ c ∈ url.toList, c = '/' := by
  rw [← String.toList_inj, withoutFinalSlashes]
  simp [List.dropWhile_eq_nil_iff]

/-! ### Lists that rise -/

theorem pairwise_secrets (contract : Option Contract) :
    (secrets contract).Pairwise (· < ·) := by
  cases contract with
  | none => exact .nil
  | some c => exact pairwise_ascending _

theorem pairwise_prewarmUrls (contract : Option Contract) (proxy : String) :
    (prewarmUrls contract proxy).Pairwise (· < ·) := by
  cases contract with
  | none => exact .nil
  | some c =>
    simp only [prewarmUrls]
    split
    · exact .nil
    · exact pairwise_ascending _

theorem mem_prewarmUrls_iff {c : Contract} {proxy url : String} :
    url ∈ prewarmUrls (some c) proxy ↔ (∃ ch ∈ proxy.toList, ch ≠ '/') ∧
      ∃ d ∈ c.dependencies.values, d.target.FoundAt (withoutFinalSlashes proxy) url := by
  have hempty : (∃ ch ∈ proxy.toList, ch ≠ '/') ↔ withoutFinalSlashes proxy ≠ "" := by
    rw [Ne, withoutFinalSlashes_eq_empty_iff]
    simp
  rw [hempty]
  simp only [prewarmUrls]
  -- A proxy of slashes only gives no addresses, whatever the packages are.
  split
  · next h => simp [String.isEmpty_iff.mp h]
  · next h =>
    rw [mem_ascending, List.mem_filterMap]
    simp only [packageUrl?_eq_some_iff]
    exact (and_iff_right (mt String.isEmpty_iff.mpr h)).symm

/-! ### The same dependencies -/

namespace Contract

/-- **Two contracts with the same dependencies**, in whatever order, under whatever names, and
however often. -/
def SameDependencies (c c' : Contract) : Prop :=
  ∀ d, d ∈ c.dependencies.values ↔ d ∈ c'.dependencies.values

variable {c c' : Contract}

/-- On another walk and under other names the dependencies are the same. -/
theorem Reordered.sameDependencies (h : c.Reordered c') : c.SameDependencies c' :=
  fun _ => h.values.symm.mem_iff

namespace SameDependencies

theorem mem_filterMap_iff {α : Type} (h : c.SameDependencies c') (f : Dependency → Option α)
    (a : α) :
    a ∈ c.dependencies.values.filterMap f ↔ a ∈ c'.dependencies.values.filterMap f := by
  rw [List.mem_filterMap, List.mem_filterMap]
  exact exists_congr fun d => and_congr_left' (h d)

theorem secrets_eq (h : c.SameDependencies c') : secrets (some c) = secrets (some c') :=
  ascending_congr (h.mem_filterMap_iff _)

theorem prewarmUrls_eq (h : c.SameDependencies c') (proxy : String) :
    prewarmUrls (some c) proxy = prewarmUrls (some c') proxy := by
  unfold prewarmUrls
  exact congrArg (ite _ _) (ascending_congr (h.mem_filterMap_iff _))

theorem fixedHosts_eq (h : c.SameDependencies c') : c.fixedHosts = c'.fixedHosts :=
  dropRepeats_sortBy_congr hostPrecedes_trans hostPrecedes_total hostPrecedes_apart
    (h.mem_filterMap_iff _)

theorem hasDynamic_eq (h : c.SameDependencies c') : c.hasDynamic = c'.hasDynamic := by
  rw [Bool.eq_iff_iff, hasDynamic, hasDynamic, List.any_eq_true, List.any_eq_true]
  exact exists_congr fun d => and_congr_left' (h d)

theorem isEmpty_eq (h : c.SameDependencies c') :
    c.dependencies.entries.isEmpty = c'.dependencies.entries.isEmpty := by
  -- Without entries there are no values, and the values are what the two contracts share.
  have hvalues : ∀ c : Contract, c.dependencies.entries.isEmpty = true ↔
      ∀ d, d ∉ c.dependencies.values := fun c => by
    rw [List.isEmpty_iff, ← List.eq_nil_iff_forall_not_mem, Roster.values, List.map_eq_nil_iff]
  rw [Bool.eq_iff_iff, hvalues, hvalues]
  exact forall_congr' fun d => not_congr (h d)

theorem runCommand_eq (h : c.SameDependencies c') (proxy : String) :
    runCommand (some c) proxy = runCommand (some c') proxy := by
  simp only [runCommand, networkFlag, h.isEmpty_eq, h.hasDynamic_eq, h.fixedHosts_eq]

end SameDependencies

end Contract

/-- **Secrets, commands and addresses depend on the set of dependencies only.** They are the same
for every walk through the dependencies and under all names. The secrets are those of the
credentials of all dependencies but the ones whose host is known at run time only, the addresses
those of all packages at the proxy without the slashes at its end; both lists rise. -/
theorem projections_of_dependencies (c : Contract) :
    (∀ c', c.Reordered c' → c.SameDependencies c') ∧
    (∀ c', c.SameDependencies c' →
      secrets (some c') = secrets (some c) ∧
      (∀ proxy, runCommand (some c') proxy = runCommand (some c) proxy) ∧
      ∀ proxy, prewarmUrls (some c') proxy = prewarmUrls (some c) proxy) ∧
    ((secrets (some c)).Pairwise (· < ·) ∧
      ∀ s, s ∈ secrets (some c) ↔ ∃ d ∈ c.dependencies.values,
        d.target.isDynamic = false ∧ s ≠ "" ∧ ∃ a, d.auth = some a ∧ a.secret = s) ∧
    ∀ proxy, (prewarmUrls (some c) proxy).Pairwise (· < ·) ∧
      ((∃ ch ∈ proxy.toList, ch ≠ '/') → ∃ base slashes, proxy = base ++ slashes ∧
        (∀ ch ∈ slashes.toList, ch = '/') ∧ base.toList.getLast? ≠ some '/' ∧
        ∀ url, url ∈ prewarmUrls (some c) proxy ↔
          ∃ d ∈ c.dependencies.values, d.target.FoundAt base url) := by
  refine ⟨fun c' h => h.sameDependencies, fun c' h => ?_, ⟨pairwise_secrets _, fun s => ?_⟩,
    fun proxy => ⟨pairwise_prewarmUrls _ _, fun hproxy => ?_⟩⟩
  · exact ⟨h.secrets_eq.symm, fun proxy => (h.runCommand_eq proxy).symm,
      fun proxy => (h.prewarmUrls_eq proxy).symm⟩
  · -- Sorting and dropping repeats keep the elements, so the secrets are those of the dependencies.
    simp only [mem_secrets_iff, secret?_eq_some_iff]
  · obtain ⟨slashes, hslashes, hall, hlast⟩ := exists_append_slashes proxy
    exact ⟨withoutFinalSlashes proxy, slashes, hslashes, hall, hlast,
      fun url => mem_prewarmUrls_iff.trans (and_iff_right hproxy)⟩

/-- A service that takes a token. -/
def tokenService : Dependency :=
  ⟨.fixed .https "api.example.org" none, some ⟨"bearer", "api.token"⟩, .empty⟩

/-- A package with a version. -/
def pathPackage : Dependency := ⟨.package .jsr "@std/path" (some "1.0"), none, .empty⟩

/-- A package without one. -/
def schemaPackage : Dependency := ⟨.package .npm "zod" none, none, .empty⟩

/-- A service and two packages, one of which is declared twice, like the service. -/
def toolsContract : Contract where
  dependencies := .ofList [("api", tokenService), ("path", pathPackage), ("mirror", tokenService),
    ("zod", schemaPackage), ("again", schemaPackage)]

/-- The same dependencies, each once, in another order and under other names. -/
def otherTools : Contract where
  dependencies := .ofList [("schemas", schemaPackage), ("path", pathPackage),
    ("service", tokenService)]

/-- What is derived from two declarations of the same dependencies. -/
theorem tools_projections :
    secrets (some otherTools) = secrets (some toolsContract) ∧
    runCommand (some otherTools) "" = runCommand (some toolsContract) "" ∧
    prewarmUrls (some otherTools) "http://esm/" = prewarmUrls (some toolsContract) "http://esm/" ∧
    "api.token" ∈ secrets (some toolsContract) ∧
    "http://esm/zod" ∈ prewarmUrls (some toolsContract) "http://esm/" ∧
    ∃ base, ∀ url, url ∈ prewarmUrls (some toolsContract) "http://esm/" ↔
      ∃ d ∈ toolsContract.dependencies.values, d.target.FoundAt base url := by
  obtain ⟨-, hsame, ⟨-, hsecrets⟩, hurls⟩ := projections_of_dependencies toolsContract
  have hvalues : toolsContract.dependencies.values =
      [tokenService, pathPackage, tokenService, schemaPackage, schemaPackage] := rfl
  have hvalues' : otherTools.dependencies.values = [schemaPackage, pathPackage, tokenService] := rfl
  have hdependencies : toolsContract.SameDependencies otherTools := by
    -- A dependency that is declared twice is no other element of the list.
    intro d
    rw [hvalues, hvalues']
    simp only [List.mem_cons, List.not_mem_nil, or_false]
    tauto
  have hproxy : ∃ ch ∈ "http://esm/".toList, ch ≠ '/' := ⟨'h', by decide +kernel, by decide⟩
  obtain ⟨hsecret, hcommand, haddresses⟩ := hsame otherTools hdependencies
  obtain ⟨base, -, -, -, -, hfound⟩ := (hurls "http://esm/").2 hproxy
  exact ⟨hsecret, hcommand _, haddresses _,
    (hsecrets _).mpr ⟨tokenService, List.mem_cons_self, rfl, by decide, _, rfl, rfl⟩,
    by decide +kernel, base, hfound⟩

end WorkflowPolicy
