import Mathlib
import WorkflowPolicy.Proofs.Text.Cutting
import WorkflowPolicy.Text.Name

/-!
# Names as regular languages

The four forms of names are given by regular expressions; here they are the languages that these
expressions denote, over whole texts, and the tests of `Text.Name` are shown to decide them:

* `isKebab_iff` — `[a-z][a-z0-9]*(-[a-z0-9]+)*`;
* `isIdent_iff` — `[a-z][a-z0-9_-]*`;
* `isVersion_iff` — `[0-9]+\.[0-9]+`;
* `isSecretRef_iff` — `[a-z][a-z0-9_-]*\.[a-z][a-z0-9_-]*`.

A test walks through a text from its front, so each language is brought into a form that says which
character may come first (`kstar_mul_eq`), and the proofs follow the recursion of the tests.
-/

namespace WorkflowPolicy.Text

open Computability

/-! ### Languages of single characters -/

/-- The texts of one character of the class. -/
def one (p : Char → Bool) : Language Char := {w | ∃ c, p c = true ∧ w = [c]}

/-- The texts of characters of the class, at least one. -/
def many (p : Char → Bool) : Language Char := one p * (one p)∗

@[simp] theorem cons_mem_one_mul {p : Char → Bool} {l : Language Char} {c : Char}
    {cs : List Char} : c :: cs ∈ one p * l ↔ p c = true ∧ cs ∈ l := by
  rw [Language.mem_mul]
  constructor
  · rintro ⟨_, ⟨d, hd, rfl⟩, w, hw, heq⟩
    obtain ⟨rfl, rfl⟩ := List.cons.inj heq
    exact ⟨hd, hw⟩
  · rintro ⟨hc, hcs⟩
    exact ⟨[c], ⟨c, hc, rfl⟩, cs, hcs, rfl⟩

@[simp] theorem nil_not_mem_one_mul {p : Char → Bool} {l : Language Char} : [] ∉ one p * l := by
  rw [Language.mem_mul]
  rintro ⟨_, ⟨d, -, rfl⟩, w, -, heq⟩
  exact List.cons_ne_nil _ _ heq

/-- What begins with a repetition begins with what follows it, or with one round of it. -/
theorem kstar_mul_eq (l m : Language Char) : l∗ * m = m + l * (l∗ * m) := by
  calc l∗ * m = (1 + l * l∗) * m := by rw [Language.one_add_self_mul_kstar_eq_kstar]
    _ = m + l * (l∗ * m) := by rw [add_mul, one_mul, mul_assoc]

theorem kstar_eq (l : Language Char) : l∗ = 1 + l * l∗ :=
  (Language.one_add_self_mul_kstar_eq_kstar l).symm

@[simp] theorem mem_kstar_one {p : Char → Bool} {w : List Char} :
    w ∈ (one p)∗ ↔ w.all p = true := by
  -- On the text: a repetition is nothing, or one round and a repetition.
  induction w with
  | nil =>
    rw [kstar_eq, Language.mem_add]
    simp
  | cons c cs ih =>
    rw [kstar_eq, Language.mem_add, cons_mem_one_mul, ih]
    simp [Language.mem_one]

@[simp] theorem mem_many {p : Char → Bool} {w : List Char} :
    w ∈ many p ↔ w ≠ [] ∧ w.all p = true := by
  cases w with
  | nil => simp [many]
  | cons c cs => simp [many]

/-! ### Identifiers and references -/

/-- `[a-z][a-z0-9_-]*` -/
def identPattern : Language Char := one isSmall * (one isIdentChar)∗

/-- `[a-z][a-z0-9_-]*\.[a-z][a-z0-9_-]*` -/
def secretRefPattern : Language Char := identPattern * (one (· == '.') * identPattern)

theorem identChars_iff {s : List Char} : identChars s = true ↔ s ∈ identPattern := by
  cases s with
  | nil => simp [identChars, identPattern]
  | cons c cs => simp [identChars, identPattern]

/-- **Identifiers are a small letter and then letters, digits, hyphens and underscores.** -/
theorem isIdent_iff {s : String} : isIdent s = true ↔ s.toList ∈ identPattern := identChars_iff

/-- The rest of a reference is a point and a key, or one more character of its service. -/
theorem secretTail_iff {s : List Char} :
    secretTail s = true ↔ s ∈ (one isIdentChar)∗ * (one (· == '.') * identPattern) := by
  induction s with
  | nil =>
    rw [kstar_mul_eq, Language.mem_add]
    simp [secretTail]
  | cons c cs ih =>
    rw [kstar_mul_eq, Language.mem_add, cons_mem_one_mul, cons_mem_one_mul, ← ih, ← identChars_iff]
    by_cases hc : c = '.'
    · -- A point is no character of an identifier, so it ends the service.
      have hpoint : isIdentChar '.' = false := by decide
      simp [secretTail, hc, hpoint]
    · simp [secretTail, hc]

/-- **References are two identifiers with a point between them.** -/
theorem isSecretRef_iff {s : String} : isSecretRef s = true ↔ s.toList ∈ secretRefPattern := by
  rw [secretRefPattern, identPattern, mul_assoc]
  unfold isSecretRef
  cases s.toList with
  | nil => simp
  | cons c cs =>
    rw [cons_mem_one_mul, ← identPattern, ← secretTail_iff]
    simp

/-- A reference is two identifiers with a point between them; identifiers themselves have none
(`not_mem_of_mem_identPattern`). -/
theorem mem_secretRefPattern_iff {w : List Char} : w ∈ secretRefPattern ↔
    ∃ service ∈ identPattern, ∃ key ∈ identPattern, w = service ++ '.' :: key := by
  rw [secretRefPattern, Language.mem_mul]
  constructor
  · rintro ⟨service, hservice, rest, hrest, rfl⟩
    cases rest with
    | nil => exact absurd hrest nil_not_mem_one_mul
    | cons c key =>
      obtain ⟨hpoint, hkey⟩ := cons_mem_one_mul.mp hrest
      obtain rfl : c = '.' := eq_of_beq hpoint
      exact ⟨service, hservice, key, hkey, rfl⟩
  · rintro ⟨service, hservice, key, hkey, rfl⟩
    exact ⟨service, hservice, '.' :: key, cons_mem_one_mul.mpr ⟨rfl, hkey⟩, rfl⟩

theorem not_mem_of_mem_identPattern {w : List Char} (h : w ∈ identPattern) : '.' ∉ w := by
  have hpoint : isSmall '.' = false ∧ isIdentChar '.' = false := by decide
  intro hmem
  rw [← identChars_iff] at h
  cases w with
  | nil => cases hmem
  | cons c cs =>
    simp only [identChars, Bool.and_eq_true, List.all_eq_true] at h
    -- Neither the first letter nor a later character of an identifier is a point.
    rcases List.mem_cons.mp hmem with rfl | hrest
    · simp [hpoint.1] at h
    · simpa [hpoint.2] using h.2 _ hrest

/-! ### Kebab-case -/

/-- `-[a-z0-9]+` -/
def kebabGroup : Language Char := one (· == '-') * many isSmallOrDigit

/-- `[a-z0-9]*(-[a-z0-9]+)*` -/
def kebabRest : Language Char := (one isSmallOrDigit)∗ * kebabGroup∗

/-- `[a-z][a-z0-9]*(-[a-z0-9]+)*` -/
def kebabPattern : Language Char := one isSmall * (one isSmallOrDigit)∗ * kebabGroup∗

/-- What may come first after the first letter: nothing, a hyphen before a letter or digit, or a
letter or digit. -/
theorem kebabRest_eq : kebabRest =
    1 + one (· == '-') * (one isSmallOrDigit * kebabRest) + one isSmallOrDigit * kebabRest := by
  have hgroups : kebabGroup∗ = 1 + one (· == '-') * (one isSmallOrDigit * kebabRest) := by
    -- A group takes a hyphen and one character, and more characters and groups may follow.
    calc kebabGroup∗ = 1 + kebabGroup * kebabGroup∗ := kstar_eq _
      _ = 1 + one (· == '-') * (one isSmallOrDigit * kebabRest) := by
        simp only [kebabGroup, many, kebabRest, mul_assoc]
  calc kebabRest = kebabGroup∗ + one isSmallOrDigit * kebabRest := kstar_mul_eq _ _
    _ = _ := by rw [hgroups]

theorem nil_mem_kebabRest : [] ∈ kebabRest := by
  rw [kebabRest_eq, Language.mem_add, Language.mem_add]
  exact .inl (.inl Language.nil_mem_one)

theorem cons_mem_kebabRest {c : Char} {cs : List Char} : c :: cs ∈ kebabRest ↔
    (c = '-' ∧ cs ∈ one isSmallOrDigit * kebabRest) ∨
      (isSmallOrDigit c = true ∧ cs ∈ kebabRest) := by
  rw [kebabRest_eq, Language.mem_add, Language.mem_add, cons_mem_one_mul, cons_mem_one_mul,
    ← kebabRest_eq]
  simp [Language.mem_one]

theorem kebabTail_iff {s : List Char} : kebabTail s = true ↔ s ∈ kebabRest := by
  have hhyphen : isSmallOrDigit '-' = false := by decide
  fun_induction kebabTail s with
  | case1 => simp [nil_mem_kebabRest]
  | case2 c cs ih => simp [cons_mem_kebabRest, hhyphen, ih]
  | case3 c cs hnot ih =>
    have hrest : kebabTail cs = true ↔ cs ∈ kebabRest := ih
    rw [Bool.and_eq_true, hrest, cons_mem_kebabRest]
    -- A hyphen here is the last character, and no group follows it.
    refine ⟨Or.inr, fun h => h.resolve_left ?_⟩
    rintro ⟨rfl, hmem⟩
    cases cs with
    | nil => exact nil_not_mem_one_mul hmem
    | cons d ds => exact hnot d ds rfl rfl

/-- **Kebab-case is groups joined by single hyphens, with a letter first.** -/
theorem isKebab_iff {s : String} : isKebab s = true ↔ s.toList ∈ kebabPattern := by
  rw [kebabPattern, mul_assoc, ← kebabRest]
  unfold isKebab
  cases s.toList with
  | nil => simp
  | cons c cs => simp [kebabTail_iff]

/-! ### Versions -/

/-- `[0-9]+\.[0-9]+` -/
def versionPattern : Language Char := many isDigit * (one (· == '.') * many isDigit)

/-- **Versions are two numbers with a point between them.** -/
theorem isVersion_iff {s : String} : isVersion s = true ↔ s.toList ∈ versionPattern := by
  rw [versionPattern, Language.mem_mul]
  constructor
  · intro h
    unfold isVersion at h
    split at h
    · cases h
    · next major minor hsplit =>
      simp only [Bool.and_eq_true, Bool.not_eq_true', List.isEmpty_eq_false_iff] at h
      obtain ⟨⟨⟨hmajor, hdigits⟩, hminor⟩, hdigits'⟩ := h
      exact ⟨major, mem_many.mpr ⟨hmajor, hdigits⟩, '.' :: minor,
        cons_mem_one_mul.mpr ⟨rfl, mem_many.mpr ⟨hminor, hdigits'⟩⟩,
        (append_of_splitFirst hsplit).1.symm⟩
  · rintro ⟨major, hmajor, w, hw, heq⟩
    cases w with
    | nil => exact absurd hw nil_not_mem_one_mul
    | cons c minor =>
      obtain ⟨hc, hminor⟩ := cons_mem_one_mul.mp hw
      obtain rfl : c = '.' := by simpa using hc
      -- A point is no digit, so the first point is the one between the numbers.
      have hpoint : '.' ∉ major := by
        intro hmem
        have hdigit := List.all_eq_true.mp (mem_many.mp hmajor).2 '.' hmem
        revert hdigit
        decide
      rw [mem_many] at hmajor hminor
      rw [isVersion, ← heq, splitFirst_append hpoint]
      simp [hmajor.1, hmajor.2, hminor.1, hminor.2]

end WorkflowPolicy.Text
