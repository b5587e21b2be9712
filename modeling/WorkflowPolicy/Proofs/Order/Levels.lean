import Mathlib
import WorkflowPolicy.Proofs.Order.Sorting

/-!
# Elements on one level

An order that is transitive and total need not tell all elements apart. Those that come before each
other stand on one level, and a sorted list has them in the order in which they were given. So a
sorted list shows in which order it was given exactly as far as different elements stand on one
level.

* Elements that are equal or on different levels may be given in any order
  (`sortBy_append_of_perm`).
* Dropping repeats from a sorted list leaves each element once, unless two different elements of one
  level alternate in the list that was given (`nodup_dropRepeats_sortBy_iff`).

No two texts stand on one level. So a set of texts has one list in ascending order
(`ascending_congr`).
-/

namespace WorkflowPolicy

variable {α : Type} {le : α → α → Bool}

/-- **Two elements on one level**: each may come before the other. -/
def SameLevel (le : α → α → Bool) (a b : α) : Prop := le a b = true ∧ le b a = true

instance (le : α → α → Bool) (a b : α) : Decidable (SameLevel le a b) :=
  inferInstanceAs (Decidable (_ ∧ _))

theorem SameLevel.symm {a b : α} (h : SameLevel le a b) : SameLevel le b a := ⟨h.2, h.1⟩

theorem SameLevel.trans (trans : ∀ a b c, le a b → le b c → le a c) {a b c : α}
    (hab : SameLevel le a b) (hbc : SameLevel le b c) : SameLevel le a c :=
  ⟨trans a b c hab.1 hbc.1, trans c b a hbc.2 hab.2⟩

/-! ### The order in which elements are given -/

/-- An element is put before another one of a later level, whichever is put in first. -/
theorem insertBy_comm_of_lt (trans : ∀ a b c, le a b → le b c → le a c) {x y : α}
    (hxy : le x y = true) (hyx : ¬ le y x = true) (zs : List α) :
    insertBy le x (insertBy le y zs) = insertBy le y (insertBy le x zs) := by
  -- Three places are left for the two: both before `z`, one on each side of it, or both behind it.
  induction zs with
  | nil => simp [insertBy, hxy, hyx]
  | cons z zs ih =>
    by_cases hyz : le y z = true
    · -- Then `x` is at the front and `y` directly behind it.
      have hxz := trans x y z hxy hyz
      rw [insertBy, if_pos hyz, insertBy, if_pos hxy, insertBy, if_pos hxz, insertBy, if_neg hyx,
        insertBy, if_pos hyz]
    · by_cases hxz : le x z = true
      · rw [insertBy, if_neg hyz, insertBy, if_pos hxz, insertBy, if_pos hxz, insertBy,
          if_neg hyx, insertBy, if_neg hyz]
      · rw [insertBy, if_neg hyz, insertBy, if_neg hxz, insertBy, if_neg hxz, insertBy,
          if_neg hyz, ih]

/-- Elements that are equal or on different levels may be put in either order. -/
theorem insertBy_comm (trans : ∀ a b c, le a b → le b c → le a c)
    (total : ∀ a b, le a b ∨ le b a) {x y : α} (h : SameLevel le x y → x = y) (zs : List α) :
    insertBy le x (insertBy le y zs) = insertBy le y (insertBy le x zs) := by
  by_cases hxy : le x y = true
  · by_cases hyx : le y x = true
    · rw [h ⟨hxy, hyx⟩]
    · exact insertBy_comm_of_lt trans hxy hyx zs
  · have hyx := (total x y).resolve_left hxy
    exact (insertBy_comm_of_lt trans hyx hxy zs).symm

theorem sortBy_append (xs zs : List α) :
    sortBy le (xs ++ zs) = xs.foldr (insertBy le) (sortBy le zs) := by
  induction xs with
  | nil => rfl
  | cons x xs ih => rw [List.cons_append, sortBy, ih, List.foldr_cons]

/-- **Elements that are equal or on different levels may be given in any order**, whatever is given
after them. -/
theorem sortBy_append_of_perm (trans : ∀ a b c, le a b → le b c → le a c)
    (total : ∀ a b, le a b ∨ le b a) {xs ys : List α} (hperm : xs.Perm ys)
    (h : ∀ a ∈ xs, ∀ b ∈ xs, SameLevel le a b → a = b) (zs : List α) :
    sortBy le (xs ++ zs) = sortBy le (ys ++ zs) := by
  rw [sortBy_append, sortBy_append]
  refine hperm.foldr_eq' (fun a ha b hb rest => ?_) (sortBy le zs)
  exact insertBy_comm trans total (h b hb a ha) rest

/-! ### One level of a list -/

/-- A list on one level is sorted as it is. -/
theorem sortBy_eq_self {xs : List α} (h : ∀ a ∈ xs, ∀ b ∈ xs, le a b = true) :
    sortBy le xs = xs := by
  induction xs with
  | nil => rfl
  | cons x xs ih =>
    have hrest := ih fun a ha b hb => h a (List.mem_cons_of_mem x ha) b (List.mem_cons_of_mem x hb)
    rw [sortBy, hrest]
    exact insertBy_eq_cons fun b hb => h x List.mem_cons_self b (List.mem_cons_of_mem x hb)

/-- The elements of a list on the level of the given one. -/
def levelOf (le : α → α → Bool) (a : α) (xs : List α) : List α :=
  xs.filter fun b => SameLevel le a b

/-- Elements on one level have the same level. -/
theorem levelOf_congr (trans : ∀ a b c, le a b → le b c → le a c) {a b : α}
    (hab : SameLevel le a b) (xs : List α) : levelOf le a xs = levelOf le b xs :=
  List.filter_congr fun _ _ =>
    decide_eq_decide.mpr ⟨hab.symm.trans trans, hab.trans trans⟩

/-- **A sorted list has the elements of a level in the order in which they were given.** -/
theorem levelOf_sortBy (trans : ∀ a b c, le a b → le b c → le a c)
    (total : ∀ a b, le a b ∨ le b a) (a : α) (xs : List α) :
    levelOf le a (sortBy le xs) = levelOf le a xs := by
  rw [levelOf, filter_sortBy trans total, ← levelOf]
  refine sortBy_eq_self fun b hb c hc => ?_
  have hab : SameLevel le a b := by simpa using (List.mem_filter.mp hb).2
  have hac : SameLevel le a c := by simpa using (List.mem_filter.mp hc).2
  exact (hab.symm.trans trans hac).1

section Repeats

variable [DecidableEq α]

/-- Dropping repeats keeps the first element. -/
theorem head?_dropRepeats (xs : List α) : (dropRepeats xs).head? = xs.head? := by
  fun_induction dropRepeats xs with
  | case1 => rfl
  | case2 x => rfl
  | case3 y rest ih => exact ih
  | case4 x y rest hne ih => rfl

/-- **The first element of a level** that a list is sorted to is the first that was given. -/
theorem head?_levelOf_dropRepeats (trans : ∀ a b c, le a b → le b c → le a c)
    (total : ∀ a b, le a b ∨ le b a) (a : α) (xs : List α) :
    (levelOf le a (dropRepeats (sortBy le xs))).head? = (levelOf le a xs).head? := by
  have hlevel : ∀ b c, le b c = true → le c b = true →
      decide (SameLevel le a b) = decide (SameLevel le a c) := by
    intro b c hbc hcb
    exact decide_eq_decide.mpr ⟨fun hab => hab.trans trans ⟨hbc, hcb⟩,
      fun hac => hac.trans trans ⟨hcb, hbc⟩⟩
  calc (levelOf le a (dropRepeats (sortBy le xs))).head?
      = (dropRepeats (levelOf le a (sortBy le xs))).head? := by
        rw [levelOf, filter_dropRepeats hlevel (pairwise_sortBy trans total xs), levelOf]
    _ = (levelOf le a (sortBy le xs)).head? := head?_dropRepeats _
    _ = (levelOf le a xs).head? := by rw [levelOf_sortBy trans total]

/-- **Dropping repeats leaves each element once** exactly if nothing stands between two equal
elements. -/
theorem nodup_dropRepeats_iff (xs : List α) :
    (dropRepeats xs).Nodup ↔ ∀ a b, a ≠ b → ¬ [a, b, a].Sublist xs := by
  fun_induction dropRepeats xs with
  | case1 => simp
  | case2 x =>
    refine iff_of_true (List.nodup_singleton x) fun a b _ hsub => ?_
    have hlength := hsub.length_le
    simp at hlength
  | case3 y rest ih =>
    rw [ih]
    refine forall₃_congr fun a b hne => not_congr ⟨fun hsub => hsub.cons y, fun hsub => ?_⟩
    rcases List.cons_sublist_cons'.mp hsub with hsub | ⟨rfl, hsub⟩
    · exact hsub
    · -- What stands between the two is not `a`, so it comes after the second `a`.
      rcases List.cons_sublist_cons'.mp hsub with hsub | ⟨rfl, -⟩
      · exact hsub.cons_cons a
      · exact absurd rfl hne
  | case4 x y rest hne ih =>
    rw [List.nodup_cons, mem_dropRepeats, ih]
    constructor
    · rintro ⟨hfresh, hrest⟩ a b hab hsub
      -- An element with another one between it and itself stands in the rest, or is the one in
      -- front.
      rcases List.cons_sublist_cons'.mp hsub with hlater | ⟨rfl, hlater⟩
      · exact hrest a b hab hlater
      · exact hfresh (hlater.mem (List.mem_cons_of_mem b List.mem_cons_self))
    · intro hnone
      refine ⟨fun hmem => ?_, fun a b hab hsub => hnone a b hab (hsub.cons x)⟩
      have hlater : x ∈ rest := (List.mem_cons.mp hmem).resolve_left hne
      -- If the element in front comes again, the one behind it stands between.
      exact hnone x y hne (((List.singleton_sublist.mpr hlater).cons_cons y).cons_cons x)

/-- The elements that stay are each listed once where all of them are. -/
theorem filter_distinct (keep : α → Bool) (xs : List α) :
    (distinct xs).filter keep = distinct (xs.filter keep) := by
  induction xs with
  | nil => rfl
  | cons x xs ih =>
    cases hx : keep x with
    | true =>
      rw [distinct, List.filter_cons_of_pos hx, List.filter_cons_of_pos hx, distinct,
        List.filter_comm, ih]
    | false =>
      rw [distinct, List.filter_cons_of_neg (by simp [hx]), List.filter_cons_of_neg (by simp [hx]),
        List.filter_comm, ih]
      -- What is left out does not occur among what stays.
      refine List.filter_eq_self.mpr fun y hy => ?_
      have hkeep : keep y = true := (List.mem_filter.mp (mem_distinct.mp hy)).2
      rw [bne_iff_ne]
      rintro rfl
      rw [hx] at hkeep
      cases hkeep

/-- **Dropping repeats lists each element once**, if none of them comes again later. -/
theorem dropRepeats_eq_distinct {xs : List α} (h : (dropRepeats xs).Nodup) :
    dropRepeats xs = distinct xs := by
  fun_induction dropRepeats xs with
  | case1 => rfl
  | case2 x => rfl
  | case3 y rest ih =>
    rw [ih h]
    simp [distinct, List.filter_filter]
  | case4 x y rest hne ih =>
    obtain ⟨hfresh, hrest⟩ := List.nodup_cons.mp h
    rw [ih hrest, distinct]
    rw [mem_dropRepeats] at hfresh
    refine congrArg (x :: ·) (List.filter_eq_self.mpr fun z hz => ?_).symm
    rw [bne_iff_ne]
    rintro rfl
    exact hfresh (mem_distinct.mp hz)

/-- **Elements may be left out before or after repeats are dropped**, if each is left once: what
stands between two equal elements is equal to them. -/
theorem filter_dropRepeats_of_nodup {xs : List α} (h : (dropRepeats xs).Nodup)
    (keep : α → Bool) : (dropRepeats xs).filter keep = dropRepeats (xs.filter keep) := by
  have hkept : (dropRepeats (xs.filter keep)).Nodup := by
    rw [nodup_dropRepeats_iff] at h ⊢
    exact fun a b hne hsub => h a b hne (hsub.trans List.filter_sublist)
  rw [dropRepeats_eq_distinct h, dropRepeats_eq_distinct hkept, filter_distinct]

/-- **Sorting and dropping repeats leave each element once**, unless two different elements of one
level alternate. -/
theorem nodup_dropRepeats_sortBy_iff (trans : ∀ a b c, le a b → le b c → le a c)
    (total : ∀ a b, le a b ∨ le b a) (xs : List α) :
    (dropRepeats (sortBy le xs)).Nodup ↔
      ∀ a b, a ≠ b → SameLevel le a b → ¬ [a, b, a].Sublist xs := by
  have hsorted := pairwise_sortBy trans total xs
  have hrefl : ∀ a, SameLevel le a a := fun a => by
    have haa := (total a a).elim id id
    exact ⟨haa, haa⟩
  -- Elements that alternate are all on the level of the first, where sorting changes nothing.
  have hlevel : ∀ {a b : α} {ys : List α}, SameLevel le a b →
      ([a, b, a].Sublist ys ↔ [a, b, a].Sublist (levelOf le a ys)) := by
    intro a b ys hab
    constructor
    · intro hsub
      have hkept := hsub.filter fun c => decide (SameLevel le a c)
      simpa [levelOf, hab, hrefl a] using hkept
    · exact fun hsub => hsub.trans List.filter_sublist
  rw [nodup_dropRepeats_iff]
  constructor
  · intro hnone a b hne hab hsub
    refine hnone a b hne ((hlevel hab).mpr ?_)
    rw [levelOf_sortBy trans total]
    exact (hlevel hab).mp hsub
  · intro hnone a b hne hsub
    have hpairs : ∀ {c d : α}, [c, d].Sublist (sortBy le xs) → le c d = true :=
      List.pairwise_iff_forall_sublist.mp hsorted
    have hab : SameLevel le a b :=
      ⟨hpairs ((List.sublist_append_left [a, b] [a]).trans hsub),
        hpairs ((List.sublist_cons_self a [b, a]).trans hsub)⟩
    refine hnone a b hne hab ((hlevel hab).mpr ?_)
    rw [← levelOf_sortBy trans total]
    exact (hlevel hab).mp hsub

/-- Dropping repeats leaves out elements and does nothing else. -/
theorem dropRepeats_sublist (xs : List α) : (dropRepeats xs).Sublist xs := by
  fun_induction dropRepeats xs with
  | case1 => exact .slnil
  | case2 x => exact .refl _
  | case3 y rest ih => exact ih.cons y
  | case4 x y rest hne ih => exact ih.cons_cons x

/-- Where no two elements stand on one level, each of those left precedes all later ones. -/
theorem pairwise_dropRepeats_sortBy (trans : ∀ a b c, le a b → le b c → le a c)
    (total : ∀ a b, le a b ∨ le b a) (apart : ∀ a b, SameLevel le a b → a = b) (xs : List α) :
    (dropRepeats (sortBy le xs)).Pairwise fun a b => le a b = true ∧ a ≠ b := by
  have hnodup : (dropRepeats (sortBy le xs)).Nodup :=
    (nodup_dropRepeats_sortBy_iff trans total xs).mpr fun a b hne hab => absurd (apart a b hab) hne
  exact ((pairwise_sortBy trans total xs).sublist (dropRepeats_sublist _)).and hnodup

/-- **Lists of the same elements are sorted to the same list**, if no two elements stand on one
level. -/
theorem dropRepeats_sortBy_congr (trans : ∀ a b c, le a b → le b c → le a c)
    (total : ∀ a b, le a b ∨ le b a) (apart : ∀ a b, SameLevel le a b → a = b) {xs ys : List α}
    (h : ∀ a, a ∈ xs ↔ a ∈ ys) : dropRepeats (sortBy le xs) = dropRepeats (sortBy le ys) := by
  have : Std.Antisymm fun a b => le a b = true ∧ a ≠ b :=
    ⟨fun a b hab hba => apart a b ⟨hab.1, hba.1⟩⟩
  have : Std.Irrefl fun a b => le a b = true ∧ a ≠ b := ⟨fun a ha => ha.2 rfl⟩
  -- A list that rises strictly is determined by its elements.
  refine (pairwise_dropRepeats_sortBy trans total apart xs).eq_of_mem_iff
    (pairwise_dropRepeats_sortBy trans total apart ys) fun a => ?_
  simp only [mem_dropRepeats, mem_sortBy, h]

/-- Of one element given any number of times one is left. -/
theorem dropRepeats_replicate (a : α) (n : ℕ) : dropRepeats (List.replicate (n + 1) a) = [a] := by
  induction n with
  | zero => rfl
  | succ n ih => rw [List.replicate_succ, List.replicate_succ, dropRepeats_cons_self,
      ← List.replicate_succ, ih]

end Repeats

/-! ### Texts in ascending order -/

/-- Texts in ascending order, of which none occurs twice, rise. -/
theorem pairwise_lt_of_nodup {xs : List String} (h : xs.Pairwise (· ≤ ·)) (hnodup : xs.Nodup) :
    xs.Pairwise (· < ·) :=
  (h.and hnodup).imp fun ⟨hle, hne⟩ => lt_of_le_of_ne hle hne

/-- The order of texts as `sortTexts` uses it is transitive. -/
theorem texts_trans (a b c : String) (hab : decide (a ≤ b) = true) (hbc : decide (b ≤ c) = true) :
    decide (a ≤ c) = true := by
  rw [decide_eq_true_eq] at *
  exact le_trans hab hbc

/-- It is total. -/
theorem texts_total (a b : String) : decide (a ≤ b) = true ∨ decide (b ≤ a) = true := by
  rw [decide_eq_true_eq, decide_eq_true_eq]
  exact le_total a b

theorem pairwise_sortTexts (xs : List String) : (sortTexts xs).Pairwise (· ≤ ·) :=
  (pairwise_sortBy texts_trans texts_total xs).imp of_decide_eq_true

/-- It tells all texts apart. -/
theorem texts_apart (a b : String) (h : SameLevel (fun a b => decide (a ≤ b)) a b) : a = b :=
  le_antisymm (of_decide_eq_true h.1) (of_decide_eq_true h.2)

/-- **The set of some texts rises.** -/
theorem pairwise_ascending (xs : List String) : (ascending xs).Pairwise (· < ·) :=
  (pairwise_dropRepeats_sortBy texts_trans texts_total texts_apart xs).imp fun ⟨hle, hne⟩ =>
    lt_of_le_of_ne (of_decide_eq_true hle) hne

/-- **Lists of the same texts have the same set.** -/
theorem ascending_congr {xs ys : List String} (h : ∀ a, a ∈ xs ↔ a ∈ ys) :
    ascending xs = ascending ys :=
  dropRepeats_sortBy_congr texts_trans texts_total texts_apart h

end WorkflowPolicy
