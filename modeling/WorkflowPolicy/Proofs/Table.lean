import Mathlib.Data.List.Induction
import Mathlib.Data.List.Nodup
import WorkflowPolicy.Table

/-!
# Tables from lists of entries

A table is built by inserting entries one after the other. Entries with different keys may be
inserted in any order (`Table.insert_comm`), so a list in which no key occurs twice gives the same
table in every order (`Table.ofList_eq_of_perm`). The entries of a table, inserted in their own
order, give the table back (`Table.ofList_entries`). In general a table has of every key the last
entry of the list (`Table.mem_ofList_iff`).
-/

namespace WorkflowPolicy

variable {α : Type}

/-- **Entries with different keys may be inserted in either order.** -/
theorem insertEntry_comm {k k' : String} (h : k ≠ k') (v v' : α) (entries : List (String × α)) :
    insertEntry k v (insertEntry k' v' entries) = insertEntry k' v' (insertEntry k v entries) := by
  -- Both keys are compared with one another and with the keys they pass on the way.
  have hlt : k < k' ∨ k' < k := by
    by_contra hnot
    rw [not_or, String.not_lt, String.not_lt] at hnot
    exact h (String.le_antisymm hnot.2 hnot.1)
  have hasymm : ∀ {a b : String}, a < b → ¬ b < a := fun hab hba =>
    String.lt_irrefl _ (String.lt_trans hab hba)
  induction entries with
  | nil =>
    rcases hlt with hlt | hlt <;> simp [insertEntry, hlt, hasymm hlt, h, h.symm]
  | cons e entries ih =>
    obtain ⟨x, w⟩ := e
    simp only [insertEntry]
    by_cases hk : k < x <;> by_cases hk' : k' < x
    · rcases hlt with hlt | hlt <;> simp [insertEntry, hk, hk', hlt, hasymm hlt, h, h.symm]
    · have hlt : k < k' := by
        rcases hlt with hlt | hlt
        · exact hlt
        · exact absurd (String.lt_trans hlt hk) hk'
      by_cases heq : k' = x
      · subst heq
        simp [insertEntry, hk, hasymm hlt, h.symm]
      · simp [insertEntry, hk, hk', heq, hasymm hlt, h.symm]
    · have hlt : k' < k := by
        rcases hlt with hlt | hlt
        · exact absurd (String.lt_trans hlt hk') hk
        · exact hlt
      by_cases heq : k = x
      · subst heq
        simp [insertEntry, hk', hasymm hlt, h]
      · simp [insertEntry, hk, hk', heq, hasymm hlt, h]
    · by_cases heq : k = x <;> by_cases heq' : k' = x
      · exact absurd (heq.trans heq'.symm) h
      · subst heq
        simp [insertEntry, hk', heq']
      · subst heq'
        simp [insertEntry, hk, heq]
      · simp [insertEntry, hk, hk', heq, heq', ih]

/-- A key behind all others is inserted at the end. -/
theorem insertEntry_of_forall_lt {k : String} {v : α} {entries : List (String × α)}
    (h : ∀ e ∈ entries, e.1 < k) : insertEntry k v entries = entries ++ [(k, v)] := by
  induction entries with
  | nil => rfl
  | cons e entries ih =>
    have hlt : e.1 < k := h e List.mem_cons_self
    have hnot : ¬ k < e.1 := fun hgt => String.lt_irrefl _ (String.lt_trans hlt hgt)
    have hne : k ≠ e.1 := fun heq => String.lt_irrefl _ (heq ▸ hlt)
    rw [insertEntry, if_neg hnot, if_neg hne, ih fun e' he => h e' (List.mem_cons_of_mem _ he)]
    rfl

/-- A new entry takes the place of all that have its key. -/
theorem mem_insertEntry_iff {k : String} {v : α} {e : String × α} {entries : List (String × α)}
    (h : (entries.map Prod.fst).Pairwise (· < ·)) :
    e ∈ insertEntry k v entries ↔ e = (k, v) ∨ e.1 ≠ k ∧ e ∈ entries := by
  induction entries with
  | nil => simp [insertEntry]
  | cons e' entries ih =>
    rw [List.map_cons, List.pairwise_cons] at h
    -- The keys ascend, so the key of an entry does not come again behind it.
    have hne : ∀ x ∈ entries, x.1 ≠ e'.1 := fun x hx heq =>
      String.lt_irrefl _ (heq ▸ h.1 x.1 (List.mem_map_of_mem hx))
    unfold insertEntry
    split
    · next hlt =>
      have hnone : ∀ x ∈ e' :: entries, x.1 ≠ k := by
        intro x hx heq
        rcases List.mem_cons.mp hx with rfl | hx
        · exact String.lt_irrefl _ (heq ▸ hlt)
        · have hbehind : e'.1 < x.1 := h.1 x.1 (List.mem_map_of_mem hx)
          exact String.lt_irrefl _ (String.lt_trans hlt (heq ▸ hbehind))
      rw [List.mem_cons]
      exact or_congr_right ⟨fun hx => ⟨hnone e hx, hx⟩, fun hx => hx.2⟩
    · split
      · next heq =>
        subst heq
        rw [List.mem_cons, List.mem_cons]
        refine or_congr_right ⟨fun hx => ⟨hne e hx, .inr hx⟩, fun hx => ?_⟩
        exact hx.2.resolve_left fun heq => hx.1 (by rw [heq])
      · next hkey =>
        rw [List.mem_cons, ih h.2, List.mem_cons]
        have hfirst : e = e' → e.1 ≠ k := fun heq hk => hkey (by rw [← hk, heq])
        tauto

namespace Table

theorem insert_ne_empty (t : Table α) (k : String) (v : α) : t.insert k v ≠ .empty := by
  intro h
  have hkey : k ∈ (t.insert k v).keys := mem_keys_insert.mpr (.inl rfl)
  rw [h] at hkey
  cases hkey

theorem insert_comm (t : Table α) {k k' : String} (h : k ≠ k') (v v' : α) :
    (t.insert k v).insert k' v' = (t.insert k' v').insert k v :=
  Table.ext (insertEntry_comm h.symm v' v t.entries)

/-- **The order of entries does not matter** where no key occurs twice. -/
theorem ofList_eq_of_perm {entries entries' : List (String × α)} (h : entries.Perm entries')
    (hkeys : (entries.map Prod.fst).Nodup) : ofList entries = ofList entries' := by
  refine h.foldl_eq' (fun e he e' he' t => ?_) empty
  by_cases heq : e = e'
  · rw [heq]
  · have hne : e.1 ≠ e'.1 := fun hkey => heq (List.inj_on_of_nodup_map hkeys he he' hkey)
    exact t.insert_comm hne e.2 e'.2

/-- **A table is the table of its entries.** -/
theorem ofList_entries (t : Table α) : ofList t.entries = t := by
  have hinsert : ∀ (rest : List (String × α)) (s : Table α),
      ((s.entries ++ rest).map Prod.fst).Pairwise (· < ·) →
        (rest.foldl (fun u e => u.insert e.1 e.2) s).entries = s.entries ++ rest := by
    intro rest
    induction rest with
    | nil =>
      intro s _
      rw [List.foldl_nil, List.append_nil]
    | cons e rest ih =>
      intro s hsorted
      -- All keys before the entry are smaller, so it goes to the end.
      have hlt : ∀ e' ∈ s.entries, e'.1 < e.1 := by
        intro e' he'
        rw [List.map_append, List.pairwise_append] at hsorted
        exact hsorted.2.2 _ (List.mem_map_of_mem he') _ List.mem_cons_self
      have hend : (s.insert e.1 e.2).entries = s.entries ++ [e] := insertEntry_of_forall_lt hlt
      rw [List.foldl_cons, ih, hend, List.append_assoc, List.singleton_append]
      rw [hend, List.append_assoc, List.singleton_append]
      exact hsorted
  exact Table.ext (hinsert t.entries empty t.sorted)

theorem ofList_append_singleton (entries : List (String × α)) (e : String × α) :
    ofList (entries ++ [e]) = (ofList entries).insert e.1 e.2 := by
  rw [ofList, List.foldl_append, List.foldl_cons, List.foldl_nil, ofList]

/-- **Of every key the last entry counts.** -/
theorem mem_ofList_iff {entries : List (String × α)} {e : String × α} :
    e ∈ (ofList entries).entries ↔
      ∃ before after, entries = before ++ e :: after ∧ ∀ e' ∈ after, e'.1 ≠ e.1 := by
  induction entries using List.reverseRecOn with
  | nil =>
    refine iff_of_false List.not_mem_nil ?_
    rintro ⟨before, after, heq, -⟩
    exact List.cons_ne_nil _ _ (List.append_eq_nil_iff.mp heq.symm).2
  | append_singleton entries last ih =>
    rw [ofList_append_singleton, entries_insert, mem_insertEntry_iff (ofList entries).sorted, ih]
    constructor
    · rintro (rfl | ⟨hne, before, after, rfl, hafter⟩)
      · exact ⟨entries, [], rfl, fun _ h => absurd h List.not_mem_nil⟩
      · refine ⟨before, after ++ [last], by simp, fun e' he' => ?_⟩
        rcases List.mem_append.mp he' with he' | he'
        · exact hafter e' he'
        · rw [List.mem_singleton.mp he']
          exact hne.symm
    · rintro ⟨before, after, heq, hafter⟩
      -- The last entry is this one, or one of those behind it.
      rcases List.eq_nil_or_concat after with rfl | ⟨after, x, rfl⟩
      · exact .inl (List.singleton_inj.mp (List.append_inj' heq rfl).2).symm
      · right
        rw [List.concat_eq_append] at heq hafter
        have hsplit : before ++ e :: (after ++ [x]) = (before ++ e :: after) ++ [x] := by simp
        obtain ⟨rfl, hlast⟩ := List.append_inj' (heq.trans hsplit) rfl
        obtain rfl := List.singleton_inj.mp hlast
        exact ⟨(hafter last (by simp)).symm, before, after, rfl,
          fun e' he' => hafter e' (List.mem_append_left _ he')⟩

/-- The keys of a table are those of its list. -/
theorem mem_keys_ofList {entries : List (String × α)} {k : String} :
    k ∈ (ofList entries).keys ↔ k ∈ entries.map Prod.fst := by
  induction entries using List.reverseRecOn with
  | nil => exact Iff.rfl
  | append_singleton entries last ih =>
    rw [ofList_append_singleton, mem_keys_insert, ih, List.map_append, List.mem_append, or_comm]
    simp

end Table

end WorkflowPolicy
