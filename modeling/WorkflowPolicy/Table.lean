/-!
# Tables

A finite map from texts, as the list of its entries in ascending order of the keys. The order is
part of the type, so two tables with the same entries are equal, and writing a table needs no
sorting.

Main operations: `Table.insert`, which replaces what the key had before, `Table.get?`,
`Table.ofList`, and `Table.keys`.
-/

namespace WorkflowPolicy

variable {α β : Type}

/-- The entries with one more, in the order of the keys; the new one replaces an old one with
its key. -/
def insertEntry (k : String) (v : α) : List (String × α) → List (String × α)
  | [] => [(k, v)]
  | (k', v') :: rest =>
    if k < k' then (k, v) :: (k', v') :: rest
    else if k = k' then (k, v) :: rest
    else (k', v') :: insertEntry k v rest

theorem mem_keys_insertEntry {k k' : String} {v : α} {entries : List (String × α)} :
    k' ∈ (insertEntry k v entries).map Prod.fst ↔ k' = k ∨ k' ∈ entries.map Prod.fst := by
  induction entries with
  | nil => simp [insertEntry]
  | cons e rest ih =>
    unfold insertEntry
    split
    · simp
    · split
      · rename_i h; simp [h]
      · simp only [List.map_cons, List.mem_cons, ih]; grind

theorem pairwise_insertEntry (k : String) (v : α) {entries : List (String × α)}
    (h : (entries.map Prod.fst).Pairwise (· < ·)) :
    ((insertEntry k v entries).map Prod.fst).Pairwise (· < ·) := by
  induction entries with
  | nil => simp [insertEntry]
  | cons e rest ih =>
    rw [List.map_cons, List.pairwise_cons] at h
    unfold insertEntry
    split
    · rename_i hlt
      simp only [List.map_cons, List.pairwise_cons]
      refine ⟨fun x hx => ?_, h.1, h.2⟩
      rcases List.mem_cons.1 hx with rfl | hx
      · exact hlt
      · exact String.lt_trans hlt (h.1 x hx)
    · split
      · rename_i _ heq
        simp only [List.map_cons, List.pairwise_cons]
        exact ⟨fun x hx => heq ▸ h.1 x hx, h.2⟩
      · rename_i hlt heq
        simp only [List.map_cons, List.pairwise_cons]
        refine ⟨fun x hx => ?_, ih h.2⟩
        rcases mem_keys_insertEntry.1 hx with rfl | hx
        · exact Classical.byContradiction fun hn =>
            heq (String.le_antisymm (String.not_lt.1 hn) (String.not_lt.1 hlt))
        · exact h.1 x hx

/-- **A finite map from texts**, its entries in ascending order of the keys. -/
structure Table (α : Type) where
  entries : List (String × α)
  /-- No key occurs twice, and the keys ascend. -/
  sorted : (entries.map Prod.fst).Pairwise (· < ·)

namespace Table

/-- Tables with the same entries are equal. -/
@[ext] theorem ext {s t : Table α} (h : s.entries = t.entries) : s = t := by
  cases s; cases t; cases h; rfl

instance [DecidableEq α] : DecidableEq (Table α) := fun s t =>
  decidable_of_iff (s.entries = t.entries) ⟨ext, fun h => h ▸ rfl⟩

/-- The table without entries. -/
def empty : Table α := ⟨[], .nil⟩

instance : Inhabited (Table α) := ⟨empty⟩

instance : EmptyCollection (Table α) := ⟨empty⟩

/-- Has the table no entry? -/
def isEmpty (t : Table α) : Bool := t.entries.isEmpty

/-- The table with `v` at `k`. -/
def insert (t : Table α) (k : String) (v : α) : Table α :=
  ⟨insertEntry k v t.entries, pairwise_insertEntry k v t.sorted⟩

/-- The table of a list of entries; of two with one key the later counts. -/
def ofList (entries : List (String × α)) : Table α :=
  entries.foldl (fun t e => t.insert e.1 e.2) empty

/-- The table with one entry. -/
def single (k : String) (v : α) : Table α := empty.insert k v

/-- The value at a key. -/
def get? (t : Table α) (k : String) : Option α := t.entries.lookup k

/-- The keys, ascending. -/
def keys (t : Table α) : List String := t.entries.map Prod.fst

/-- The number of entries. -/
def size (t : Table α) : Nat := t.entries.length

/-- The table with every value changed by `f`. -/
def map (f : α → β) (t : Table α) : Table β where
  entries := t.entries.map fun e => (e.1, f e.2)
  sorted := by
    have h : (t.entries.map fun e => (e.1, f e.2)).map Prod.fst = t.entries.map Prod.fst := by
      simp
    rw [h]
    exact t.sorted

@[simp] theorem entries_empty : (empty : Table α).entries = [] := rfl

@[simp] theorem entries_insert (t : Table α) (k : String) (v : α) :
    (t.insert k v).entries = insertEntry k v t.entries := rfl

theorem mem_keys_insert {t : Table α} {k k' : String} {v : α} :
    k' ∈ (t.insert k v).keys ↔ k' = k ∨ k' ∈ t.keys := mem_keys_insertEntry

end Table

end WorkflowPolicy
