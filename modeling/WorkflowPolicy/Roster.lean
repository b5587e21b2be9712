/-!
# Rosters

Named things in no meaningful order, each name once: a list of entries whose names differ.
A roster is what a map keyed by name looks like to a reader who walks through it. The order of
the walk is that of the first insertions, and what is derived from a roster has to say how far it
depends on that order; compare with `Table`, where the order is that of the names.
-/

namespace WorkflowPolicy

variable {α β : Type}

/-- The entries with `v` under the name: in the place of the old entry of that name, else at the
end. -/
def putEntry (name : String) (v : α) : List (String × α) → List (String × α)
  | [] => [(name, v)]
  | (name', v') :: rest =>
    if name = name' then (name, v) :: rest else (name', v') :: putEntry name v rest

theorem mem_names_putEntry {name name' : String} {v : α} {entries : List (String × α)} :
    name' ∈ (putEntry name v entries).map Prod.fst ↔
      name' = name ∨ name' ∈ entries.map Prod.fst := by
  induction entries with
  | nil => simp [putEntry]
  | cons e rest ih =>
    unfold putEntry
    split
    · rename_i h; simp [h]
    · simp only [List.map_cons, List.mem_cons, ih]; grind

theorem nodup_putEntry (name : String) (v : α) {entries : List (String × α)}
    (h : (entries.map Prod.fst).Nodup) : ((putEntry name v entries).map Prod.fst).Nodup := by
  induction entries with
  | nil => simp [putEntry]
  | cons e rest ih =>
    rw [List.map_cons, List.nodup_cons] at h
    unfold putEntry
    split
    · rename_i heq
      rw [List.map_cons, List.nodup_cons]
      exact ⟨heq ▸ h.1, h.2⟩
    · rename_i hne
      rw [List.map_cons, List.nodup_cons]
      refine ⟨fun hmem => ?_, ih h.2⟩
      rcases mem_names_putEntry.1 hmem with heq | hmem
      · exact hne heq.symm
      · exact h.1 hmem

/-- **Named things, each name once**, in the order of a walk through them. -/
structure Roster (α : Type) where
  entries : List (String × α)
  /-- No name occurs twice. -/
  nodup : (entries.map Prod.fst).Nodup

namespace Roster

@[ext] theorem ext {s t : Roster α} (h : s.entries = t.entries) : s = t := by
  cases s; cases t; cases h; rfl

instance [DecidableEq α] : DecidableEq (Roster α) := fun s t =>
  decidable_of_iff (s.entries = t.entries) ⟨ext, fun h => h ▸ rfl⟩

/-- The roster without entries. -/
def empty : Roster α := ⟨[], .nil⟩

instance : Inhabited (Roster α) := ⟨empty⟩

instance : EmptyCollection (Roster α) := ⟨empty⟩

/-- The roster with `v` under the name. -/
def put (r : Roster α) (name : String) (v : α) : Roster α :=
  ⟨putEntry name v r.entries, nodup_putEntry name v r.nodup⟩

/-- The roster of a list of entries; of two with one name the later counts. -/
def ofList (entries : List (String × α)) : Roster α :=
  entries.foldl (fun r e => r.put e.1 e.2) empty

/-- The names in the order of the walk. -/
def names (r : Roster α) : List String := r.entries.map Prod.fst

/-- The things in the order of the walk. -/
def values (r : Roster α) : List α := r.entries.map Prod.snd

/-- Is there an entry of that name? -/
def contains (r : Roster α) (name : String) : Bool := r.names.contains name

/-- What has the name. -/
def get? (r : Roster α) (name : String) : Option α := r.entries.lookup name

/-- The number of entries. -/
def size (r : Roster α) : Nat := r.entries.length

/-- The things that pass the test. -/
def filter (keep : α → Bool) (r : Roster α) : Roster α where
  entries := r.entries.filter fun e => keep e.2
  nodup := ((List.filter_sublist).map Prod.fst).nodup r.nodup

/-- The roster with every thing changed by `f`. -/
def map (f : α → β) (r : Roster α) : Roster β where
  entries := r.entries.map fun e => (e.1, f e.2)
  nodup := by
    have h : (r.entries.map fun e => (e.1, f e.2)).map Prod.fst = r.entries.map Prod.fst := by
      simp
    rw [h]
    exact r.nodup

@[simp] theorem entries_empty : (empty : Roster α).entries = [] := rfl

@[simp] theorem values_map (f : α → β) (r : Roster α) :
    (r.map f).values = r.values.map f := by
  simp [map, values]

@[simp] theorem values_filter (keep : α → Bool) (r : Roster α) :
    (r.filter keep).values = r.values.filter keep := by
  simp only [filter, values, List.filter_map]
  rfl

/-- A test after a change of the things. -/
theorem filter_map (f : α → β) (keep : β → Bool) (r : Roster α) :
    (r.map f).filter keep = (r.filter fun v => keep (f v)).map f := by
  ext1
  simp only [map, filter, List.filter_map]
  rfl

@[simp] theorem contains_iff {r : Roster α} {name : String} :
    r.contains name = true ↔ name ∈ r.names := by
  simp [contains]

end Roster

end WorkflowPolicy
