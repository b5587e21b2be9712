import WorkflowPolicy.Failure

/-!
# Sessions with a store of policies

The live policies are kept by a store, which is asked for a policy or told to put one in place, and
which may fail at both. A `Session` is what a procedure says to a store: it ends with a result, or
makes a request and goes on with the answer. A session does not know the store, so a law about it
holds for every store, and sessions may be interleaved request by request.

A `Keeper` answers requests, and `Session.run` runs a session with it. `Store` is the unbounded
store in memory: it counts how often a policy has been put in place, and `Keeper.memory` and its two
failing variants answer from it.
-/

namespace WorkflowPolicy

/-- The namespace and the name by which a policy is found. -/
structure PolicyKey where
  namespaceName : String
  name : String
  deriving DecidableEq, Repr, Inhabited

/-- The key of a policy. -/
def NetworkPolicy.key (p : NetworkPolicy) : PolicyKey := ⟨p.metadata.namespaceName, p.metadata.name⟩

/-- **What a procedure says to a store.** -/
inductive Session (α : Type) where
  | done (result : Except Failure α)
  | get (key : PolicyKey) (next : Except Failure (Option NetworkPolicy) → Session α)
  | apply (policy : NetworkPolicy) (next : Except Failure Unit → Session α)

/-- **Who answers requests**, with a state of its own. -/
structure Keeper (σ : Type) where
  get : PolicyKey → σ → Except Failure (Option NetworkPolicy) × σ
  apply : NetworkPolicy → σ → Except Failure Unit × σ

/-- Runs a session. -/
def Session.run {σ α : Type} (keeper : Keeper σ) : Session α → σ → Except Failure α × σ
  | .done result, s => (result, s)
  | .get key next, s =>
    let (answer, s) := keeper.get key s
    (next answer).run keeper s
  | .apply policy next, s =>
    let (answer, s) := keeper.apply policy s
    (next answer).run keeper s

/-! ### The store in memory -/

/-- **The store in memory**: the policies by their keys, and how often one was put in place. It is
the store without a bound, which never drops a policy. One with a capacity, which drops policies
without a word once it is full, is not modelled. -/
structure Store where
  policies : List (PolicyKey × NetworkPolicy) := []
  applies : Nat := 0

namespace Store

/-- The policy with the key. -/
def get? (s : Store) (key : PolicyKey) : Option NetworkPolicy := s.policies.lookup key

/-- Is there a policy with the key? -/
def contains (s : Store) (key : PolicyKey) : Bool := (s.get? key).isSome

/-- The store without the policy with the key. -/
def delete (s : Store) (key : PolicyKey) : Store :=
  { s with policies := s.policies.filter fun e => e.1 != key }

/-- The store with the policy, which takes the place of another one with its key. This does not
count. -/
def insert (s : Store) (p : NetworkPolicy) : Store :=
  { s with policies := (p.key, p) :: (s.delete p.key).policies }

/-- The store after the policy has been put in place. -/
def apply (s : Store) (p : NetworkPolicy) : Store := { s.insert p with applies := s.applies + 1 }

@[simp] theorem get?_insert_self (s : Store) (p : NetworkPolicy) :
    (s.insert p).get? p.key = some p := by
  simp [insert, get?]

/-- What is left of a list of entries without those of another key still has the entries of this
one. -/
theorem lookup_filter_of_ne {key other : PolicyKey} (h : key ≠ other)
    (entries : List (PolicyKey × NetworkPolicy)) :
    (entries.filter fun e => e.1 != other).lookup key = entries.lookup key := by
  induction entries with
  | nil => rfl
  | cons e entries ih =>
    by_cases he : e.1 = other
    · have hne : (key == e.1) = false := by
        rw [he]
        exact beq_false_of_ne h
      rw [List.filter_cons_of_neg (by simp [he]), ih, List.lookup_cons, hne]
    · rw [List.filter_cons_of_pos (by simp [he]), List.lookup_cons, List.lookup_cons, ih]

/-- The policies with other keys stay. -/
theorem get?_insert_of_ne {s : Store} {p : NetworkPolicy} {key : PolicyKey} (h : key ≠ p.key) :
    (s.insert p).get? key = s.get? key := by
  have hne : (key == p.key) = false := beq_false_of_ne h
  show ((p.key, p) :: s.policies.filter fun e => e.1 != p.key).lookup key = _
  rw [List.lookup_cons, hne]
  exact lookup_filter_of_ne h s.policies

@[simp] theorem applies_apply (s : Store) (p : NetworkPolicy) :
    (s.apply p).applies = s.applies + 1 := rfl

@[simp] theorem get?_apply (s : Store) (p : NetworkPolicy) (key : PolicyKey) :
    (s.apply p).get? key = (s.insert p).get? key := rfl

end Store

namespace Keeper

/-- The store in memory answers. -/
def memory : Keeper Store where
  get key s := (.ok (s.get? key), s)
  apply p s := (.ok (), s.apply p)

@[simp] theorem memory_get (key : PolicyKey) (s : Store) :
    memory.get key s = (.ok (s.get? key), s) := rfl

@[simp] theorem memory_apply (p : NetworkPolicy) (s : Store) :
    memory.apply p s = (.ok (), s.apply p) := rfl

/-- Nothing can be read. -/
def unreadable (f : Failure) : Keeper Store := { memory with get := fun _ s => (.error f, s) }

/-- Nothing can be put in place. -/
def readOnly (f : Failure) : Keeper Store := { memory with apply := fun _ s => (.error f, s) }

end Keeper

end WorkflowPolicy
