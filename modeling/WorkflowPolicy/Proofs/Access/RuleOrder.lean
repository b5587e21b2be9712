import Mathlib
import WorkflowPolicy.Access.Egress
import WorkflowPolicy.Proofs.Order.Sorting

/-!
# The order of egress rules

`EgressRule.precedes` compares the texts of two destinations, then the ports, then the protocols.
This is the order of `EgressRule.orderKey`, lexicographic in three linear orders
(`precedes_iff`), so it is transitive and total and rules may be left out before or after they are
sorted.

The key holds the text of the destination and not the destination. A host may be written like a
block of addresses, so different rules may stand on one level; their destinations have the same
text (`text_eq_of_precedes`).
-/

namespace WorkflowPolicy

namespace EgressRule

/-! ### The key -/

/-- The place of a port; no port comes first. -/
def portRank : Option Net.Port → ℕ
  | none => 0
  | some port => port.toNat + 1

/-- The place of a protocol. -/
def protocolRank : Net.Transport → ℕ
  | .tcp => 0
  | .udp => 1

/-- **What the order of rules looks at.** -/
def orderKey (r : EgressRule) : String ×ₗ ℕ ×ₗ ℕ :=
  toLex (r.destination.text, toLex (portRank r.port, protocolRank r.protocol))

theorem portRank_injective : Function.Injective portRank := by
  intro p q h
  cases p with
  | none => cases q with
    | none => rfl
    | some q => simp [portRank] at h
  | some p => cases q with
    | none => simp [portRank] at h
    | some q => simpa [portRank, UInt16.toNat_inj] using h

theorem portPrecedes_iff {p q : Option Net.Port} :
    portPrecedes p q = true ↔ portRank p ≤ portRank q := by
  cases p <;> cases q <;> simp [portPrecedes, portRank, UInt16.le_iff_toNat_le]

theorem protocol_precedes_iff {p q : Net.Transport} :
    p.precedes q = true ↔ protocolRank p ≤ protocolRank q := by
  cases p <;> cases q <;> decide

/-- **The order of rules is that of their keys.** -/
theorem precedes_iff {a b : EgressRule} : a.precedes b = true ↔ a.orderKey ≤ b.orderKey := by
  simp only [precedes, orderKey, Prod.Lex.toLex_le_toLex]
  -- The texts are compared first, and only where they are equal the rest counts.
  by_cases htext : a.destination.text = b.destination.text
  · by_cases hport : a.port = b.port
    · simp [htext, hport, protocol_precedes_iff]
    · -- Ports that differ are at different places, so the protocols do not count.
      have hrank : portRank a.port ≠ portRank b.port := fun h => hport (portRank_injective h)
      simp [htext, hport, portPrecedes_iff, hrank, lt_iff_le_and_ne]
  · simp [htext]

/-! ### Sorting rules -/

theorem precedes_trans (a b c : EgressRule) (hab : a.precedes b = true)
    (hbc : b.precedes c = true) : a.precedes c = true := by
  rw [precedes_iff] at *
  exact hab.trans hbc

theorem precedes_total (a b : EgressRule) : a.precedes b = true ∨ b.precedes a = true := by
  rw [precedes_iff, precedes_iff]
  exact le_total _ _

/-- **Rules on one level** have destinations of the same text. -/
theorem text_eq_of_precedes {a b : EgressRule} (hab : a.precedes b = true)
    (hba : b.precedes a = true) : a.destination.text = b.destination.text := by
  rw [precedes_iff] at hab hba
  -- Each comes before the other, so the keys are equal.
  have hkey : a.orderKey = b.orderKey := le_antisymm hab hba
  exact congrArg Prod.fst hkey

/-- **Rules may be left out before or after they are put in order**, if those on one level stay or
go together. -/
theorem filter_sorted {keep : EgressRule → Bool}
    (level : ∀ a b : EgressRule, a.precedes b → b.precedes a → keep a = keep b)
    (rules : List EgressRule) :
    (dropRepeats (sortBy precedes rules)).filter keep =
      dropRepeats (sortBy precedes (rules.filter keep)) := by
  -- In a sorted list it is enough that the elements of a level stay or go together.
  have hsorted := pairwise_sortBy precedes_trans precedes_total rules
  rw [filter_dropRepeats level hsorted, filter_sortBy precedes_trans precedes_total]

end EgressRule

end WorkflowPolicy
