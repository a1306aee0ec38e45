import Mathlib.Order.Defs.LinearOrder
import Mathlib.Data.UInt

/-!
# The order of machine words

Unsigned 64-bit integers are linearly ordered, by the comparisons they come with.
-/

instance UInt64.linearOrder : LinearOrder UInt64 where
  le_refl a := UInt64.le_refl a
  le_trans _ _ _ := UInt64.le_trans
  lt_iff_le_not_ge a b := by
    rw [UInt64.not_le]
    exact ⟨fun h ↦ ⟨UInt64.le_of_lt h, h⟩, fun h ↦ h.2⟩
  le_antisymm _ _ := UInt64.le_antisymm
  le_total := UInt64.le_total
  toMin := inferInstance
  toMax := inferInstance
  min_def _ _ := rfl
  max_def _ _ := rfl
  toDecidableLE := inferInstance
