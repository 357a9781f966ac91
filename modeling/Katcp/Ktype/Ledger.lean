import Katcp.Ktype.Lifecycle

/-! What the free callbacks receive over a run: each accepted value once, and nothing else. -/
namespace Katcp

def Effect.freed : Effect → Option (Ptr × Ptr)
  | .free fn v => some (fn, v)
  | _ => none

def KatcpType.frees (t : KatcpType) : List (Ptr × Ptr) :=
  t.destroyTypeKatcp.filterMap Effect.freed

/-- What tearing the descriptors down would hand to free callbacks: the values they hold. -/
def pending (ts : List KatcpType) : List (Ptr × Ptr) :=
  ts.flatMap KatcpType.frees

/-- What a call may hand to free callbacks from `ts`: the values of the type it deregisters, or all
of them at teardown. -/
def releasable (ts : List KatcpType) : Call → List (Ptr × Ptr)
  | .deregisterType T => ((types ts T).map KatcpType.frees).getD []
  | .destroyTypeList => pending ts
  | _ => []

namespace Event

/-- What deregistering a type or tearing the list down hands to free callbacks. -/
def released (e : Event) : List (Ptr × Ptr) :=
  match e.call with
  | .deregisterType _ | .destroyTypeList => e.effects.filterMap Effect.freed
  | _ => []

end Event

section Frees

variable {t : KatcpType} {tree : AvlTree} {k : String} {v : Ptr} {nodes : List (String × Ptr)}

@[simp] theorem KatcpType.frees_fresh (T : String) (cb : Callbacks) :
    (KatcpType.fresh T cb).frees = [] := by
  simp [frees, destroyTypeKatcp, fresh, AvlTree.destroyAvltree]

end Frees

section Pending

variable {α : Type} {l : List α} {ts : List KatcpType} {j : Nat}

end Pending

variable {s s₁ u : KatcpShared} {ts ts' : List KatcpType} {c : Call} {rp : Reply}
  {effs : List Effect} {a : Alloc} {es es₁ es₂ : List Event} {e e₁ : Event}

theorem Step.released (hs : NamesAscending ts) (hst : Step ts c rp (some ts') effs) :
    Event.released ⟨c, a, rp, effs⟩ = releasable ts c := by
  cases hst with
  | deregisterAbsent hT => simp [Event.released, releasable, types_eq_none_iff.mpr hT]
  | deregister hj => simp [Event.released, releasable, types_getElem hs hj, KatcpType.frees]
  | destroy =>
    simp only [Event.released, releasable, pending, List.filterMap_flatMap]
    rfl
  | _ => rfl

end Katcp
