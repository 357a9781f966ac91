import Katcp.Ktype.Registry

/-! What a consistent registry stands for: each registered name bound to its descriptor. -/
namespace Katcp

/-- The descriptor registered under the name `T`. -/
def types (ts : List KatcpType) (T : String) : Option KatcpType :=
  ts.find? (·.tName == T)

/-- The value stored under the key `k` of the type `T`. -/
def lookupData (ts : List KatcpType) (T k : String) : Option Ptr :=
  (types ts T).bind fun t => t.tTree.bind (·.findNameNodeAvltree k)

variable {ts ts' : List KatcpType}

theorem NamesAscending.eq_of_mem (hs : NamesAscending ts) {a b : KatcpType} (ha : a ∈ ts)
    (hb : b ∈ ts) (h : a.tName = b.tName) : a = b := by
  obtain ⟨i, hi, rfl⟩ := List.mem_iff_getElem.mp ha
  obtain ⟨j, hj, rfl⟩ := List.mem_iff_getElem.mp hb
  obtain rfl := hs.index_unique hi hj h
  rfl

theorem types_eq_some_iff (hs : NamesAscending ts) {T : String} {t : KatcpType} :
    types ts T = some t ↔ t ∈ ts ∧ t.tName = T := by
  constructor
  · intro h
    exact ⟨List.mem_of_find?_eq_some h, by simpa using List.find?_some h⟩
  · rintro ⟨ht, rfl⟩
    have hsome : (types ts t.tName).isSome :=
      List.find?_isSome.mpr ⟨t, ht, beq_self_eq_true t.tName⟩
    obtain ⟨t', ht'⟩ := Option.isSome_iff_exists.mp hsome
    rw [ht', hs.eq_of_mem (List.mem_of_find?_eq_some ht') ht
      (by simpa using List.find?_some ht')]

theorem types_eq_none_iff {T : String} : types ts T = none ↔ T ∉ ts.map (·.tName) := by
  simp [types, List.find?_eq_none]

theorem types_getElem (hs : NamesAscending ts) {j : Nat} (hj : j < ts.length) :
    types ts ts[j].tName = some ts[j] :=
  (types_eq_some_iff hs).mpr ⟨List.getElem_mem hj, rfl⟩

theorem types_eq_update (hs : NamesAscending ts) (hs' : NamesAscending ts') {T : String}
    {o : Option KatcpType} (ho : ∀ t ∈ o, t.tName = T)
    (hmem : ∀ x, x ∈ ts' ↔ x ∈ o ∨ (x ∈ ts ∧ x.tName ≠ T)) :
    types ts' = Function.update (types ts) T o := by
  funext T'
  apply Option.ext
  intro x
  rw [Option.mem_def, Option.mem_def, types_eq_some_iff hs', hmem]
  by_cases hT : T' = T
  · subst hT
    rw [Function.update_same]
    constructor
    · rintro ⟨hx | ⟨-, hne⟩, hn⟩
      · exact hx
      · exact absurd hn hne
    · exact fun hx => ⟨.inl hx, ho x hx⟩
  · rw [Function.update_noteq hT, types_eq_some_iff hs]
    constructor
    · rintro ⟨hx | ⟨hx, -⟩, hn⟩
      · exact absurd (hn.symm.trans (ho x hx)) hT
      · exact ⟨hx, hn⟩
    · rintro ⟨hx, rfl⟩
      exact ⟨.inr ⟨hx, hT⟩, rfl⟩

theorem types_insertIdx (hs : NamesAscending ts) {p : Nat} (hp : p ≤ ts.length) {t : KatcpType}
    (hn : t.tName ∉ ts.map (·.tName)) (hs' : NamesAscending (ts.insertIdx p t)) :
    types (ts.insertIdx p t) = Function.update (types ts) t.tName (some t) := by
  refine types_eq_update hs hs' (fun _ h => by cases h; rfl) fun x => ?_
  rw [List.mem_insertIdx hp, Option.mem_def, Option.some.injEq]
  constructor
  · rintro (rfl | hx)
    · exact .inl rfl
    · exact .inr ⟨hx, fun h => hn (h ▸ List.mem_map_of_mem _ hx)⟩
  · rintro (rfl | ⟨hx, -⟩)
    · exact .inl rfl
    · exact .inr hx

theorem types_set (hs : NamesAscending ts) {j : Nat} (hj : j < ts.length) {t : KatcpType}
    (hn : t.tName = ts[j].tName) :
    types (ts.set j t) = Function.update (types ts) ts[j].tName (some t) := by
  refine types_eq_update hs (hs.set hj hn) (fun _ h => by cases h; exact hn) fun x => ?_
  simp only [List.mem_iff_getElem, List.length_set, List.getElem_set, Option.mem_def,
    Option.some.injEq]
  constructor
  · rintro ⟨i, hi, hx⟩
    split_ifs at hx with hij
    · exact .inl hx
    · subst hx
      exact .inr ⟨⟨i, hi, rfl⟩, fun h => hij (hs.index_unique hj hi h.symm)⟩
  · rintro (rfl | ⟨⟨i, hi, rfl⟩, hne⟩)
    · exact ⟨j, hj, if_pos rfl⟩
    · exact ⟨i, hi, if_neg fun hij => hne (by subst hij; rfl)⟩

theorem types_eraseIdx (hs : NamesAscending ts) {k : Nat} (hk : k < ts.length) :
    types (ts.eraseIdx k) = Function.update (types ts) ts[k].tName none := by
  refine types_eq_update hs (hs.eraseIdx k) (fun _ h => by cases h) fun x => ?_
  rw [List.mem_eraseIdx_iff_getElem]
  constructor
  · rintro ⟨i, hi, hik, rfl⟩
    exact .inr ⟨List.getElem_mem hi, fun h => hik (hs.index_unique hi hk h)⟩
  · rintro (h | ⟨hx, hne⟩)
    · cases h
    · obtain ⟨i, hi, rfl⟩ := List.mem_iff_getElem.mp hx
      exact ⟨i, hi, fun h => hne (by subst h; rfl), rfl⟩

end Katcp
