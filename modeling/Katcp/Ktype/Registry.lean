import Katcp.Ktype.Shift

/-! A consistent registry, and what searching, registering and deregistering do to it. -/
namespace Katcp

/-- A consistent registry: the array holds `ts`, `s_type_count` counts them, names ascend and each
tree is an ordered map. -/
structure Wf (s : KatcpShared) (ts : List KatcpType) : Prop where
  holds : s.sType.Holds ts
  count : s.sTypeCount = ts.length
  block_ne_nil : s.sType ≠ .null → ts ≠ []
  ascending : NamesAscending ts
  stores : ∀ t ∈ ts, ∃ tree, t.tTree = some tree ∧ tree.Sorted

/-- `s_type` points at freed memory while `s_type_count` is positive. -/
def Poisoned (s : KatcpShared) : Prop :=
  s.sType = .freed ∧ 0 < s.sTypeCount

variable {s : KatcpShared} {ts : List KatcpType}

theorem wf_empty : Wf .empty [] :=
  ⟨rfl, rfl, fun h => absurd rfl h, List.sorted_nil, fun _ h => absurd h (List.not_mem_nil _)⟩

theorem NamesAscending.index_unique (hs : NamesAscending ts) {i j : Nat} (hi : i < ts.length)
    (hj : j < ts.length) (h : ts[i].tName = ts[j].tName) : i = j := by
  by_contra hne
  rcases Nat.lt_or_gt_of_ne hne with hlt | hlt
  · exact absurd h (ne_of_lt (List.pairwise_iff_getElem.mp hs i j hi hj hlt))
  · exact absurd h.symm (ne_of_lt (List.pairwise_iff_getElem.mp hs j i hj hi hlt))

theorem Wf.search (h : Wf s ts) (str : String) :
    ∃ r, binarySearchTypeListKatcp s.sType s.sTypeCount str = some r ∧ SearchResult ts str r := by
  rw [h.count]
  exact binarySearchTypeListKatcp_spec h.holds h.ascending str

theorem Wf.search_found (h : Wf s ts) {k : Nat} (hk : k < ts.length) :
    binarySearchTypeListKatcp s.sType s.sTypeCount ts[k].tName = some (k : Int) := by
  obtain ⟨r, hr, hres⟩ := h.search ts[k].tName
  obtain ⟨i, hi, rfl, heq⟩ :=
    (hres.found_iff).mpr (List.mem_map.mpr ⟨_, List.getElem_mem hk, rfl⟩)
  rw [hr, h.ascending.index_unique hi hk heq]

theorem Wf.search_absent (h : Wf s ts) {str : String} (hn : str ∉ ts.map (·.tName)) :
    ∃ p, InsertionPoint ts str p ∧
      binarySearchTypeListKatcp s.sType s.sTypeCount str = some (-((p : Int) + 1)) := by
  obtain ⟨r, hr, hres⟩ := h.search str
  rcases hres with hf | ⟨p, hp, rfl⟩
  · exact absurd ((SearchResult.found_iff (.inl hf)).mp hf) hn
  · exact ⟨p, hp, hr⟩

theorem namesAscending_iff {ts : List KatcpType} :
    NamesAscending ts ↔ ∀ (i j : Nat) (a b : KatcpType), i < j → ts[i]? = some a → ts[j]? = some b →
      a.tName < b.tName := by
  rw [NamesAscending, List.Sorted, List.pairwise_iff_getElem]
  constructor
  · intro h i j a b hij ha hb
    obtain ⟨hi, rfl⟩ := List.getElem?_eq_some_iff.mp ha
    obtain ⟨hj, rfl⟩ := List.getElem?_eq_some_iff.mp hb
    exact h i j hi hj hij
  · intro h i j hi hj hij
    exact h i j _ _ hij (List.getElem?_eq_getElem hi) (List.getElem?_eq_getElem hj)

theorem NamesAscending.insertIdx (hs : NamesAscending ts) {p : Nat} {t : KatcpType}
    (hp : InsertionPoint ts t.tName p) : NamesAscending (ts.insertIdx p t) := by
  rw [namesAscending_iff] at hs ⊢
  intro i j a b hij hai hbj
  rw [getElem?_insertIdx _ hp.le] at hai hbj
  have get : ∀ {k c}, ts[k]? = some c → ∃ hk : k < ts.length, ts[k] = c :=
    fun hc => List.getElem?_eq_some_iff.mp hc
  split_ifs at hai hbj <;> first
    | omega
    | (obtain ⟨hi, rfl⟩ := get hai; obtain ⟨hj, rfl⟩ := get hbj
       exact hs _ _ _ _ (by omega) (List.getElem?_eq_getElem hi) (List.getElem?_eq_getElem hj))
    | (cases hai; obtain ⟨hj, rfl⟩ := get hbj; exact hp.above _ hj (by omega))
    | (cases hbj; obtain ⟨hi, rfl⟩ := get hai; exact hp.below _ hi (by omega))

theorem NamesAscending.eraseIdx (hs : NamesAscending ts) (k : Nat) :
    NamesAscending (ts.eraseIdx k) :=
  hs.sublist (List.eraseIdx_sublist ts k)

theorem NamesAscending.set (hs : NamesAscending ts) {k : Nat} (hk : k < ts.length)
    {t : KatcpType} (hn : t.tName = ts[k].tName) : NamesAscending (ts.set k t) := by
  have hmap : (ts.set k t).map (·.tName) = ts.map (·.tName) := by
    apply List.ext_getElem?
    intro j
    simp only [List.getElem?_map, List.getElem?_set]
    by_cases hkj : k = j
    · subst hkj
      simp [hk, hn, List.getElem?_eq_getElem hk]
    · simp [hkj]
  have := List.pairwise_map.mpr hs
  rw [NamesAscending, List.Sorted, ← List.pairwise_map, hmap]
  exact this

theorem Wf.block (h : Wf s ts) (hne : ts ≠ []) :
    ∃ slots, s.sType = .block slots ∧ ts.map some <+: slots := by
  have hh := h.holds
  cases hs : s.sType with
  | null => rw [hs] at hh; exact absurd hh hne
  | block slots => rw [hs] at hh; exact ⟨slots, rfl, hh⟩
  | freed => rw [hs] at hh; exact hh.elim

theorem Wf.eta (h : Wf s ts) : s = ⟨s.sType, ts.length⟩ := by
  rw [← h.count]

/-- A consistent registry stands for one list of descriptors. -/
theorem Wf.unique {ts' : List KatcpType} (h : Wf s ts) (h' : Wf s ts') : ts = ts' := by
  have hlen : ts.length = ts'.length := h.count.symm.trans h'.count
  have hh := h.holds
  have hh' := h'.holds
  cases hs : s.sType with
  | null => rw [hs] at hh hh'; exact hh.trans hh'.symm
  | block slots =>
    rw [hs] at hh hh'
    replace hh : ts.map some = slots.take ts.length := by
      simpa using List.prefix_iff_eq_take.mp hh
    replace hh' : ts'.map some = slots.take ts'.length := by
      simpa using List.prefix_iff_eq_take.mp hh'
    rw [hlen] at hh
    exact List.map_injective_iff.mpr (Option.some_injective _) (hh.trans hh'.symm)
  | freed => rw [hs] at hh; exact hh.elim

theorem Poisoned.not_wf (hp : Poisoned s) : ¬ Wf s ts := fun h => by
  have hh := h.holds
  rw [hp.1] at hh
  exact hh

theorem registerNameTypeKatcp_present (h : Wf s ts) (a : Alloc) {k : Nat} (hk : k < ts.length)
    (cb : Callbacks) : registerNameTypeKatcp s a ts[k].tName cb = some (-1, s, []) := by
  simp only [registerNameTypeKatcp, h.search_found hk, Option.bind_eq_bind, Option.some_bind]
  rw [if_pos (Int.natCast_nonneg k)]

theorem registerNameTypeKatcp_absent (h : Wf s ts) (a : Alloc) {name : String}
    (hn : name ∉ ts.map (·.tName)) (cb : Callbacks) :
    ∃ p, InsertionPoint ts name p ∧
      registerNameTypeKatcp s a name cb = registerAtIdTypeKatcp s a p name cb := by
  obtain ⟨p, hp, hr⟩ := h.search_absent hn
  refine ⟨p, hp, ?_⟩
  simp only [registerNameTypeKatcp, hr, Option.bind_eq_bind, Option.some_bind]
  rw [if_neg (by omega), show (-((p : Int) + 1) + 1) * -1 = p by omega]

/-- With every allocation answered, registration inserts the fresh descriptor at `p`. -/
theorem registerAtIdTypeKatcp_ok (h : Wf s ts) {a : Alloc} (hr : a.realloc ≠ .fail)
    (hd : a.descriptorNull = none) {p : Nat} (hp : p ≤ ts.length) (name : String)
    (cb : Callbacks) :
    registerAtIdTypeKatcp s a p name cb =
      some ((p : Int), ⟨.block ((ts.insertIdx p (.fresh name cb)).map some), ts.length + 1⟩,
        []) := by
  rw [h.eta]
  exact registerAtIdTypeKatcp_holds h.holds hr hd hp name cb

theorem Alloc.descriptorNull_ne {a : Alloc} {fn : String} (h : a.descriptorNull = some fn) :
    fn ≠ "create_node_avltree" := by
  unfold Alloc.descriptorNull at h
  split_ifs at h <;> (cases h; decide)

/-- A failed allocation gives `-1` and the old registry, except that a moved `realloc` leaves
`s_type` dangling. -/
theorem registerAtIdTypeKatcp_fail (h : Wf s ts) {a : Alloc}
    (hf : a.realloc = .fail ∨ a.descriptorNull ≠ none) (p : Int) (name : String)
    (cb : Callbacks) :
    ∃ fn s', registerAtIdTypeKatcp s a p name cb = some (-1, s', [.allocNull fn]) ∧
      fn ≠ "create_node_avltree" ∧ (Wf s' ts ∨ (a.realloc = .moved ∧ Poisoned s')) := by
  have hh := h.holds
  by_cases hg : a.realloc = .fail
  · refine ⟨"realloc", s, ?_, by decide, .inl h⟩
    cases hs : s.sType with
    | null => simp [registerAtIdTypeKatcp, grow, hs, hg]
    | block slots => simp [registerAtIdTypeKatcp, grow, hs, hg]
    | freed => rw [hs] at hh; exact hh.elim
  obtain ⟨fn, hfn⟩ := Option.ne_none_iff_exists'.mp (hf.resolve_left hg)
  have step : ∀ slots stale,
      grow s.sType (s.sTypeCount + 1) a.realloc = some (some (slots, stale)) →
      registerAtIdTypeKatcp s a p name cb =
        some (-1, { s with sType := stale }, [.allocNull fn]) := by
    intro slots stale hgr
    simp only [registerAtIdTypeKatcp, hgr, hfn]
  refine ⟨fn, ?_⟩
  cases hs : s.sType with
  | null =>
    refine ⟨s, ?_, Alloc.descriptorNull_ne hfn, .inl h⟩
    rw [step (List.replicate (s.sTypeCount + 1) none) .null (by cases hr : a.realloc <;>
      simp_all [grow])]
    rcases s with ⟨sT, sC⟩
    cases hs
    rfl
  | block slots =>
    have hne : ts ≠ [] := h.block_ne_nil (by rw [hs]; exact fun h => nomatch h)
    rw [hs] at hh
    cases hr : a.realloc with
    | fail => exact absurd hr hg
    | inPlace =>
      obtain ⟨slots₀, stale, hgr, -, hpre⟩ := grow_holds (g := .inPlace) hh (by simp)
      have hgr' := hgr
      simp only [grow, Option.some.injEq, Prod.mk.injEq] at hgr'
      rw [← hgr'.2, ← hgr'.1] at hgr
      rw [← hgr'.1] at hpre
      refine ⟨_, step _ _ (by rw [hs, hr, h.count]; exact hgr), Alloc.descriptorNull_ne hfn,
        .inl ?_⟩
      exact ⟨hpre, h.count, fun _ => hne, h.ascending, h.stores⟩
    | moved =>
      refine ⟨_, step (resize slots (s.sTypeCount + 1)) .freed (by simp [grow, hs, hr]),
        Alloc.descriptorNull_ne hfn, .inr ⟨rfl, rfl, ?_⟩⟩
      rw [h.count]
      exact List.length_pos.mpr hne
  | freed => rw [hs] at hh; exact hh.elim

theorem deregisterTypeKatcp_absent (h : Wf s ts) {name : String}
    (hn : name ∉ ts.map (·.tName)) : deregisterTypeKatcp s name = some (-1, s, []) := by
  obtain ⟨p, -, hr⟩ := h.search_absent hn
  simp only [deregisterTypeKatcp, hr, Option.bind_eq_bind, Option.some_bind]
  rw [if_pos (by omega)]

/-- Deregistering the `k`-th type releases its store and closes the gap; for the last one
`realloc(ts, 0)` frees the array. -/
theorem deregisterTypeKatcp_present (h : Wf s ts) {k : Nat} (hk : k < ts.length) :
    deregisterTypeKatcp s ts[k].tName =
      if ts.length = 1 then some (-1, ⟨.freed, 1⟩, ts[k].destroyTypeKatcp ++ [.allocNull "realloc"])
      else some (0, ⟨.block ((ts.eraseIdx k).map some), ts.length - 1⟩,
        ts[k].destroyTypeKatcp) := by
  obtain ⟨slots, hs, hp⟩ := h.block (List.ne_nil_of_length_pos (by omega))
  obtain ⟨slots', hsh, htake⟩ := shiftDown_erase hp hk
  have hle : ts.length ≤ slots.length := by simpa using hp.length_le
  have hfound := h.search_found hk
  rw [hs, h.count] at hfound
  have hread : readSlot slots k = some (some ts[k]) := by
    rw [readSlot_of_nonneg (Int.natCast_nonneg k)]
    exact getElem?_of_holds hp hk
  have hw : writeSlot slots k none = some (slots.set k none) := by
    rw [writeSlot_eq (Int.natCast_nonneg k) (by omega)]
    rfl
  simp only [deregisterTypeKatcp, hs, h.count, hfound, Option.bind_eq_bind, Option.some_bind,
    if_neg (show ¬ ((k : Int) < 0) by omega), hread, hw, Option.map_some', hsh]
  split_ifs with h1 h2 h2
  · rw [h2]
  · omega
  · omega
  · simp [htake]

end Katcp
