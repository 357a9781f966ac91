import Katcp.Ktype.View

/-! A type's store as an ordered map, and what storing and reading do to the registry. -/
namespace Katcp

namespace AvlTree

variable {key : String} {v : Ptr} {nodes nodes' : List (String × Ptr)}

theorem lookup_eq_none_iff : lookup key nodes = none ↔ key ∉ nodes.map Prod.fst := by
  induction nodes with
  | nil => simp [lookup]
  | cons n rest ih =>
    obtain ⟨k, w⟩ := n
    by_cases h : key = k <;> simp [lookup, h, ih]

theorem insertNode_perm (h : insertNode key v nodes = some nodes') :
    nodes'.Perm ((key, v) :: nodes) := by
  induction nodes generalizing nodes' with
  | nil => cases h; rfl
  | cons n rest ih =>
    obtain ⟨k, w⟩ := n
    simp only [insertNode] at h
    split at h
    · cases h; rfl
    · cases h
    · obtain ⟨r, hr, rfl⟩ := Option.map_eq_some'.mp h
      exact ((ih hr).cons _).trans (.swap _ _ _)

theorem sorted_insertNode (hs : (nodes.map Prod.fst).Sorted (· < ·))
    (h : insertNode key v nodes = some nodes') : (nodes'.map Prod.fst).Sorted (· < ·) := by
  induction nodes generalizing nodes' with
  | nil => cases h; simp
  | cons n rest ih =>
    obtain ⟨k, w⟩ := n
    rw [List.map_cons, List.sorted_cons] at hs
    simp only [insertNode] at h
    split at h
    · rename_i hc
      cases h
      have hlt := compare_lt_iff_lt.mp hc
      rw [List.map_cons, List.map_cons, List.sorted_cons, List.sorted_cons]
      refine ⟨fun b hb => ?_, hs⟩
      rcases List.mem_cons.mp hb with rfl | hb
      · exact hlt
      · exact hlt.trans (hs.1 b hb)
    · cases h
    · rename_i hc
      obtain ⟨r, hr, rfl⟩ := Option.map_eq_some'.mp h
      rw [List.map_cons, List.sorted_cons]
      refine ⟨fun b hb => ?_, ih hs.2 hr⟩
      rcases List.mem_cons.mp (((insertNode_perm hr).map Prod.fst).mem_iff.mp hb) with rfl | hb
      · exact compare_gt_iff_gt.mp hc
      · exact hs.1 b hb

/-- In an ordered map, `add_node_avltree` refuses exactly the keys already present. -/
theorem insertNode_eq_none_iff (hs : (nodes.map Prod.fst).Sorted (· < ·)) :
    insertNode key v nodes = none ↔ key ∈ nodes.map Prod.fst := by
  induction nodes with
  | nil => simp [insertNode]
  | cons n rest ih =>
    obtain ⟨k, w⟩ := n
    rw [List.map_cons, List.sorted_cons] at hs
    simp only [insertNode, List.map_cons, List.mem_cons]
    split
    · rename_i hc
      have hlt := compare_lt_iff_lt.mp hc
      simp only [reduceCtorEq, false_iff, not_or]
      exact ⟨hlt.ne, fun hm => lt_asymm hlt (hs.1 key hm)⟩
    · rename_i hc
      simp [compare_eq_iff_eq.mp hc]
    · rename_i hc
      rw [Option.map_eq_none', ih hs.2]
      simp [(compare_gt_iff_gt.mp hc).ne']

theorem lookup_insertNode (h : insertNode key v nodes = some nodes') (k : String) :
    lookup k nodes' = if k = key then some v else lookup k nodes := by
  induction nodes generalizing nodes' with
  | nil => cases h; by_cases hk : k = key <;> simp [lookup, hk]
  | cons n rest ih =>
    obtain ⟨k₀, w⟩ := n
    simp only [insertNode] at h
    split at h
    · cases h; by_cases hk : k = key <;> simp [lookup, hk]
    · cases h
    · rename_i hc
      obtain ⟨r, hr, rfl⟩ := Option.map_eq_some'.mp h
      have hne : k₀ ≠ key := (compare_gt_iff_gt.mp hc).ne
      by_cases hk : k = k₀
      · subst hk; simp [lookup, hne]
      · simp only [lookup, hk, if_false, ih hr]

end AvlTree

variable {s : KatcpShared} {ts : List KatcpType} {a : Alloc} {T k : String} {v : Ptr}
  {cb : Callbacks}

theorem insertIdx_set_self {α : Type} {l : List α} {p : Nat} (hp : p ≤ l.length) (x y : α) :
    (l.insertIdx p x).set p y = l.insertIdx p y := by
  apply List.ext_getElem?
  intro j
  rw [List.getElem?_set, getElem?_insertIdx _ hp, getElem?_insertIdx _ hp,
    List.length_insertIdx _ _ hp]
  by_cases hj : p = j
  · subst hj
    simp [show p < l.length + 1 by omega]
  · simp only [hj, if_false, Ne.symm hj]

theorem wf_insertIdx (h : Wf s ts) {p : Nat} {t : KatcpType} (hp : InsertionPoint ts t.tName p)
    (ht : ∃ tree, t.tTree = some tree ∧ tree.Sorted) :
    Wf ⟨.block ((ts.insertIdx p t).map some), ts.length + 1⟩ (ts.insertIdx p t) where
  holds := List.prefix_refl _
  count := (List.length_insertIdx _ _ hp.le).symm
  block_ne_nil _ := List.ne_nil_of_mem ((List.mem_insertIdx hp.le).mpr (.inl rfl))
  ascending := h.ascending.insertIdx hp
  stores x hx := by
    rcases (List.mem_insertIdx hp.le).mp hx with rfl | hx
    · exact ht
    · exact h.stores x hx

theorem wf_eraseIdx (h : Wf s ts) {k : Nat} (hk : k < ts.length) (h1 : ts.length ≠ 1) :
    Wf ⟨.block ((ts.eraseIdx k).map some), ts.length - 1⟩ (ts.eraseIdx k) where
  holds := List.prefix_refl _
  count := by rw [List.length_eraseIdx, if_pos hk]
  block_ne_nil _ := by
    rw [← List.length_pos, List.length_eraseIdx, if_pos hk]
    have := List.length_pos.mpr (List.ne_nil_of_length_pos (by omega : 0 < ts.length))
    omega
  ascending := h.ascending.eraseIdx k
  stores x hx := h.stores x ((List.eraseIdx_sublist ts k).subset hx)

theorem Wf.set (h : Wf s ts) {slots : List (Option KatcpType)} (hs : s.sType = .block slots)
    {j : Nat} (hj : j < ts.length) {t : KatcpType} (hn : t.tName = ts[j].tName)
    (ht : ∃ tree, t.tTree = some tree ∧ tree.Sorted) :
    Wf { s with sType := .block (slots.set j (some t)) } (ts.set j t) where
  holds := by
    have hh := h.holds
    rw [hs] at hh
    obtain ⟨r, hr⟩ := hh
    refine ⟨r, ?_⟩
    rw [← hr, List.set_append_left _ _ (by simpa using hj), List.map_set]
  count := by rw [List.length_set]; exact h.count
  block_ne_nil _ := by
    rw [← List.length_pos, List.length_set]
    omega
  ascending := h.ascending.set hj hn
  stores x hx := by
    obtain ⟨i, hi, rfl⟩ := List.mem_iff_getElem.mp hx
    rw [List.getElem_set]
    split_ifs
    · exact ht
    · exact h.stores _ (List.getElem_mem _)

theorem storeAtKatcp_eq_addData (h : Wf s ts) {j : Nat} (hj : j < ts.length)
    (hc : ts[j].callbacks = cb) :
    ∃ slots tree, s.sType = .block slots ∧ ts.map some <+: slots ∧ ts[j].tTree = some tree ∧
      tree.Sorted ∧
      storeAtKatcp s a j T k v cb = addDataKatcp s a slots j ts[j] tree k v cb.free := by
  obtain ⟨slots, hs, hp⟩ := h.block (List.ne_nil_of_length_pos (by omega))
  obtain ⟨tree, htree, hsort⟩ := h.stores _ (List.getElem_mem hj)
  refine ⟨slots, tree, hs, hp, htree, hsort, ?_⟩
  simp only [storeAtKatcp, hs, readSlot_of_nonneg (Int.natCast_nonneg j), Int.toNat_ofNat,
    getElem?_of_holds hp hj, Option.bind_eq_bind, Option.some_bind, hc, ne_eq,
    not_true_eq_false, if_false, htree]

theorem storeAtKatcp_mismatch (h : Wf s ts) {j : Nat} (hj : j < ts.length)
    (hc : ts[j].callbacks ≠ cb) :
    storeAtKatcp s a j T k v cb =
      some (-1, s, [.log s!"callbacks for data with key <{k}> dont match type {T}\n"]) := by
  obtain ⟨slots, hs, hp⟩ := h.block (List.ne_nil_of_length_pos (by omega))
  simp only [storeAtKatcp, hs, readSlot_of_nonneg (Int.natCast_nonneg j), Int.toNat_ofNat,
    getElem?_of_holds hp hj, Option.bind_eq_bind, Option.some_bind, hc, ne_eq,
    not_false_eq_true, if_true]

/-- The one way a store into the `j`-th type succeeds: matching callbacks, a node, a new key. -/
theorem storeAtKatcp_ok (h : Wf s ts) {j : Nat} (hj : j < ts.length) (hc : ts[j].callbacks = cb)
    (hn : a.createNode = true) {tree : AvlTree} (htree : ts[j].tTree = some tree)
    {nodes : List (String × Ptr)} (hins : AvlTree.insertNode k v tree.nodes = some nodes) :
    ∃ s', storeAtKatcp s a j T k v cb = some (0, s', []) ∧
      Wf s' (ts.set j { ts[j] with tTree := some ⟨nodes⟩ }) := by
  obtain ⟨slots, tree', hs, hp, htree', hsort, heq⟩ := storeAtKatcp_eq_addData h hj hc
    (a := a) (T := T) (k := k) (v := v)
  obtain rfl : tree' = tree := Option.some.inj (htree'.symm.trans htree)
  have hle : ts.length ≤ slots.length := by simpa using hp.length_le
  refine ⟨_, ?_, h.set hs hj rfl ⟨_, rfl, AvlTree.sorted_insertNode hsort hins⟩⟩
  rw [heq]
  simp [addDataKatcp, hn, AvlTree.addNodeAvltree, hins, writeSlot_eq (Int.natCast_nonneg j)
    (show (j : Int) < slots.length by omega)]

/-- Any other store with matching callbacks fails and changes nothing; a refused node goes to
`fn_free`. -/
theorem storeAtKatcp_refused (h : Wf s ts) {j : Nat} (hj : j < ts.length)
    (hc : ts[j].callbacks = cb) {tree : AvlTree} (htree : ts[j].tTree = some tree)
    (hf : a.createNode = false ∨ k ∈ tree.nodes.map Prod.fst) :
    storeAtKatcp s a j T k v cb =
      if a.createNode then some (-1, s, AvlTree.freeNodeAvltree cb.free v)
      else some (-1, s, [.allocNull "create_node_avltree"]) := by
  obtain ⟨slots, tree', hs, hp, htree', hsort, heq⟩ := storeAtKatcp_eq_addData h hj hc
    (a := a) (T := T) (k := k) (v := v)
  obtain rfl : tree' = tree := Option.some.inj (htree'.symm.trans htree)
  rw [heq]
  cases hn : a.createNode
  · simp [addDataKatcp, hn]
  · simp [addDataKatcp, hn, AvlTree.addNodeAvltree,
      (AvlTree.insertNode_eq_none_iff hsort).mpr (hf.resolve_left (by simp [hn]))]

theorem storeDataTypeKatcp_present (h : Wf s ts) {j : Nat} (hj : j < ts.length) :
    storeDataTypeKatcp s a ts[j].tName k v cb = storeAtKatcp s a j ts[j].tName k v cb := by
  simp only [storeDataTypeKatcp, h.search_found hj, Option.bind_eq_bind, Option.some_bind]
  rw [if_pos (Int.natCast_nonneg j)]

theorem storeDataTypeKatcp_absent_fail (h : Wf s ts) (hT : T ∉ ts.map (·.tName))
    (hf : a.realloc = .fail ∨ a.descriptorNull ≠ none) (k : String) (v : Ptr) (cb : Callbacks) :
    ∃ fn s', storeDataTypeKatcp s a T k v cb =
      some (-1, s', [.allocNull fn, .log s!"could not create new type {T}\n"]) ∧
      fn ≠ "create_node_avltree" ∧ (Wf s' ts ∨ (a.realloc = .moved ∧ Poisoned s')) := by
  obtain ⟨p, -, hr⟩ := h.search_absent hT
  obtain ⟨fn, s', hreg, hfn, hs'⟩ := registerAtIdTypeKatcp_fail h hf p T cb
  refine ⟨fn, s', ?_, hfn, hs'⟩
  simp only [storeDataTypeKatcp, hr, Option.bind_eq_bind, Option.some_bind]
  rw [if_neg (by omega), show (-((p : Int) + 1) + 1) * -1 = p by omega, hreg]
  rfl

theorem storeDataTypeKatcp_absent_ok (h : Wf s ts) (hT : T ∉ ts.map (·.tName))
    (hr : a.realloc ≠ .fail) (hd : a.descriptorNull = none) (k : String) (v : Ptr)
    (cb : Callbacks) :
    ∃ p, InsertionPoint ts T p ∧ storeDataTypeKatcp s a T k v cb =
      storeAtKatcp ⟨.block ((ts.insertIdx p (.fresh T cb)).map some), ts.length + 1⟩ a p T k v
        cb := by
  obtain ⟨p, hp, hsr⟩ := h.search_absent hT
  refine ⟨p, hp, ?_⟩
  simp only [storeDataTypeKatcp, hsr, Option.bind_eq_bind, Option.some_bind]
  rw [if_neg (by omega), show (-((p : Int) + 1) + 1) * -1 = p by omega,
    registerAtIdTypeKatcp_ok h hr hd hp.le]
  simp only [Option.some_bind, if_neg (show ¬ ((p : Int) < 0) by omega), List.nil_append]
  simp


theorem readSlots_holds {slots : List (Option KatcpType)} (hp : ts.map some <+: slots) :
    readSlots (.block slots) ts.length = some (ts.map some) := by
  have hle : ts.length ≤ slots.length := by simpa using hp.length_le
  cases hn : ts.length with
  | zero => simp_all [readSlots]
  | succ n =>
    show (if n + 1 ≤ slots.length then some (slots.take (n + 1)) else none) = _
    rw [if_pos (hn ▸ hle), ← hn]
    simpa using (List.prefix_iff_eq_take.mp hp).symm

theorem findNameTypeKatcp_wf (h : Wf s ts) (T : String) :
    findNameTypeKatcp s T = some (types ts T,
      if T ∈ ts.map (·.tName) then [] else [.log "requested type not defined"]) := by
  by_cases hT : T ∈ ts.map (·.tName)
  · obtain ⟨t, ht, rfl⟩ := List.mem_map.mp hT
    obtain ⟨j, hj, rfl⟩ := List.getElem_of_mem ht
    obtain ⟨slots, hs, hp⟩ := h.block (List.ne_nil_of_length_pos (by omega))
    rw [findNameTypeKatcp, findNameIdTypeKatcp, h.search_found hj]
    simp only [Option.bind_eq_bind, Option.some_bind, if_neg (show ¬ ((j : Int) < 0) by omega), hs,
      read_block_of_lt hp (Int.natCast_nonneg j) (by omega), Int.toNat_ofNat, Option.map_some',
      types_getElem h.ascending hj, if_pos hT]
  · obtain ⟨p, -, hr⟩ := h.search_absent hT
    simp only [findNameTypeKatcp, findNameIdTypeKatcp, hr, Option.bind_eq_bind, Option.some_bind,
      if_pos (show -((p : Int) + 1) < 0 by omega), types_eq_none_iff.mpr hT, if_neg hT]

theorem getKeyDataTypeKatcp_wf (h : Wf s ts) (T k : String) :
    getKeyDataTypeKatcp s T k = some ((lookupData ts T k).getD 0,
      if T ∈ ts.map (·.tName) then [] else [.log "requested type not defined"]) := by
  simp only [getKeyDataTypeKatcp, findNameTypeKatcp_wf h, Option.bind_eq_bind, Option.some_bind,
    lookupData]
  cases ht : types ts T with
  | none => rfl
  | some t =>
    obtain ⟨tree, htree, -⟩ := h.stores t ((types_eq_some_iff h.ascending).mp ht).1
    simp [htree, AvlTree.findNameNodeAvltree]

theorem getIdTypeKatcp_wf (h : Wf s ts) {id : Int} (h0 : 0 ≤ id) :
    getIdTypeKatcp s id = some ts[id.toNat]? := by
  rw [getIdTypeKatcp, h.count]
  split_ifs with hn
  · rw [List.getElem?_eq_none (by omega)]
  · obtain ⟨slots, hs, hp⟩ := h.block (List.ne_nil_of_length_pos (by omega))
    rw [hs, read_block_of_lt hp h0 (by omega), List.getElem?_eq_getElem (by omega)]

/-- A negative `id` passes the one check of `get_id_type_katcp` and is read before the array,
which C leaves undefined. -/
theorem getIdTypeKatcp_neg (s : KatcpShared) {id : Int} (hid : id < 0) :
    getIdTypeKatcp s id = none := by
  rw [getIdTypeKatcp, if_neg (by omega)]
  cases s.sType with
  | block slots => simp [TypeArray.read, readSlot, not_le.mpr hid]
  | _ => rfl

/-- `get_id_type_katcp` checks only `id >= s_type_count`, so the negative index of a name not
registered reads before the array. -/
theorem getIdTypeKatcp_findNameIdTypeKatcp (h : Wf s ts) :
    (∀ id : Int, 0 ≤ id → getIdTypeKatcp s id = some ts[id.toNat]?) ∧
    (∀ id : Int, id < 0 → getIdTypeKatcp s id = none) ∧
    ∀ str, ∃ r, findNameIdTypeKatcp s str = some r ∧
      (str ∈ ts.map (·.tName) → getIdTypeKatcp s r = some (types ts str)) ∧
      (str ∉ ts.map (·.tName) → r < 0 ∧ getIdTypeKatcp s r = none) := by
  refine ⟨fun _ => getIdTypeKatcp_wf h, fun _ => getIdTypeKatcp_neg s, fun str => ?_⟩
  by_cases hm : str ∈ ts.map (·.tName)
  · obtain ⟨t, ht, rfl⟩ := List.mem_map.mp hm
    obtain ⟨j, hj, rfl⟩ := List.getElem_of_mem ht
    refine ⟨j, h.search_found hj, fun _ => ?_, fun hn => absurd hm hn⟩
    rw [getIdTypeKatcp_wf h (Int.natCast_nonneg j), Int.toNat_ofNat,
      List.getElem?_eq_getElem hj, types_getElem h.ascending hj]
  · obtain ⟨p, -, hr⟩ := h.search_absent hm
    exact ⟨_, hr, fun hm' => absurd hm' hm, fun _ => ⟨by omega, getIdTypeKatcp_neg s (by omega)⟩⟩

theorem getIdTypeKatcp_findNameIdTypeKatcp_empty :
    Wf .empty [] ∧
    (∀ id : Int, 0 ≤ id → getIdTypeKatcp .empty id = some ([] : List KatcpType)[id.toNat]?) ∧
    (∀ id : Int, id < 0 → getIdTypeKatcp .empty id = none) ∧
    ∀ str, ∃ r, findNameIdTypeKatcp .empty str = some r ∧
      (str ∈ ([] : List KatcpType).map (·.tName) → getIdTypeKatcp .empty r = some (types [] str)) ∧
      (str ∉ ([] : List KatcpType).map (·.tName) → r < 0 ∧ getIdTypeKatcp .empty r = none) :=
  ⟨wf_empty, getIdTypeKatcp_findNameIdTypeKatcp wf_empty⟩

theorem printTypesKatcp_wf (h : Wf s ts) :
    printTypesKatcp s = some (ts.flatMap fun t => printTypeKatcp (some t) 0) := by
  have hh := h.holds
  cases hs : s.sType with
  | null =>
    rw [hs] at hh
    obtain rfl : ts = [] := hh
    simp [printTypesKatcp, hs]
  | block slots =>
    rw [hs] at hh
    simp [printTypesKatcp, hs, h.count, readSlots_holds hh, List.flatMap_map]
  | freed => rw [hs] at hh; exact hh.elim

/-- `destroy_type_list_katcp` releases every store, type by type, and empties the registry. -/
theorem destroyTypeListKatcp_wf (h : Wf s ts) :
    destroyTypeListKatcp s = some (.empty, ts.flatMap KatcpType.destroyTypeKatcp) := by
  have hh := h.holds
  cases hs : s.sType with
  | null =>
    rw [hs] at hh
    subst hh
    rw [h.eta, hs]
    rfl
  | block slots =>
    rw [hs] at hh
    simp [destroyTypeListKatcp, hs, h.count, readSlots_holds hh, List.flatMap_map, releaseSlot]
  | freed => rw [hs] at hh; exact hh.elim

end Katcp
