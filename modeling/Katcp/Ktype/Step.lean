import Katcp.Ktype.Store

/-! The registry one level up: what a call does to the list of descriptors. -/
namespace Katcp

/-- What one call does to the descriptors `ts`: its reply, the descriptors after it (`none` once
`s_type` dangles) and its effects. -/
inductive Step (ts : List KatcpType) : Call → Reply → Option (List KatcpType) → List Effect → Prop
  | registerDup {T : String} {cb : Callbacks} (hT : T ∈ ts.map (·.tName)) :
    Step ts (.registerNameType T cb) (.int (-1)) (some ts) []
  | register {T : String} {cb : Callbacks} {p : Nat} (hp : InsertionPoint ts T p) :
    Step ts (.registerNameType T cb) (.int p) (some (ts.insertIdx p (.fresh T cb))) []
  | registerNull {T : String} {cb : Callbacks} {fn : String} {o : Option (List KatcpType)}
    (hT : T ∉ ts.map (·.tName)) (hfn : fn ≠ "create_node_avltree")
    (ho : o = some ts ∨ o = none) :
    Step ts (.registerNameType T cb) (.int (-1)) o [.allocNull fn]
  | deregisterAbsent {T : String} (hT : T ∉ ts.map (·.tName)) :
    Step ts (.deregisterType T) (.int (-1)) (some ts) []
  | deregister {j : Nat} (hj : j < ts.length) (h1 : ts.length ≠ 1) :
    Step ts (.deregisterType ts[j].tName) (.int 0) (some (ts.eraseIdx j)) ts[j].destroyTypeKatcp
  | deregisterLast {j : Nat} (hj : j < ts.length) (h1 : ts.length = 1) :
    Step ts (.deregisterType ts[j].tName) (.int (-1)) none
      (ts[j].destroyTypeKatcp ++ [.allocNull "realloc"])
  | storeMismatch {j : Nat} {T k : String} {v : Ptr} {cb : Callbacks} (hj : j < ts.length)
    (hT : ts[j].tName = T) (hc : ts[j].callbacks ≠ cb) :
    Step ts (.storeDataType T k v cb) (.int (-1)) (some ts)
      [.log s!"callbacks for data with key <{k}> dont match type {T}\n"]
  | storeNoNode {j : Nat} {T k : String} {v : Ptr} (hj : j < ts.length) (hT : ts[j].tName = T) :
    Step ts (.storeDataType T k v ts[j].callbacks) (.int (-1)) (some ts)
      [.allocNull "create_node_avltree"]
  | storeDup {j : Nat} {T k : String} {v : Ptr} {tree : AvlTree} (hj : j < ts.length)
    (hT : ts[j].tName = T) (htree : ts[j].tTree = some tree) (hk : k ∈ tree.nodes.map Prod.fst) :
    Step ts (.storeDataType T k v ts[j].callbacks) (.int (-1)) (some ts)
      (AvlTree.freeNodeAvltree ts[j].tFree v)
  | store {j : Nat} {T k : String} {v : Ptr} {tree : AvlTree} {nodes : List (String × Ptr)}
    (hj : j < ts.length) (hT : ts[j].tName = T) (htree : ts[j].tTree = some tree)
    (hins : AvlTree.insertNode k v tree.nodes = some nodes) :
    Step ts (.storeDataType T k v ts[j].callbacks) (.int 0)
      (some (ts.set j { ts[j] with tTree := some ⟨nodes⟩ })) []
  | storeNew {T k : String} {v : Ptr} {cb : Callbacks} {p : Nat} (hp : InsertionPoint ts T p) :
    Step ts (.storeDataType T k v cb) (.int 0)
      (some (ts.insertIdx p { KatcpType.fresh T cb with tTree := some ⟨[(k, v)]⟩ })) []
  | storeNewNoNode {T k : String} {v : Ptr} {cb : Callbacks} {p : Nat}
    (hp : InsertionPoint ts T p) :
    Step ts (.storeDataType T k v cb) (.int (-1)) (some (ts.insertIdx p (.fresh T cb)))
      [.allocNull "create_node_avltree"]
  | storeNewNull {T k : String} {v : Ptr} {cb : Callbacks} {fn : String}
    {o : Option (List KatcpType)} (hT : T ∉ ts.map (·.tName)) (hfn : fn ≠ "create_node_avltree")
    (ho : o = some ts ∨ o = none) :
    Step ts (.storeDataType T k v cb) (.int (-1)) o
      [.allocNull fn, .log s!"could not create new type {T}\n"]
  | destroy : Step ts .destroyTypeList .unit (some []) (ts.flatMap KatcpType.destroyTypeKatcp)
  | findNameId {T : String} {r : Int} (hr : SearchResult ts T r) :
    Step ts (.findNameIdType T) (.int r) (some ts) []
  | findName {T : String} :
    Step ts (.findNameType T) (.type (types ts T)) (some ts)
      (if T ∈ ts.map (·.tName) then [] else [.log "requested type not defined"])
  | getId {id : Int} (h0 : 0 ≤ id) : Step ts (.getIdType id) (.type ts[id.toNat]?) (some ts) []
  | getKeyData {T k : String} :
    Step ts (.getKeyDataType T k) (.data ((lookupData ts T k).getD 0)) (some ts)
      (if T ∈ ts.map (·.tName) then [] else [.log "requested type not defined"])
  | print : Step ts .printTypes .unit (some ts) (ts.flatMap fun t => printTypeKatcp (some t) 0)

/-- Runs of the abstract machine: a registry whose descriptors are lost only answers
`get_id_type_katcp` past the count. -/
inductive Steps (ts : List KatcpType) : List Event → Option (List KatcpType) → Prop
  | nil : Steps ts [] (some ts)
  | snoc {es : List Event} {e : Event} {ts' : List KatcpType} {o : Option (List KatcpType)} :
    Steps ts es (some ts') → Step ts' e.call e.reply o e.effects → Steps ts (es ++ [e]) o
  | lost {es : List Event} {e : Event} {id : Int} : Steps ts es none →
    e.call = .getIdType id → e.reply = .type none → e.effects = [] → Steps ts (es ++ [e]) none

/-- The registry after a step stands for the descriptors `o`, or is poisoned when they are
lost. -/
def Tracks (s : KatcpShared) : Option (List KatcpType) → Prop
  | some ts => Wf s ts
  | none => Poisoned s

variable {s s' : KatcpShared} {ts : List KatcpType} {a : Alloc} {T k : String} {v : Ptr}
  {cb : Callbacks} {r : Int} {es : List Effect}

theorem Step.lost {c : Call} {rp : Reply} (h : Step ts c rp none es) :
    ∃ fn, .allocNull fn ∈ es ∧ fn ≠ "create_node_avltree" := by
  cases h with
  | registerNull _ hfn => exact ⟨_, List.mem_singleton_self _, hfn⟩
  | deregisterLast => exact ⟨_, List.mem_append_right _ (List.mem_singleton_self _), by decide⟩
  | storeNewNull _ hfn => exact ⟨_, List.mem_cons_self _ _, hfn⟩

theorem fresh_sorted (T : String) (cb : Callbacks) :
    ∃ tree, (KatcpType.fresh T cb).tTree = some tree ∧ tree.Sorted :=
  ⟨_, rfl, List.sorted_nil⟩

theorem registerNameTypeKatcp_step (h : Wf s ts)
    (he : registerNameTypeKatcp s a T cb = some (r, s', es)) :
    ∃ o, Step ts (.registerNameType T cb) (.int r) o es ∧ Tracks s' o ∧
      (o = none → a.realloc = .moved ∧ a.descriptorNull ≠ none) := by
  by_cases hT : T ∈ ts.map (·.tName)
  · obtain ⟨t, ht, rfl⟩ := List.mem_map.mp hT
    obtain ⟨j, hj, rfl⟩ := List.getElem_of_mem ht
    rw [registerNameTypeKatcp_present h a hj cb] at he
    cases he
    exact ⟨_, .registerDup hT, h, nofun⟩
  obtain ⟨p, hp, heq⟩ := registerNameTypeKatcp_absent h a hT cb
  rw [heq] at he
  by_cases hok : a.realloc ≠ .fail ∧ a.descriptorNull = none
  · rw [registerAtIdTypeKatcp_ok h hok.1 hok.2 hp.le] at he
    cases he
    exact ⟨_, .register hp, wf_insertIdx h hp (fresh_sorted T cb), nofun⟩
  · obtain ⟨fn, s'', hreg, hfn, hs''⟩ :=
      registerAtIdTypeKatcp_fail h ((not_and_or.mp hok).imp not_not.mp id) p T cb
    rw [hreg] at he
    cases he
    rcases hs'' with hw | ⟨hm, hpo⟩
    · exact ⟨_, .registerNull hT hfn (.inl rfl), hw, nofun⟩
    · exact ⟨_, .registerNull hT hfn (.inr rfl), hpo, fun _ => ⟨hm, fun hd => hok ⟨by simp [hm], hd⟩⟩⟩

theorem deregisterTypeKatcp_step (h : Wf s ts) (he : deregisterTypeKatcp s T = some (r, s', es)) :
    ∃ o, Step ts (.deregisterType T) (.int r) o es ∧ Tracks s' o := by
  by_cases hT : T ∈ ts.map (·.tName)
  · obtain ⟨t, ht, rfl⟩ := List.mem_map.mp hT
    obtain ⟨j, hj, rfl⟩ := List.getElem_of_mem ht
    rw [deregisterTypeKatcp_present h hj] at he
    split_ifs at he with h1
    · cases he
      exact ⟨_, .deregisterLast hj h1, rfl, by decide⟩
    · cases he
      exact ⟨_, .deregister hj h1, wf_eraseIdx h hj h1⟩
  · rw [deregisterTypeKatcp_absent h hT] at he
    cases he
    exact ⟨_, .deregisterAbsent hT, h⟩

theorem storeAtKatcp_step (h : Wf s ts) {j : Nat} (hj : j < ts.length) (hT : ts[j].tName = T)
    (he : storeAtKatcp s a j T k v cb = some (r, s', es)) :
    ∃ o, Step ts (.storeDataType T k v cb) (.int r) o es ∧ Tracks s' o := by
  by_cases hc : ts[j].callbacks = cb
  · subst hc
    obtain ⟨tree, htree, hsort⟩ := h.stores _ (List.getElem_mem hj)
    by_cases hok : a.createNode = true ∧ k ∉ tree.nodes.map Prod.fst
    · have hne : AvlTree.insertNode k v tree.nodes ≠ none :=
        fun hn => hok.2 ((AvlTree.insertNode_eq_none_iff hsort).mp hn)
      obtain ⟨nodes, hins⟩ := Option.ne_none_iff_exists'.mp hne
      obtain ⟨s'', heq, hw⟩ := storeAtKatcp_ok (T := T) h hj rfl hok.1 htree hins
      rw [heq] at he
      cases he
      exact ⟨_, .store hj hT htree hins, hw⟩
    · have hf : a.createNode = false ∨ k ∈ tree.nodes.map Prod.fst := by
        cases hn : a.createNode
        · exact .inl rfl
        · exact .inr (not_not.mp fun hk => hok ⟨hn, hk⟩)
      rw [storeAtKatcp_refused h hj rfl htree hf] at he
      cases hn : a.createNode
      · rw [hn] at he
        cases he
        exact ⟨_, .storeNoNode hj hT, h⟩
      · rw [hn, if_pos rfl] at he
        cases he
        exact ⟨_, .storeDup hj hT htree (hf.resolve_left (by simp [hn])), h⟩
  · rw [storeAtKatcp_mismatch h hj hc] at he
    cases he
    exact ⟨_, .storeMismatch hj hT hc, h⟩

theorem storeDataTypeKatcp_new (h : Wf s ts) (hT : T ∉ ts.map (·.tName)) (hr : a.realloc ≠ .fail)
    (hd : a.descriptorNull = none) (hn : a.createNode = true) (k : String) (v : Ptr)
    (cb : Callbacks) :
    ∃ p s', InsertionPoint ts T p ∧ storeDataTypeKatcp s a T k v cb = some (0, s', []) ∧
      Wf s' (ts.insertIdx p { KatcpType.fresh T cb with tTree := some ⟨[(k, v)]⟩ }) := by
  obtain ⟨p, hp, heq⟩ := storeDataTypeKatcp_absent_ok h hT hr hd k v cb
  have hp₁ : p < (ts.insertIdx p (.fresh T cb)).length := by
    rw [List.length_insertIdx _ _ hp.le]
    exact Nat.lt_succ_of_le hp.le
  have hget : (ts.insertIdx p (.fresh T cb))[p] = .fresh T cb :=
    List.getElem_insertIdx_self _ _ _ hp.le
  have ht₁ : (ts.insertIdx p (.fresh T cb))[p].tTree = some ⟨[]⟩ := by rw [hget]; rfl
  obtain ⟨s', hst, hw⟩ := storeAtKatcp_ok (T := T) (k := k) (v := v)
    (wf_insertIdx h hp (fresh_sorted T cb)) hp₁ (by rw [hget]) hn ht₁ rfl
  rw [hget, insertIdx_set_self hp.le] at hw
  exact ⟨p, s', hp, heq.trans hst, hw⟩

theorem Step.store_lost {c : Call} {rp : Reply} (hst : Step ts c rp none es)
    (hc : c = .storeDataType T k v cb) : T ∉ ts.map (·.tName) := by
  cases hst with
  | storeNewNull hT => cases hc; exact hT
  | _ => cases hc

theorem storeDataTypeKatcp_step (h : Wf s ts)
    (he : storeDataTypeKatcp s a T k v cb = some (r, s', es)) :
    ∃ o, Step ts (.storeDataType T k v cb) (.int r) o es ∧ Tracks s' o ∧
      (o = none → a.realloc = .moved ∧ a.descriptorNull ≠ none) := by
  by_cases hT : T ∈ ts.map (·.tName)
  · obtain ⟨t, ht, rfl⟩ := List.mem_map.mp hT
    obtain ⟨j, hj, rfl⟩ := List.getElem_of_mem ht
    rw [storeDataTypeKatcp_present h hj] at he
    obtain ⟨o, hst, ht⟩ := storeAtKatcp_step h hj rfl he
    exact ⟨o, hst, ht, fun ho => absurd hT ((ho ▸ hst).store_lost rfl)⟩
  by_cases hok : a.realloc ≠ .fail ∧ a.descriptorNull = none
  · cases hn : a.createNode
    · obtain ⟨p, hp, heq⟩ := storeDataTypeKatcp_absent_ok h hT hok.1 hok.2 k v cb
      have h₁ := wf_insertIdx h hp (fresh_sorted T cb)
      have hp₁ : p < (ts.insertIdx p (.fresh T cb)).length := by
        rw [List.length_insertIdx _ _ hp.le]
        exact Nat.lt_succ_of_le hp.le
      have hget : (ts.insertIdx p (.fresh T cb))[p] = .fresh T cb :=
        List.getElem_insertIdx_self _ _ _ hp.le
      rw [heq, storeAtKatcp_refused h₁ hp₁ (by rw [hget]; rfl) (by rw [hget]; rfl) (.inl hn),
        hn] at he
      cases he
      exact ⟨_, .storeNewNoNode hp, h₁, nofun⟩
    · obtain ⟨p, s'', hp, heq, hw⟩ := storeDataTypeKatcp_new h hT hok.1 hok.2 hn k v cb
      rw [heq] at he
      cases he
      exact ⟨_, .storeNew hp, hw, nofun⟩
  · obtain ⟨fn, s'', heq, hfn, hs''⟩ :=
      storeDataTypeKatcp_absent_fail h hT ((not_and_or.mp hok).imp not_not.mp id) k v cb
    rw [heq] at he
    cases he
    rcases hs'' with hw | ⟨hm, hpo⟩
    · exact ⟨_, .storeNewNull hT hfn (.inl rfl), hw, nofun⟩
    · exact ⟨_, .storeNewNull hT hfn (.inr rfl), hpo, fun _ => ⟨hm, fun hd => hok ⟨by simp [hm], hd⟩⟩⟩

/-- From a consistent registry every defined call makes one `Step`, and the registry after it tracks
its result. -/
theorem exec_step (h : Wf s ts) {c : Call} {rp : Reply}
    (he : exec s a c = some (rp, s', es)) : ∃ o, Step ts c rp o es ∧ Tracks s' o := by
  cases c with
  | registerNameType T cb =>
    obtain ⟨⟨r, s'', es'⟩, hop, he⟩ := Option.map_eq_some'.mp he
    cases he
    obtain ⟨o, hst, ht, -⟩ := registerNameTypeKatcp_step h hop
    exact ⟨o, hst, ht⟩
  | deregisterType T =>
    obtain ⟨⟨r, s'', es'⟩, hop, he⟩ := Option.map_eq_some'.mp he
    cases he
    exact deregisterTypeKatcp_step h hop
  | storeDataType T k v cb =>
    obtain ⟨⟨r, s'', es'⟩, hop, he⟩ := Option.map_eq_some'.mp he
    cases he
    obtain ⟨o, hst, ht, -⟩ := storeDataTypeKatcp_step h hop
    exact ⟨o, hst, ht⟩
  | destroyTypeList =>
    simp only [exec, destroyTypeListKatcp_wf h, Option.map_some', Option.some.injEq,
      Prod.mk.injEq] at he
    obtain ⟨rfl, rfl, rfl⟩ := he
    exact ⟨_, .destroy, wf_empty⟩
  | findNameIdType T =>
    obtain ⟨r, hr, hres⟩ := h.search T
    simp only [exec, findNameIdTypeKatcp, hr, Option.map_some', Option.some.injEq,
      Prod.mk.injEq] at he
    obtain ⟨rfl, rfl, rfl⟩ := he
    exact ⟨_, .findNameId hres, h⟩
  | findNameType T =>
    simp only [exec, findNameTypeKatcp_wf h, Option.map_some', Option.some.injEq,
      Prod.mk.injEq] at he
    obtain ⟨rfl, rfl, rfl⟩ := he
    exact ⟨_, .findName, h⟩
  | getIdType id =>
    by_cases h0 : 0 ≤ id
    · simp only [exec, getIdTypeKatcp_wf h h0, Option.map_some', Option.some.injEq,
        Prod.mk.injEq] at he
      obtain ⟨rfl, rfl, rfl⟩ := he
      exact ⟨_, .getId h0, h⟩
    · have hn : ¬ ((s.sTypeCount : Int) ≤ id) := by omega
      cases hs : s.sType <;>
        simp [exec, getIdTypeKatcp, hn, hs, TypeArray.read, readSlot, h0] at he
  | getKeyDataType T k =>
    simp only [exec, getKeyDataTypeKatcp_wf h, Option.map_some', Option.some.injEq,
      Prod.mk.injEq] at he
    obtain ⟨rfl, rfl, rfl⟩ := he
    exact ⟨_, .getKeyData, h⟩
  | printTypes =>
    simp only [exec, printTypesKatcp_wf h, Option.map_some', Option.some.injEq,
      Prod.mk.injEq] at he
    obtain ⟨rfl, rfl, rfl⟩ := he
    exact ⟨_, .print, h⟩

/-- The calls that leave `s_type` dangling: a new name where `realloc` moved and a descriptor
allocation failed, or the sole type's removal. -/
def Call.Dangles (ts : List KatcpType) (a : Alloc) : Call → Prop
  | .registerNameType T _ | .storeDataType T _ _ _ =>
    T ∉ ts.map (·.tName) ∧ a.realloc = .moved ∧ a.descriptorNull ≠ none
  | .deregisterType T => T ∈ ts.map (·.tName) ∧ ts.length = 1
  | _ => False

/-- Only the calls of `Call.Dangles` lose the descriptors of a consistent registry. -/
theorem exec_dangles (h : Wf s ts) {c : Call} {rp : Reply} (he : exec s a c = some (rp, s', es))
    (hpo : Poisoned s') : c.Dangles ts a := by
  have lost : ∀ {o}, Tracks s' o → o = none := fun {o} ht => match o, ht with
    | none, _ => rfl
    | some _, ht => absurd ht hpo.not_wf
  cases c with
  | registerNameType T cb =>
    obtain ⟨⟨r, s'', es'⟩, hop, he⟩ := Option.map_eq_some'.mp he
    cases he
    obtain ⟨o, hst, ht, hd⟩ := registerNameTypeKatcp_step h hop
    obtain rfl := lost ht
    cases hst with | registerNull hT => exact ⟨hT, hd rfl⟩
  | storeDataType T k v cb =>
    obtain ⟨⟨r, s'', es'⟩, hop, he⟩ := Option.map_eq_some'.mp he
    cases he
    obtain ⟨o, hst, ht, hd⟩ := storeDataTypeKatcp_step h hop
    obtain rfl := lost ht
    exact ⟨hst.store_lost rfl, hd rfl⟩
  | deregisterType T =>
    obtain ⟨o, hst, ht⟩ := exec_step h he
    obtain rfl := lost ht
    cases hst with
    | deregisterLast hj h1 => exact ⟨List.mem_map_of_mem _ (List.getElem_mem hj), h1⟩
  | _ =>
    obtain ⟨o, hst, ht⟩ := exec_step h he
    obtain rfl := lost ht
    cases hst

theorem binarySearchTypeListKatcp_freed {n : Int} (hn : 0 < n) (str : String) :
    binarySearchTypeListKatcp .freed n str = none := by
  rw [binarySearchTypeListKatcp, if_neg (by simp; omega), bsearchLoop, dif_pos (by omega)]
  rfl

/-- In a poisoned registry only `get_id_type_katcp` past the count is defined, answering `NULL`. -/
theorem exec_poisoned (hp : Poisoned s) {c : Call} {rp : Reply}
    (he : exec s a c = some (rp, s', es)) :
    (∃ id, c = .getIdType id) ∧ rp = .type none ∧ es = [] ∧ s' = s := by
  obtain ⟨hs, hn⟩ := hp
  have hn' : (0 : Int) < s.sTypeCount := by omega
  cases c with
  | getIdType id =>
    simp only [exec, getIdTypeKatcp, hs, TypeArray.read] at he
    split_ifs at he
    · simp only [Option.map_some', Option.some.injEq, Prod.mk.injEq] at he
      obtain ⟨rfl, rfl, rfl⟩ := he
      exact ⟨⟨id, rfl⟩, rfl, rfl, rfl⟩
    · cases he
  | _ =>
    simp [exec, registerNameTypeKatcp, deregisterTypeKatcp, storeDataTypeKatcp,
      destroyTypeListKatcp, findNameIdTypeKatcp, findNameTypeKatcp, getKeyDataTypeKatcp,
      printTypesKatcp, readSlots, binarySearchTypeListKatcp_freed hn',
      hs, hn.ne'] at he

end Katcp
