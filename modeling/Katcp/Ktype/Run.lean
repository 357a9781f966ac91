import Katcp.Ktype.Step

/-! Runs of calls from the empty registry: what every run keeps, and what a failed call leaves. -/
namespace Katcp

variable {s s₀ s' : KatcpShared} {ts ts₀ : List KatcpType} {es : List Event} {a : Alloc}
  {T k : String} {v : Ptr} {cb : Callbacks} {r : Int} {effs : List Effect}

/-- From a consistent registry every run ends consistent or poisoned. -/
theorem Run.wf_or_poisoned (hrun : Run s₀ es s) (h₀ : Wf s₀ ts₀) :
    (∃ ts, Wf s ts) ∨ Poisoned s := by
  induction hrun with
  | nil => exact .inl ⟨_, h₀⟩
  | snoc _ he ih =>
    rcases ih with ⟨ts, h⟩ | hp
    · obtain ⟨o, -, ht⟩ := exec_step h he
      cases o with
      | none => exact .inr ht
      | some ts' => exact .inl ⟨ts', ht⟩
    · exact .inr ((exec_poisoned hp he).2.2.2 ▸ hp)

/-- Induction over a run: what every step keeps holds at the end, or up to the call that left
`s_type` dangling. -/
theorem Run.wf_induction {P : Event → Prop} {I : List Event → List KatcpType → Prop}
    (hrun : Run s₀ es s) (h₀ : Wf s₀ ts₀) (hP : ∀ e ∈ es, P e) (hI : I [] ts₀)
    (hstep : ∀ {t es e ts₁ ts₂}, Wf t ts₁ → P e → I es ts₁ →
      Step ts₁ e.call e.reply (some ts₂) e.effects → I (es ++ [e]) ts₂) :
    (∃ ts, Wf s ts ∧ I es ts) ∨
    ∃ es₁ e es₂, es = es₁ ++ e :: es₂ ∧ (∃ ts₁, I es₁ ts₁) ∧ Poisoned s ∧
      (∃ fn, .allocNull fn ∈ e.effects ∧ fn ≠ "create_node_avltree") ∧
      ∀ e' ∈ es₂, (∃ id, e'.call = .getIdType id) ∧ e'.reply = .type none := by
  induction hrun with
  | nil => exact .inl ⟨ts₀, h₀, hI⟩
  | @snoc _ _ es e _ he ih =>
    have last : e ∈ es ++ [e] := List.mem_append_right _ (List.mem_singleton_self _)
    rcases ih fun e' he' => hP e' (List.mem_append_left _ he') with
      ⟨ts₁, h₁, hI₁⟩ | ⟨es₁, e₁, es₂, rfl, hI₁, hp, hn, hrest⟩
    · obtain ⟨o, hst, ht⟩ := exec_step h₁ he
      cases o with
      | none => exact .inr ⟨es, e, [], rfl, ⟨ts₁, hI₁⟩, ht, hst.lost, by simp⟩
      | some ts₂ => exact .inl ⟨ts₂, ht, hstep h₁ (hP e last) hI₁ hst⟩
    · obtain ⟨hid, hnone, -, rfl⟩ := exec_poisoned hp he
      refine .inr ⟨es₁, e₁, es₂ ++ [e], by simp, hI₁, hp, hn, fun e' he' => ?_⟩
      rcases List.mem_append.mp he' with he' | he'
      · exact hrest e' he'
      · rw [List.mem_singleton.mp he']
        exact ⟨hid, hnone⟩

theorem reachable_wf_or_poisoned (h : Reachable s) : (∃ ts, Wf s ts) ∨ Poisoned s :=
  let ⟨_, hrun⟩ := h
  hrun.wf_or_poisoned wf_empty

/-- A call that changes the registry is defined only on a consistent one. -/
theorem Reachable.wf_of_exec (h : Reachable s) {c : Call} {rp : Reply}
    (hc : ∀ id, c ≠ .getIdType id) (he : exec s a c = some (rp, s', effs)) : ∃ ts, Wf s ts :=
  (reachable_wf_or_poisoned h).resolve_right fun hp =>
    let ⟨⟨id, hid⟩, _⟩ := exec_poisoned hp he
    hc id hid

/-- Every run from a consistent registry is a run of `Step`s with the same calls, replies and
effects. -/
theorem Run.refines_steps (hrun : Run s₀ es s) (h₀ : Wf s₀ ts₀) :
    ∃ o, Steps ts₀ es o ∧ Tracks s o := by
  induction hrun with
  | nil => exact ⟨_, .nil, h₀⟩
  | snoc _ he ih =>
    obtain ⟨o, hsteps, ht⟩ := ih
    cases o with
    | some ts =>
      obtain ⟨o', hst, ht'⟩ := exec_step ht he
      exact ⟨o', hsteps.snoc hst, ht'⟩
    | none =>
      obtain ⟨⟨id, hid⟩, hrp, heff, rfl⟩ := exec_poisoned ht he
      exact ⟨none, hsteps.lost hid hrp heff, ht⟩

theorem Run.wf (hrun : Run s₀ es s) (h₀ : Wf s₀ ts₀)
    (hnn : ∀ e ∈ es, ∀ fn, .allocNull fn ∈ e.effects → fn = "create_node_avltree") :
    ∃ ts, Wf s ts := by
  induction hrun with
  | nil => exact ⟨_, h₀⟩
  | snoc _ he ih =>
    obtain ⟨ts, h⟩ := ih fun e he fn hfn => hnn e (List.mem_append_left _ he) fn hfn
    obtain ⟨o, hst, ht⟩ := exec_step h he
    cases o with
    | none =>
      obtain ⟨fn, hfn, hne⟩ := hst.lost
      exact absurd (hnn _ (List.mem_append_right _ (List.mem_singleton_self _)) fn hfn) hne
    | some ts' => exact ⟨ts', ht⟩

/-- With no allocation answering `NULL`, every run from the empty registry keeps it consistent. -/
theorem run_consistent (hrun : Run .empty es s)
    (hnn : ∀ e ∈ es, ∀ fn, .allocNull fn ∈ e.effects → fn = "create_node_avltree") :
    ∃ ts, Wf s ts :=
  hrun.wf wf_empty hnn

theorem wf_single (T : String) (cb : Callbacks) :
    Wf ⟨.block [some (.fresh T cb)], 1⟩ [.fresh T cb] :=
  ⟨List.prefix_refl _, rfl, fun _ => List.cons_ne_nil _ _, List.sorted_singleton _,
    fun t ht => by rw [List.mem_singleton.mp ht]; exact fresh_sorted T cb⟩

theorem wf_pair {T T' : String} (hlt : T < T') (cb cb' : Callbacks) :
    Wf ⟨.block [some (.fresh T cb), some (.fresh T' cb')], 2⟩ [.fresh T cb, .fresh T' cb'] :=
  ⟨List.prefix_refl _, rfl, fun _ => List.cons_ne_nil _ _,
    List.sorted_cons.mpr ⟨by simpa using hlt, List.sorted_singleton _⟩, by
      simp only [List.mem_cons, List.mem_singleton, List.not_mem_nil, or_false]
      rintro t (rfl | rfl) <;> exact fresh_sorted _ _⟩

theorem exec_registerNameType_at (h : Wf s ts) {p : Nat} (hp : InsertionPoint ts T p)
    (cb : Callbacks) :
    exec s .ok (.registerNameType T cb) =
      some (.int p, ⟨.block ((ts.insertIdx p (.fresh T cb)).map some), ts.length + 1⟩, []) := by
  obtain ⟨q, hq, heq⟩ := registerNameTypeKatcp_absent h Alloc.ok hp.not_mem cb
  obtain rfl := hq.unique hp
  simp only [exec, heq, registerAtIdTypeKatcp_ok h (a := .ok) (by decide) rfl hq.le]
  rfl

theorem exec_registerNameType_empty (T : String) (cb : Callbacks) :
    exec .empty Alloc.ok (.registerNameType T cb) =
      some (.int 0, ⟨.block [some (.fresh T cb)], 1⟩, []) :=
  exec_registerNameType_at wf_empty
    ⟨le_rfl, fun _ h => absurd h (Nat.not_lt_zero _), fun _ h => absurd h (Nat.not_lt_zero _)⟩ cb

theorem run_register :
    Run .empty [⟨.registerNameType "a" ⟨0, 0, 0, 0, 0⟩, .ok, .int 0, []⟩]
      ⟨.block [some (.fresh "a" ⟨0, 0, 0, 0, 0⟩)], 1⟩ :=
  .snoc (.nil _) (exec_registerNameType_empty _ _)

/-- Register `"b"`, then `"a"`, which goes in before it and moves it up. -/
theorem run_register_two :
    Run .empty [⟨.registerNameType "b" ⟨0, 0, 0, 0, 0⟩, .ok, .int 0, []⟩,
      ⟨.registerNameType "a" ⟨0, 0, 0, 0, 0⟩, .ok, .int 0, []⟩]
      ⟨.block [some (.fresh "a" ⟨0, 0, 0, 0, 0⟩), some (.fresh "b" ⟨0, 0, 0, 0, 0⟩)], 2⟩ :=
  .snoc (.snoc (.nil _) (exec_registerNameType_empty _ _))
    (exec_registerNameType_at (wf_single "b" _) ⟨by simp, fun _ _ h => absurd h (Nat.not_lt_zero _),
      fun j hj _ => by
        obtain rfl : j = 0 := by simpa using hj
        exact compare_lt_iff_lt.mp (show compare "a" "b" = .lt by decide)⟩ _)

theorem run_consistent_two :
    Run .empty [⟨.registerNameType "b" ⟨0, 0, 0, 0, 0⟩, .ok, .int 0, []⟩,
      ⟨.registerNameType "a" ⟨0, 0, 0, 0, 0⟩, .ok, .int 0, []⟩]
      ⟨.block [some (.fresh "a" ⟨0, 0, 0, 0, 0⟩), some (.fresh "b" ⟨0, 0, 0, 0, 0⟩)], 2⟩ ∧
    ∃ ts, Wf ⟨.block [some (.fresh "a" ⟨0, 0, 0, 0, 0⟩), some (.fresh "b" ⟨0, 0, 0, 0, 0⟩)], 2⟩ ts :=
  ⟨run_register_two, run_consistent run_register_two (by simp)⟩

/-- A store that returns `0` binds `(T, k)` to `v` and changes no other stored value. -/
theorem Step.lookupData_store (h : Wf s ts) {c : Call} {rp : Reply}
    {o : Option (List KatcpType)} (hst : Step ts c rp o effs)
    (hc : c = .storeDataType T k v cb) (hr : rp = .int 0) :
    ∃ ts', o = some ts' ∧ ∀ T' k',
      lookupData ts' T' k' = if T' = T ∧ k' = k then some v else lookupData ts T' k' := by
  cases hst with
  | @store j _ _ _ tree nodes hj hT htree hins =>
    cases hc
    subst hT
    refine ⟨_, rfl, fun T' k' => ?_⟩
    rw [lookupData, types_set h.ascending hj (t := { ts[j] with tTree := some ⟨nodes⟩ }) rfl]
    by_cases hT' : T' = ts[j].tName
    · subst hT'
      simp [lookupData, types_getElem h.ascending hj, htree, AvlTree.findNameNodeAvltree,
        AvlTree.lookup_insertNode hins]
    · simp [lookupData, hT']
  | storeNew hp =>
    cases hc
    refine ⟨_, rfl, fun T' k' => ?_⟩
    rw [lookupData, types_insertIdx h.ascending hp.le hp.not_mem (h.ascending.insertIdx hp)]
    by_cases hT' : T' = T
    · subst hT'
      simp [lookupData, types_eq_none_iff.mpr hp.not_mem, AvlTree.findNameNodeAvltree,
        AvlTree.lookup]
    · simp [Function.update_noteq hT', hT', lookupData]
  | _ => first | (cases hc; done) | simp at hr

theorem Step.store_held (h : Wf s ts) {c : Call} {rp : Reply} {o : Option (List KatcpType)}
    (hst : Step ts c rp o effs) (hc : c = .storeDataType T k v cb) {w : Ptr}
    (hw : lookupData ts T k = some w) : rp = .int (-1) ∧ o = some ts := by
  have hmem : T ∈ ts.map (·.tName) := by
    by_contra hT
    simp [lookupData, types_eq_none_iff.mpr hT] at hw
  cases hst with
  | @store j _ _ _ tree _ hj hT htree hins =>
    cases hc
    subst hT
    obtain ⟨tree', htree', hsort⟩ := h.stores _ (List.getElem_mem hj)
    obtain rfl : tree' = tree := Option.some.inj (htree'.symm.trans htree)
    simp only [lookupData, types_getElem h.ascending hj, htree, Option.some_bind,
      AvlTree.findNameNodeAvltree] at hw
    have hk : k ∈ tree'.nodes.map Prod.fst := by
      by_contra hk
      rw [AvlTree.lookup_eq_none_iff.mpr hk] at hw
      cases hw
    rw [(AvlTree.insertNode_eq_none_iff hsort).mpr hk] at hins
    cases hins
  | storeNew hp => cases hc; exact absurd hmem hp.not_mem
  | storeNewNoNode hp => cases hc; exact absurd hmem hp.not_mem
  | storeNewNull hT => cases hc; exact absurd hmem hT
  | storeMismatch => exact ⟨rfl, rfl⟩
  | storeNoNode => exact ⟨rfl, rfl⟩
  | storeDup => exact ⟨rfl, rfl⟩
  | _ => cases hc

theorem Run.refines_steps_two :
    Run .empty [⟨.registerNameType "b" ⟨0, 0, 0, 0, 0⟩, .ok, .int 0, []⟩,
      ⟨.registerNameType "a" ⟨0, 0, 0, 0, 0⟩, .ok, .int 0, []⟩]
      ⟨.block [some (.fresh "a" ⟨0, 0, 0, 0, 0⟩), some (.fresh "b" ⟨0, 0, 0, 0, 0⟩)], 2⟩ ∧
    ∃ o, Steps [] [⟨.registerNameType "b" ⟨0, 0, 0, 0, 0⟩, .ok, .int 0, []⟩,
      ⟨.registerNameType "a" ⟨0, 0, 0, 0, 0⟩, .ok, .int 0, []⟩] o ∧
      Tracks ⟨.block [some (.fresh "a" ⟨0, 0, 0, 0, 0⟩), some (.fresh "b" ⟨0, 0, 0, 0, 0⟩)], 2⟩ o :=
  ⟨run_register_two, Run.refines_steps run_register_two wf_empty⟩

theorem storeDataTypeKatcp_held (h : Wf s ts) {w : Ptr} (hw : lookupData ts T k = some w)
    (a : Alloc) (v : Ptr) (cb : Callbacks) :
    ∃ effs, storeDataTypeKatcp s a T k v cb = some (-1, s, effs) := by
  obtain ⟨t, ht, htw⟩ := Option.bind_eq_some.mp hw
  obtain ⟨tree, htree, hk⟩ := Option.bind_eq_some.mp htw
  obtain ⟨hmem, rfl⟩ := (types_eq_some_iff h.ascending).mp ht
  obtain ⟨j, hj, rfl⟩ := List.getElem_of_mem hmem
  rw [storeDataTypeKatcp_present h hj]
  by_cases hc : ts[j].callbacks = cb
  · have hkm : k ∈ tree.nodes.map Prod.fst := by
      by_contra hn
      rw [AvlTree.findNameNodeAvltree, AvlTree.lookup_eq_none_iff.mpr hn] at hk
      cases hk
    rw [storeAtKatcp_refused h hj hc htree (.inr hkm)]
    split <;> exact ⟨_, rfl⟩
  · exact ⟨_, storeAtKatcp_mismatch h hj hc⟩

/-- A successful store is read back and changes no other pair; a store of a held key answers `-1`
and keeps the old value. -/
theorem storeDataTypeKatcp_roundTrip (hR : Reachable s) (a : Alloc) (T k : String) (v : Ptr)
    (cb : Callbacks) :
    (∀ s' effs, storeDataTypeKatcp s a T k v cb = some (0, s', effs) →
      (getKeyDataTypeKatcp s' T k).map Prod.fst = some v ∧
      ∀ T' k', (T', k') ≠ (T, k) →
        (getKeyDataTypeKatcp s' T' k').map Prod.fst = (getKeyDataTypeKatcp s T' k').map Prod.fst) ∧
    (∀ ts w, Wf s ts → lookupData ts T k = some w →
      ∃ effs, storeDataTypeKatcp s a T k v cb = some (-1, s, effs) ∧
        (getKeyDataTypeKatcp s T k).map Prod.fst = some w) := by
  refine ⟨fun s' effs hst => ?_, fun ts w h hw => ?_⟩
  · have he : exec s a (.storeDataType T k v cb) = some (.int 0, s', effs) := by
      simp [exec, hst]
    obtain ⟨ts₀, h⟩ := hR.wf_of_exec (by intro _ h; cases h) he
    obtain ⟨o, hstep, htr, -⟩ := storeDataTypeKatcp_step h hst
    obtain ⟨ts', rfl, hl⟩ := hstep.lookupData_store h rfl rfl
    refine ⟨by simp [getKeyDataTypeKatcp_wf htr, hl], fun T' k' hne => ?_⟩
    rw [getKeyDataTypeKatcp_wf htr, getKeyDataTypeKatcp_wf h, hl,
      if_neg fun h => hne (Prod.ext h.1 h.2)]
    rfl
  · obtain ⟨effs, hst⟩ := storeDataTypeKatcp_held h hw a v cb
    exact ⟨effs, hst, by simp [getKeyDataTypeKatcp_wf h, hw]⟩

theorem storeAtKatcp_single (T k : String) (v : Ptr) (cb : Callbacks) :
    storeAtKatcp ⟨.block [some (.fresh T cb)], 1⟩ .ok ((0 : Nat) : Int) T k v cb =
      some (0, ⟨.block [some { KatcpType.fresh T cb with tTree := some ⟨[(k, v)]⟩ }], 1⟩, []) := by
  simp [storeAtKatcp, readSlot, addDataKatcp, AvlTree.addNodeAvltree, AvlTree.insertNode,
    writeSlot, Alloc.ok, KatcpType.fresh, KatcpType.callbacks]

theorem storeDataTypeKatcp_empty :
    storeDataTypeKatcp .empty Alloc.ok "t" "k" 5 ⟨0, 0, 0, 0, 0⟩ =
      some (0, ⟨.block [some ⟨"t", some ⟨[("k", 5)]⟩, 0, 0, 0, 0, 0⟩], 1⟩, []) := by
  obtain ⟨p, hp, heq⟩ := storeDataTypeKatcp_absent_ok wf_empty (List.not_mem_nil "t")
    (a := .ok) (by decide) rfl "k" 5 ⟨0, 0, 0, 0, 0⟩
  obtain rfl : p = 0 := Nat.le_zero.mp hp.le
  exact heq.trans (storeAtKatcp_single _ _ _ _)

theorem storeDataTypeKatcp_roundTrip_empty :
    (getKeyDataTypeKatcp ⟨.block [some ⟨"t", some ⟨[("k", 5)]⟩, 0, 0, 0, 0, 0⟩], 1⟩ "t"
      "k").map Prod.fst = some 5 :=
  ((storeDataTypeKatcp_roundTrip ⟨[], .nil _⟩ .ok "t" "k" 5 ⟨0, 0, 0, 0, 0⟩).1 _ _
    storeDataTypeKatcp_empty).1

/-- A store that registers its type and gets no node returns `-1`, and the type stays registered. -/
theorem storeDataTypeKatcp_keeps_new_type :
    exec .empty ⟨.inPlace, true, true, true, false⟩ (.storeDataType "t" "k" 0 ⟨0, 0, 0, 0, 0⟩) =
      some (.int (-1), ⟨.block [some (.fresh "t" ⟨0, 0, 0, 0, 0⟩)], 1⟩,
        [.allocNull "create_node_avltree"]) := by
  obtain ⟨p, hp, heq⟩ := storeDataTypeKatcp_absent_ok (a := ⟨.inPlace, true, true, true, false⟩)
    wf_empty (List.not_mem_nil "t") (by decide) rfl "k" 0 ⟨0, 0, 0, 0, 0⟩
  obtain rfl : p = 0 := Nat.le_zero.mp hp.le
  have hr := storeAtKatcp_refused (a := ⟨.inPlace, true, true, true, false⟩) (T := "t") (k := "k")
    (v := 0) (wf_single "t" ⟨0, 0, 0, 0, 0⟩) (j := 0) (by simp) rfl rfl (.inl rfl)
  simp only [exec, heq]
  exact congrArg (Option.map _) hr

theorem exec_storeDataType_mismatch (h : Wf s ts) {j : Nat} (hj : j < ts.length)
    (hT : ts[j].tName = T) (hc : ts[j].callbacks ≠ cb) (a : Alloc) (k : String) (v : Ptr) :
    exec s a (.storeDataType T k v cb) =
      some (.int (-1), s, [.log s!"callbacks for data with key <{k}> dont match type {T}\n"]) := by
  subst hT
  simp only [exec, storeDataTypeKatcp_present h hj, storeAtKatcp_mismatch h hj hc,
    Option.map_some']

/-- A call answering `-1`, unless it dangles, keeps the descriptors and frees no stored value, or
registered its type. -/
theorem failedCall_registry (hR : Reachable s) {c : Call}
    (hc : (∃ T cb, c = .registerNameType T cb) ∨ (∃ T, c = .deregisterType T) ∨
      ∃ T k v cb, c = .storeDataType T k v cb)
    (he : exec s a c = some (.int (-1), s', effs)) :
    ∃ ts, Wf s ts ∧ (¬ c.Dangles ts a →
      (Wf s' ts ∧ ∀ fn w, .free fn w ∈ effs → ∃ T k cb, c = .storeDataType T k w cb) ∨
      ∃ T k v cb p, c = .storeDataType T k v cb ∧ InsertionPoint ts T p ∧
        Wf s' (ts.insertIdx p (.fresh T cb)) ∧ effs = [.allocNull "create_node_avltree"]) := by
  have hid : ∀ id, c ≠ .getIdType id := by
    rintro id rfl
    rcases hc with ⟨_, _, h⟩ | ⟨_, h⟩ | ⟨_, _, _, _, h⟩ <;> cases h
  obtain ⟨ts, h⟩ := hR.wf_of_exec hid he
  refine ⟨ts, h, fun hd => ?_⟩
  obtain ⟨o, hst, ht⟩ := exec_step h he
  cases o with
  | none => exact absurd (exec_dangles h he ht) hd
  | some ts' =>
  generalize hrp : Reply.int (-1) = rp at hst
  cases hst with
  | registerDup | deregisterAbsent | storeMismatch | storeNoNode => exact .inl ⟨ht, by simp⟩
  | registerNull _ _ ho | storeNewNull _ _ ho =>
    obtain rfl : ts' = ts := by simpa using ho
    exact .inl ⟨ht, by simp⟩
  | storeDup =>
    refine .inl ⟨ht, fun fn w hfw => ?_⟩
    simp only [AvlTree.freeNodeAvltree] at hfw
    split_ifs at hfw
    · cases hfw
    · obtain ⟨-, rfl⟩ : _ ∧ w = _ := by simpa using hfw
      exact ⟨_, _, _, rfl⟩
  | storeNewNoNode hp => exact .inr ⟨_, _, _, _, _, rfl, hp, ht, rfl⟩
  | register | deregister | store | storeNew => simp at hrp
  | _ => rcases hc with ⟨_, _, h⟩ | ⟨_, h⟩ | ⟨_, _, _, _, h⟩ <;> cases h

theorem failedCall_registry_mismatch :
    ∃ ts, Wf ⟨.block [some (.fresh "a" ⟨0, 0, 0, 0, 0⟩), some (.fresh "b" ⟨0, 0, 0, 0, 0⟩)], 2⟩ ts ∧
      (¬ (Call.storeDataType "b" "k" 5 ⟨1, 0, 0, 0, 0⟩).Dangles ts .ok →
        (Wf ⟨.block [some (.fresh "a" ⟨0, 0, 0, 0, 0⟩), some (.fresh "b" ⟨0, 0, 0, 0, 0⟩)], 2⟩ ts ∧
          ∀ fn w, .free fn w ∈ [Effect.log "callbacks for data with key <k> dont match type b\n"] →
            ∃ T k cb, Call.storeDataType "b" "k" 5 ⟨1, 0, 0, 0, 0⟩ = .storeDataType T k w cb) ∨
        ∃ T k v cb p, Call.storeDataType "b" "k" 5 ⟨1, 0, 0, 0, 0⟩ = .storeDataType T k v cb ∧
          InsertionPoint ts T p ∧
          Wf ⟨.block [some (.fresh "a" ⟨0, 0, 0, 0, 0⟩), some (.fresh "b" ⟨0, 0, 0, 0, 0⟩)], 2⟩
            (ts.insertIdx p (.fresh T cb)) ∧
          [Effect.log "callbacks for data with key <k> dont match type b\n"] =
            [.allocNull "create_node_avltree"]) :=
  failedCall_registry (a := .ok) ⟨_, run_register_two⟩ (.inr (.inr ⟨_, _, _, _, rfl⟩))
    (exec_storeDataType_mismatch (wf_pair (compare_lt_iff_lt.mp (by decide)) _ _) (j := 1)
      (by simp) rfl (by decide) _ _ _)

end Katcp
