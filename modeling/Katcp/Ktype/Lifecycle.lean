import Katcp.Ktype.Run

/-! A type's life in the registry: registration, deregistration and callbacks fixed at creation. -/
namespace Katcp

variable {s s' : KatcpShared} {ts ts' : List KatcpType} {a : Alloc} {c : Call} {rp : Reply}
  {effs : List Effect}

theorem exec_deregisterType_single (T : String) (cb : Callbacks) :
    exec ⟨.block [some (.fresh T cb)], 1⟩ a (.deregisterType T) =
      some (.int (-1), ⟨.freed, 1⟩, [.allocNull "realloc"]) := by
  have h := deregisterTypeKatcp_present (wf_single T cb) (k := 0) (by simp)
  rw [if_pos (List.length_singleton _)] at h
  show Option.map _ (deregisterTypeKatcp _ ([KatcpType.fresh T cb][0]).tName) = _
  rw [h]
  simp [KatcpType.destroyTypeKatcp, KatcpType.fresh, AvlTree.destroyAvltree]

theorem run_register_deregister :
    Run .empty [⟨.registerNameType "a" ⟨0, 0, 0, 0, 0⟩, .ok, .int 0, []⟩,
      ⟨.deregisterType "a", .ok, .int (-1), [.allocNull "realloc"]⟩] ⟨.freed, 1⟩ :=
  .snoc run_register (exec_deregisterType_single _ _)

/-- Deregistering the only type: glibc's `realloc(ts, 0)` frees the array and answers `NULL`, so the
call returns `-1` and leaves `s_type` dangling. -/
theorem deregisterTypeKatcp_sole_type :
    Run .empty [⟨.registerNameType "a" ⟨0, 0, 0, 0, 0⟩, .ok, .int 0, []⟩,
      ⟨.deregisterType "a", .ok, .int (-1), [.allocNull "realloc"]⟩] ⟨.freed, 1⟩ ∧
      ∀ a, exec ⟨.freed, 1⟩ a (.findNameIdType "a") = none :=
  ⟨run_register_deregister, fun _ => by
    simp [exec, findNameIdTypeKatcp, binarySearchTypeListKatcp_freed Int.one_pos]⟩

/-- Deregistering one of at least two types removes it, releasing its store; an unknown name gives
`-1`. -/
theorem deregisterTypeKatcp_removes (h : Wf s ts) :
    (∀ k (hk : k < ts.length), ts.length ≠ 1 → ∃ s',
      deregisterTypeKatcp s ts[k].tName = some (0, s', ts[k].destroyTypeKatcp) ∧
      Wf s' (ts.eraseIdx k) ∧ s'.sTypeCount = ts.length - 1 ∧
      ∃ r < 0, findNameIdTypeKatcp s' ts[k].tName = some r) ∧
    (∀ name, name ∉ ts.map (·.tName) → deregisterTypeKatcp s name = some (-1, s, [])) := by
  refine ⟨fun k hk h1 => ?_, fun name hn => deregisterTypeKatcp_absent h hn⟩
  have h' := wf_eraseIdx h hk h1
  have hgone : ts[k].tName ∉ (ts.eraseIdx k).map (·.tName) := by
    rw [← types_eq_none_iff, types_eraseIdx h.ascending hk, Function.update_same]
  obtain ⟨p, -, hr⟩ := h'.search_absent hgone
  refine ⟨_, by rw [deregisterTypeKatcp_present h hk, if_neg h1], h', rfl, _, ?_, hr⟩
  omega

theorem deregisterTypeKatcp_removes_first :
    ∃ s', deregisterTypeKatcp ⟨.block [some (.fresh "a" ⟨0, 0, 0, 0, 0⟩),
      some (.fresh "b" ⟨0, 0, 0, 0, 0⟩)], 2⟩ "a" = some (0, s', []) ∧
      Wf s' [.fresh "b" ⟨0, 0, 0, 0, 0⟩] := by
  have hs : NamesAscending [.fresh "a" ⟨0, 0, 0, 0, 0⟩, .fresh "b" ⟨0, 0, 0, 0, 0⟩] :=
    List.sorted_cons.mpr ⟨by simpa using compare_lt_iff_lt.mp (by decide : compare "a" "b" = .lt),
      List.sorted_singleton _⟩
  have h : Wf ⟨.block [some (.fresh "a" ⟨0, 0, 0, 0, 0⟩), some (.fresh "b" ⟨0, 0, 0, 0, 0⟩)], 2⟩
      [.fresh "a" ⟨0, 0, 0, 0, 0⟩, .fresh "b" ⟨0, 0, 0, 0, 0⟩] :=
    ⟨List.prefix_refl _, rfl, fun _ => List.cons_ne_nil _ _, hs, by
      simp only [List.mem_cons, List.mem_singleton, List.not_mem_nil, or_false]
      rintro t (rfl | rfl) <;> exact fresh_sorted _ _⟩
  obtain ⟨s', hd, hw, -⟩ := (deregisterTypeKatcp_removes h).1 0 (by simp) (by simp)
  exact ⟨s', hd, hw⟩

theorem registerNameTypeKatcp_after_sole_deregister :
    Run .empty [⟨.registerNameType "a" ⟨0, 0, 0, 0, 0⟩, .ok, .int 0, []⟩,
      ⟨.deregisterType "a", .ok, .int (-1), [.allocNull "realloc"]⟩] ⟨.freed, 1⟩ ∧
      ∀ a cb, exec ⟨.freed, 1⟩ a (.registerNameType "b" cb) = none :=
  ⟨run_register_deregister, fun _ _ => by
    simp [exec, registerNameTypeKatcp, binarySearchTypeListKatcp_freed Int.one_pos]⟩

/-- A present name gives `-1`; with every allocation answered a new one goes in at its insertion
point. -/
theorem registerNameTypeKatcp_inserts (h : Wf s ts) (a : Alloc) (T : String) (cb : Callbacks) :
    (T ∈ ts.map (·.tName) → registerNameTypeKatcp s a T cb = some (-1, s, [])) ∧
    (T ∉ ts.map (·.tName) → a.realloc ≠ .fail → a.descriptorNull = none →
      ∃ p s', InsertionPoint ts T p ∧ registerNameTypeKatcp s a T cb = some ((p : Int), s', []) ∧
        Wf s' (ts.insertIdx p (.fresh T cb)) ∧ s'.sTypeCount = s.sTypeCount + 1 ∧
        findNameIdTypeKatcp s' T = some p) := by
  refine ⟨fun hT => ?_, fun hT hr hd => ?_⟩
  · obtain ⟨t, ht, rfl⟩ := List.mem_map.mp hT
    obtain ⟨j, hj, rfl⟩ := List.getElem_of_mem ht
    exact registerNameTypeKatcp_present h a hj cb
  · obtain ⟨p, hp, heq⟩ := registerNameTypeKatcp_absent h a hT cb
    have h' := wf_insertIdx h hp (fresh_sorted T cb)
    have hp' : p < (ts.insertIdx p (.fresh T cb)).length := by
      have := hp.le
      rw [List.length_insertIdx _ _ hp.le]
      omega
    have hfind := h'.search_found hp'
    rw [List.getElem_insertIdx_self _ _ _ hp.le, KatcpType.fresh_tName] at hfind
    exact ⟨p, _, hp, by rw [heq, registerAtIdTypeKatcp_ok h hr hd hp.le], h',
      by rw [h.count], hfind⟩

theorem registerNameTypeKatcp_inserts_between :
    ∃ s', registerNameTypeKatcp ⟨.block [some (.fresh "a" ⟨0, 0, 0, 0, 0⟩),
        some (.fresh "c" ⟨0, 0, 0, 0, 0⟩)], 2⟩ .ok "b" ⟨0, 0, 0, 0, 0⟩ = some (1, s', []) ∧
      Wf s' [.fresh "a" ⟨0, 0, 0, 0, 0⟩, .fresh "b" ⟨0, 0, 0, 0, 0⟩, .fresh "c" ⟨0, 0, 0, 0, 0⟩] ∧
      findNameIdTypeKatcp s' "b" = some 1 := by
  obtain ⟨p, s', hp, hr, hw, -, hf⟩ := (registerNameTypeKatcp_inserts
    (wf_pair (compare_lt_iff_lt.mp (show compare "a" "c" = .lt by decide)) ⟨0, 0, 0, 0, 0⟩
      ⟨0, 0, 0, 0, 0⟩) .ok "b" ⟨0, 0, 0, 0, 0⟩).2 (by decide) (by decide) rfl
  obtain rfl : p = 1 := hp.unique ⟨by simp, fun j _ h => by
    obtain rfl : j = 0 := by omega
    exact compare_lt_iff_lt.mp (show compare "a" "b" = .lt by decide), fun j hj h => by
    obtain rfl : j = 1 := by simp at hj; omega
    exact compare_lt_iff_lt.mp (show compare "b" "c" = .lt by decide)⟩
  exact ⟨s', hr, hw, hf⟩

/-- Registering a new name and deregistering it gives back the same descriptors and frees nothing. -/
theorem registerNameTypeKatcp_deregister (h : Wf s ts) (hne : ts ≠ []) {name : String}
    (hn : name ∉ ts.map (·.tName)) (hr : a.realloc ≠ .fail) (hd : a.descriptorNull = none)
    (cb : Callbacks) :
    ∃ (p : Nat) (s₁ : KatcpShared), registerNameTypeKatcp s a name cb = some ((p : Int), s₁, []) ∧
      deregisterTypeKatcp s₁ name = some (0, ⟨.block (ts.map some), ts.length⟩, []) ∧
      Wf ⟨.block (ts.map some), ts.length⟩ ts := by
  obtain ⟨p, hp, heq⟩ := registerNameTypeKatcp_absent h a hn cb
  have hlen := List.length_insertIdx (a := KatcpType.fresh name cb) p ts hp.le
  have hpos : 0 < ts.length := List.length_pos.mpr hne
  have hp' : p < (ts.insertIdx p (.fresh name cb)).length := by rw [hlen]; have := hp.le; omega
  have h1 : (ts.insertIdx p (.fresh name cb)).length ≠ 1 := by rw [hlen]; omega
  have hself : (ts.insertIdx p (.fresh name cb))[p] = .fresh name cb :=
    List.getElem_insertIdx_self _ _ _ hp.le
  have h₁ := wf_insertIdx h hp (fresh_sorted name cb)
  have hdel := deregisterTypeKatcp_present h₁ hp'
  have h₂ := wf_eraseIdx h₁ hp' h1
  simp only [hself, KatcpType.fresh_tName, List.eraseIdx_insertIdx, hlen, Nat.add_sub_cancel,
    if_neg (show ts.length + 1 ≠ 1 by omega)] at hdel h₂
  refine ⟨p, _, by rw [heq, registerAtIdTypeKatcp_ok h hr hd hp.le], ?_, h₂⟩
  rw [hdel]
  simp [KatcpType.destroyTypeKatcp, KatcpType.fresh, AvlTree.destroyAvltree]

theorem registerNameTypeKatcp_deregister_single :
    Wf ⟨.block [some (.fresh "a" ⟨0, 0, 0, 0, 0⟩)], 1⟩ [.fresh "a" ⟨0, 0, 0, 0, 0⟩] ∧
    [KatcpType.fresh "a" ⟨0, 0, 0, 0, 0⟩] ≠ [] ∧
    "b" ∉ [KatcpType.fresh "a" ⟨0, 0, 0, 0, 0⟩].map (·.tName) ∧
    Alloc.ok.realloc ≠ .fail ∧ Alloc.ok.descriptorNull = none ∧
    ∃ (p : Nat) (s₁ : KatcpShared),
      registerNameTypeKatcp ⟨.block [some (.fresh "a" ⟨0, 0, 0, 0, 0⟩)], 1⟩ .ok "b"
        ⟨0, 0, 0, 0, 0⟩ = some ((p : Int), s₁, []) ∧
      deregisterTypeKatcp s₁ "b" = some (0, ⟨.block ([KatcpType.fresh "a" ⟨0, 0, 0, 0, 0⟩].map some),
        [KatcpType.fresh "a" ⟨0, 0, 0, 0, 0⟩].length⟩, []) ∧
      Wf ⟨.block ([KatcpType.fresh "a" ⟨0, 0, 0, 0, 0⟩].map some),
        [KatcpType.fresh "a" ⟨0, 0, 0, 0, 0⟩].length⟩ [.fresh "a" ⟨0, 0, 0, 0, 0⟩] :=
  ⟨wf_single _ _, List.cons_ne_nil _ _, by decide, by decide, rfl,
    registerNameTypeKatcp_deregister (a := .ok) (wf_single _ _) (List.cons_ne_nil _ _) (by decide)
      (by decide) rfl _⟩

/-- A moved `realloc` then a failed descriptor `malloc` leaves `s_type` at the freed block; a later
store reads it. -/
theorem storeDataTypeKatcp_after_moved_failure :
    Run .empty [⟨.registerNameType "a" ⟨0, 0, 0, 0, 0⟩, .ok, .int 0, []⟩,
      ⟨.registerNameType "b" ⟨0, 0, 0, 0, 0⟩, ⟨.moved, false, true, true, true⟩, .int (-1),
        [.allocNull "malloc"]⟩] ⟨.freed, 1⟩ ∧
      ∀ a k v, exec ⟨.freed, 1⟩ a (.storeDataType "a" k v ⟨1, 0, 0, 0, 0⟩) = none := by
  have hc : compare "b" "a" = .gt := by decide
  refine ⟨.snoc (.snoc (.nil _) (exec_registerNameType_empty _ _)) ?_, fun _ _ _ => ?_⟩
  · simp [exec, registerNameTypeKatcp, binarySearchTypeListKatcp, bsearchLoop, TypeArray.read,
      readSlot, hc, registerAtIdTypeKatcp, grow, Alloc.descriptorNull]
  · simp [exec, storeDataTypeKatcp, binarySearchTypeListKatcp_freed Int.one_pos]

theorem lookupData_congr {T : String} (h : types ts' T = types ts T) (k : String) :
    lookupData ts' T k = lookupData ts T k := by
  rw [lookupData, lookupData, h]

theorem mem_of_types {T : String} {t : KatcpType} (ht : types ts T = some t) :
    T ∈ ts.map (·.tName) := by
  by_contra hn
  rw [types_eq_none_iff.mpr hn] at ht
  cases ht

theorem types_insertIdx_fresh (h : Wf s ts) {T : String} {t : KatcpType} {p : Nat}
    (hp : InsertionPoint ts T p) (hT : t.tName = T) :
    types (ts.insertIdx p t) = Function.update (types ts) T (some t) := by
  subst hT
  exact types_insertIdx h.ascending hp.le hp.not_mem (h.ascending.insertIdx hp)

/-- A step never changes the callbacks of a type it leaves registered. -/
theorem Step.callbacks_frozen (h : Wf s ts) (hst : Step ts c rp (some ts') effs) {T : String}
    {t t' : KatcpType} (ht : types ts T = some t) (ht' : types ts' T = some t') :
    t'.callbacks = t.callbacks := by
  have keep : types ts T = some t' → t'.callbacks = t.callbacks := fun h' => by
    rw [Option.some.inj (ht.symm.trans h')]
  have other : ∀ {T₀ : String} {x : Option KatcpType}, T₀ ∉ ts.map (·.tName) →
      types ts' = Function.update (types ts) T₀ x → t'.callbacks = t.callbacks :=
    fun hT₀ hv => keep (by
      rwa [hv, Function.update_noteq fun e => hT₀ (by rw [← e]; exact mem_of_types ht)] at ht')
  cases hst with
  | register hp => exact other hp.not_mem (types_insertIdx_fresh h hp rfl)
  | storeNew hp => exact other hp.not_mem (types_insertIdx_fresh h hp rfl)
  | storeNewNoNode hp => exact other hp.not_mem (types_insertIdx_fresh h hp rfl)
  | registerNull _ _ ho => obtain rfl : ts' = ts := by simpa using ho
                           exact keep ht'
  | storeNewNull _ _ ho => obtain rfl : ts' = ts := by simpa using ho
                           exact keep ht'
  | @deregister j hj _ =>
    rw [types_eraseIdx h.ascending hj] at ht'
    by_cases hT : T = ts[j].tName
    · subst hT; simp at ht'
    · exact keep (by rwa [Function.update_noteq hT] at ht')
  | @store j _ _ _ _ nodes hj _ =>
    rw [types_set h.ascending hj (t := { ts[j] with tTree := some ⟨nodes⟩ }) rfl] at ht'
    by_cases hT : T = ts[j].tName
    · subst hT
      rw [Function.update_same] at ht'
      cases ht'
      rw [Option.some.inj (ht.symm.trans (types_getElem h.ascending hj))]
      rfl
    · exact keep (by rwa [Function.update_noteq hT] at ht')
  | destroy => simp [types] at ht'
  | _ => exact keep ht'

/-- A value appears in a store only through a successful store call with its type's callbacks. -/
theorem Step.new_entry (h : Wf s ts) (hst : Step ts c rp (some ts') effs) {T k : String}
    {w : Ptr} {t' : KatcpType} (ht' : types ts' T = some t') (hw : lookupData ts' T k = some w)
    (hne : lookupData ts T k ≠ some w) : c = .storeDataType T k w t'.callbacks ∧ rp = .int 0 := by
  have stored := fun {T₀ k₀ v₀ cb₀} (hc : c = .storeDataType T₀ k₀ v₀ cb₀) (hr : rp = .int 0) =>
    hst.lookupData_store h hc hr
  have fresh : ∀ {p : Nat} {T₀ : String} {cb₀ : Callbacks}, InsertionPoint ts T₀ p →
      ts' = ts.insertIdx p (.fresh T₀ cb₀) → False := fun {p T₀ cb₀} hp hts => by
    subst hts
    rw [lookupData, types_insertIdx_fresh (t := .fresh T₀ cb₀) h hp rfl] at hw
    by_cases hT : T = T₀
    · subst hT
      simp [KatcpType.fresh, AvlTree.findNameNodeAvltree, AvlTree.lookup] at hw
    · rw [Function.update_noteq hT] at hw
      exact hne hw
  cases hst with
  | register hp => exact (fresh hp rfl).elim
  | storeNewNoNode hp => exact (fresh hp rfl).elim
  | @deregister j hj _ =>
    rw [types_eraseIdx h.ascending hj] at ht'
    by_cases hT : T = ts[j].tName
    · subst hT; simp at ht'
    · have hv : types (ts.eraseIdx j) T = types ts T := by
        rw [types_eraseIdx h.ascending hj, Function.update_noteq hT]
      rw [lookupData_congr hv] at hw
      exact absurd hw hne
  | destroy => simp [types] at ht'
  | @store j T₀ k₀ v₀ _ nodes hj hT =>
    obtain ⟨ts'', hts, hl⟩ := stored rfl rfl
    cases hts
    rw [hl] at hw
    split_ifs at hw with hTk
    · obtain ⟨rfl, rfl⟩ := hTk
      cases hw
      subst hT
      rw [types_set h.ascending hj (t := { ts[j] with tTree := some ⟨nodes⟩ }) rfl,
        Function.update_same] at ht'
      cases ht'
      exact ⟨rfl, rfl⟩
    · exact absurd hw hne
  | @storeNew T₀ k₀ v₀ cb₀ p hp =>
    obtain ⟨ts'', hts, hl⟩ := stored rfl rfl
    cases hts
    rw [hl] at hw
    split_ifs at hw with hTk
    · obtain ⟨rfl, rfl⟩ := hTk
      cases hw
      rw [types_insertIdx_fresh h hp rfl, Function.update_same] at ht'
      cases ht'
      exact ⟨rfl, rfl⟩
    · exact absurd hw hne
  | registerNull _ _ ho | storeNewNull _ _ ho =>
    obtain rfl : ts' = ts := by simpa using ho
    exact absurd hw hne
  | _ => exact absurd hw hne

/-- Every call keeps the callbacks of the types it leaves registered; a store with other callbacks
answers `-1`. -/
theorem exec_callbacks_frozen (h : Wf s ts) :
    (∀ a c rp s' effs ts', exec s a c = some (rp, s', effs) → Wf s' ts' →
      (∀ T t t', types ts T = some t → types ts' T = some t' → t'.callbacks = t.callbacks) ∧
      ∀ T k w t', types ts' T = some t' → lookupData ts' T k = some w →
        lookupData ts T k ≠ some w → c = .storeDataType T k w t'.callbacks ∧ rp = .int 0) ∧
    ∀ a T k v cb t, types ts T = some t → t.callbacks ≠ cb →
      exec s a (.storeDataType T k v cb) =
        some (.int (-1), s, [.log s!"callbacks for data with key <{k}> dont match type {T}\n"]) := by
  refine ⟨fun _ _ _ _ _ _ he h' => ?_, fun a _ k v _ _ ht hne => ?_⟩
  · obtain ⟨o, hst, ht⟩ := exec_step h he
    cases o with
    | none => exact absurd h' ht.not_wf
    | some ts'' =>
      obtain rfl := h'.unique ht
      exact ⟨fun _ _ _ => hst.callbacks_frozen h, fun _ _ _ _ => hst.new_entry h⟩
  · obtain ⟨hmem, rfl⟩ := (types_eq_some_iff h.ascending).mp ht
    obtain ⟨j, hj, rfl⟩ := List.getElem_of_mem hmem
    exact exec_storeDataType_mismatch h hj rfl hne a k v

theorem exec_callbacks_frozen_mismatch :
    Wf ⟨.block [some (.fresh "a" ⟨0, 0, 0, 0, 0⟩), some (.fresh "b" ⟨0, 0, 0, 0, 0⟩)], 2⟩
        [.fresh "a" ⟨0, 0, 0, 0, 0⟩, .fresh "b" ⟨0, 0, 0, 0, 0⟩] ∧
      exec ⟨.block [some (.fresh "a" ⟨0, 0, 0, 0, 0⟩), some (.fresh "b" ⟨0, 0, 0, 0, 0⟩)], 2⟩ .ok
          (.storeDataType "b" "k" 0 ⟨1, 0, 0, 0, 0⟩) =
        some (.int (-1),
          ⟨.block [some (.fresh "a" ⟨0, 0, 0, 0, 0⟩), some (.fresh "b" ⟨0, 0, 0, 0, 0⟩)], 2⟩,
          [.log "callbacks for data with key <k> dont match type b\n"]) :=
  have h := wf_pair (compare_lt_iff_lt.mp (show compare "a" "b" = .lt by decide))
    ⟨0, 0, 0, 0, 0⟩ ⟨0, 0, 0, 0, 0⟩
  ⟨h, (exec_callbacks_frozen h).2 .ok "b" "k" 0 ⟨1, 0, 0, 0, 0⟩ _
    (types_getElem h.ascending (j := 1) (by simp)) (by decide)⟩

theorem exec_storeDataType_single (T k : String) (v : Ptr) (cb : Callbacks) :
    exec ⟨.block [some (.fresh T cb)], 1⟩ .ok (.storeDataType T k v cb) =
      some (.int 0, ⟨.block [some { KatcpType.fresh T cb with tTree := some ⟨[(k, v)]⟩ }], 1⟩,
        []) := by
  have h : storeDataTypeKatcp ⟨.block [some (.fresh T cb)], 1⟩ .ok T k v cb =
      storeAtKatcp ⟨.block [some (.fresh T cb)], 1⟩ .ok ((0 : Nat) : Int) T k v cb :=
    storeDataTypeKatcp_present (wf_single T cb) (j := 0) (by simp)
  simp only [exec, h, storeAtKatcp_single, Option.map_some']

theorem Step.keeps_registered (h : Wf s ts) (hst : Step ts c rp (some ts') effs) {T : String}
    {t : KatcpType} (ht : types ts T = some t) (hc : c ≠ .deregisterType T)
    (hd : c ≠ .destroyTypeList) :
    (types ts' T).isSome ∧ ∀ k v, lookupData ts T k = some v → lookupData ts' T k = some v := by
  have same : types ts' T = types ts T →
      (types ts' T).isSome ∧ ∀ k v, lookupData ts T k = some v → lookupData ts' T k = some v :=
    fun hv => ⟨by rw [hv, ht]; rfl, fun k v hk => by rw [lookupData_congr hv, hk]⟩
  have other : ∀ {T₀ : String} {x : Option KatcpType}, T₀ ∉ ts.map (·.tName) →
      types ts' = Function.update (types ts) T₀ x → types ts' T = types ts T :=
    fun hT₀ hv => by
      rw [hv, Function.update_noteq fun e => hT₀ (by rw [← e]; exact mem_of_types ht)]
  have held := fun {k₀ : String} {v₀ : Ptr} {cb₀ : Callbacks} {w : Ptr}
    (hc : c = .storeDataType T k₀ v₀ cb₀) (hw : lookupData ts T k₀ = some w) =>
    hst.store_held h hc hw
  have stored := fun {T₀ k₀ v₀ cb₀} (hc : c = .storeDataType T₀ k₀ v₀ cb₀) (hr : rp = .int 0) =>
    hst.lookupData_store h hc hr
  cases hst with
  | register hp => exact same (other hp.not_mem (types_insertIdx_fresh h hp rfl))
  | storeNew hp => exact same (other hp.not_mem (types_insertIdx_fresh h hp rfl))
  | storeNewNoNode hp => exact same (other hp.not_mem (types_insertIdx_fresh h hp rfl))
  | registerNull _ _ ho | storeNewNull _ _ ho =>
    obtain rfl : ts' = ts := by simpa using ho
    exact same rfl
  | @deregister j hj _ =>
    exact same (by rw [types_eraseIdx h.ascending hj, Function.update_noteq fun e => hc (by rw [e])])
  | @store j T₀ k₀ v₀ _ nodes hj =>
    obtain ⟨_, hts, hl⟩ := stored rfl rfl
    cases hts
    refine ⟨?_, fun k v hk => ?_⟩
    · rw [types_set h.ascending hj (t := { ts[j] with tTree := some ⟨nodes⟩ }) rfl,
        Function.update_apply]
      split_ifs <;> simp [ht]
    · rw [hl]
      split_ifs with hTk
      · obtain ⟨rfl, rfl⟩ := hTk
        cases (held rfl hk).1
      · exact hk
  | destroy => exact absurd rfl hd
  | _ => exact same rfl

variable {u : KatcpShared} {es : List Event}

/-- A type no call deregisters keeps its callbacks and values over a run with no teardown, or the
run dangles. -/
theorem Run.type_persists (hrun : Run s es u) (h : Wf s ts) {T : String} {t : KatcpType}
    (ht : types ts T = some t)
    (hT : ∀ e ∈ es, e.call ≠ .deregisterType T ∧ e.call ≠ .destroyTypeList) :
    (Poisoned u ∧ ∃ e ∈ es, ∃ fn, .allocNull fn ∈ e.effects ∧ fn ≠ "create_node_avltree") ∨
    ∃ ts' t', Wf u ts' ∧ types ts' T = some t' ∧ t'.callbacks = t.callbacks ∧
      ∀ k v, lookupData ts T k = some v → lookupData ts' T k = some v := by
  rcases hrun.wf_induction h hT (I := fun _ ts' => ∃ t', types ts' T = some t' ∧
      t'.callbacks = t.callbacks ∧ ∀ k v, lookupData ts T k = some v → lookupData ts' T k = some v)
      ⟨t, ht, rfl, fun _ _ => id⟩ fun h₁ hc ⟨t₁, ht₁, hcb, hl⟩ hst =>
        let ⟨hs, hk⟩ := hst.keeps_registered h₁ ht₁ hc.1 hc.2
        let ⟨t₂, ht₂⟩ := Option.isSome_iff_exists.mp hs
        ⟨t₂, ht₂, (hst.callbacks_frozen h₁ ht₁ ht₂).trans hcb, fun k v hv => hk k v (hl k v hv)⟩ with
    ⟨ts', h', t', hI⟩ | ⟨es₁, e, es₂, rfl, -, hp, hn, -⟩
  · exact .inr ⟨ts', t', h', hI⟩
  · exact .inl ⟨hp, e, List.mem_append_right _ (List.mem_cons_self _ _), hn⟩

theorem Run.type_persists_store :
    Run ⟨.block [some (.fresh "a" ⟨0, 1, 0, 0, 0⟩)], 1⟩
      [⟨.storeDataType "a" "k" 5 ⟨0, 1, 0, 0, 0⟩, .ok, .int 0, []⟩]
      ⟨.block [some { KatcpType.fresh "a" ⟨0, 1, 0, 0, 0⟩ with tTree := some ⟨[("k", 5)]⟩ }], 1⟩ ∧
    types [.fresh "a" ⟨0, 1, 0, 0, 0⟩] "a" = some (.fresh "a" ⟨0, 1, 0, 0, 0⟩) ∧
    ((Poisoned ⟨.block [some { KatcpType.fresh "a" ⟨0, 1, 0, 0, 0⟩ with
        tTree := some ⟨[("k", 5)]⟩ }], 1⟩ ∧
      ∃ e ∈ ([⟨.storeDataType "a" "k" 5 ⟨0, 1, 0, 0, 0⟩, .ok, .int 0, []⟩] : List Event),
        ∃ fn, .allocNull fn ∈ e.effects ∧ fn ≠ "create_node_avltree") ∨
    ∃ ts' t', Wf ⟨.block [some { KatcpType.fresh "a" ⟨0, 1, 0, 0, 0⟩ with
        tTree := some ⟨[("k", 5)]⟩ }], 1⟩ ts' ∧ types ts' "a" = some t' ∧
      t'.callbacks = (KatcpType.fresh "a" ⟨0, 1, 0, 0, 0⟩).callbacks ∧
      ∀ k v, lookupData [.fresh "a" ⟨0, 1, 0, 0, 0⟩] "a" k = some v → lookupData ts' "a" k = some v) :=
  have hrun := Run.snoc (.nil _) (exec_storeDataType_single "a" "k" 5 ⟨0, 1, 0, 0, 0⟩)
  ⟨hrun, by decide, Run.type_persists hrun (wf_single _ _) (by decide) (by simp)⟩

theorem Step.ne_nil (hst : Step ts c rp (some ts') effs) (hne : ts ≠ [])
    (hd : c ≠ .destroyTypeList) : ts' ≠ [] := by
  rw [← List.length_pos] at hne ⊢
  cases hst with
  | register hp | storeNew hp | storeNewNoNode hp => rw [List.length_insertIdx _ _ hp.le]; omega
  | registerNull _ _ ho | storeNewNull _ _ ho =>
    obtain rfl : ts' = ts := by simpa using ho
    exact hne
  | deregister hj h1 => rw [List.length_eraseIdx_of_lt hj]; omega
  | store => rw [List.length_set]; exact hne
  | destroy => exact absurd rfl hd
  | _ => exact hne

/-- Once a type is registered, only a teardown empties the registry: it ends holding a type or
poisoned. -/
theorem Run.never_empties (hrun : Run s es u) (h : Wf s ts) (hne : ts ≠ [])
    (hd : ∀ e ∈ es, e.call ≠ .destroyTypeList) :
    0 < u.sTypeCount ∧ (Poisoned u ∨ ∃ ts', Wf u ts' ∧ ts' ≠ []) := by
  have hu : Poisoned u ∨ ∃ ts', Wf u ts' ∧ ts' ≠ [] := by
    rcases hrun.wf_induction h hd (I := fun _ ts' => ts' ≠ []) hne
        (fun _ hc hne₁ hst => hst.ne_nil hne₁ hc) with
      ⟨ts', h', hne'⟩ | ⟨-, -, -, -, -, hp, -⟩
    · exact .inr ⟨ts', h', hne'⟩
    · exact .inl hp
  refine ⟨?_, hu⟩
  rcases hu with hp | ⟨ts', h', hne'⟩
  · exact hp.2
  · rw [h'.count]
    exact List.length_pos.mpr hne'

theorem Run.never_empties_sole :
    Run ⟨.block [some (.fresh "a" ⟨0, 0, 0, 0, 0⟩)], 1⟩
      [⟨.deregisterType "a", .ok, .int (-1), [.allocNull "realloc"]⟩] ⟨.freed, 1⟩ ∧
    0 < (⟨.freed, 1⟩ : KatcpShared).sTypeCount ∧
      (Poisoned ⟨.freed, 1⟩ ∨ ∃ ts', Wf ⟨.freed, 1⟩ ts' ∧ ts' ≠ []) :=
  have hrun : Run ⟨.block [some (.fresh "a" ⟨0, 0, 0, 0, 0⟩)], 1⟩
      [⟨.deregisterType "a", .ok, .int (-1), [.allocNull "realloc"]⟩] ⟨.freed, 1⟩ :=
    .snoc (.nil _) (exec_deregisterType_single _ _)
  ⟨hrun, Run.never_empties hrun (wf_single _ _) (List.cons_ne_nil _ _) (by simp)⟩

end Katcp
