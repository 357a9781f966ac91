import Katcp.Ktype.Lifecycle

/-! What a reader sees after any history: the value of the last successful store of the key. -/
namespace Katcp

/-- What the event `e` leaves under key `k` of type `T`: a successful store its value, a
deregistration of `T` or a teardown nothing. -/
def Event.storedUnder (T k : String) (o : Option Ptr) (e : Event) : Option Ptr :=
  match e.call with
  | .storeDataType T' k' v _ => if T' = T ∧ k' = k ∧ e.reply = .int 0 then some v else o
  | .deregisterType T' => if T' = T then none else o
  | .destroyTypeList => none
  | _ => o

/-- The value under the key `k` of the type `T` after the events `es`, from `o`. -/
def lastStored (T k : String) (o : Option Ptr) (es : List Event) : Option Ptr :=
  es.foldl (Event.storedUnder T k) o

variable {s u : KatcpShared} {ts ts' : List KatcpType} {c : Call} {rp : Reply}
  {effs : List Effect} {es : List Event} {T k : String}

theorem lookupData_of_not_mem (hT : T ∉ ts.map (·.tName)) : lookupData ts T k = none := by
  rw [lookupData, types_eq_none_iff.mpr hT]
  rfl

theorem lookupData_insertIdx_fresh (h : Wf s ts) {T₀ : String} {p : Nat}
    (hp : InsertionPoint ts T₀ p) (cb : Callbacks) :
    lookupData (ts.insertIdx p (.fresh T₀ cb)) T k = lookupData ts T k := by
  rw [lookupData, types_insertIdx_fresh h hp rfl]
  by_cases hT : T = T₀
  · subst hT
    rw [Function.update_same, lookupData_of_not_mem hp.not_mem]
    rfl
  · rw [Function.update_noteq hT]
    rfl

/-- One step changes the value under `(T, k)` as `Event.storedUnder` says, whatever the allocator
answered. -/
theorem Step.lookupData_event (h : Wf s ts) (hst : Step ts c rp (some ts') effs) (a : Alloc) :
    lookupData ts' T k = Event.storedUnder T k (lookupData ts T k) ⟨c, a, rp, effs⟩ := by
  have stored := fun {T₀ k₀ v₀ cb₀} (hc : c = .storeDataType T₀ k₀ v₀ cb₀) (hr : rp = .int 0) =>
    hst.lookupData_store h hc hr
  have failed : rp ≠ .int 0 → ∀ {T₀ k₀ v₀ cb₀}, c = .storeDataType T₀ k₀ v₀ cb₀ →
      Event.storedUnder T k (lookupData ts T k) ⟨c, a, rp, effs⟩ = lookupData ts T k :=
    fun hr _ _ _ _ hc => by simp [Event.storedUnder, hc, hr]
  cases hst with
  | register hp => exact lookupData_insertIdx_fresh h hp _
  | storeNewNoNode hp =>
    rw [failed (by simp) rfl]
    exact lookupData_insertIdx_fresh h hp _
  | registerNull _ _ ho =>
    obtain rfl : ts' = ts := by simpa using ho
    rfl
  | storeNewNull _ _ ho =>
    obtain rfl : ts' = ts := by simpa using ho
    exact (failed (by simp) rfl).symm
  | storeMismatch | storeNoNode | storeDup => exact (failed (by simp) rfl).symm
  | deregisterAbsent hT =>
    simp only [Event.storedUnder]
    split_ifs with hT'
    · subst hT'
      exact lookupData_of_not_mem hT
    · rfl
  | @deregister j hj _ =>
    simp only [Event.storedUnder, lookupData, types_eraseIdx h.ascending hj]
    split_ifs with hT'
    · subst hT'
      simp
    · rw [Function.update_noteq (Ne.symm hT')]
  | store | storeNew =>
    obtain ⟨_, hts, hl⟩ := stored rfl rfl
    cases hts
    simp only [hl, Event.storedUnder, eq_comm (a := T), eq_comm (a := k), and_true]
  | _ => rfl

theorem Run.split {s₀ : KatcpShared} (hrun : Run s₀ es u) :
    ∀ {es₁ e es₂}, es = es₁ ++ e :: es₂ →
      ∃ t t', Run s₀ es₁ t ∧ exec t e.alloc e.call = some (e.reply, t', e.effects) := by
  induction hrun with
  | nil => intro _ _ _ heq; simp at heq
  | @snoc t u es e hrun he ih =>
    intro es₁ e₁ es₂ heq
    rcases List.eq_nil_or_concat es₂ with rfl | ⟨es₂', e₂, rfl⟩
    · obtain ⟨rfl, ⟨⟩⟩ := List.append_inj' heq rfl
      exact ⟨t, u, hrun, he⟩
    · rw [List.concat_eq_append, ← List.cons_append, ← List.append_assoc] at heq
      obtain ⟨rfl, -⟩ := List.append_inj' heq rfl
      exact ih rfl

/-- Over a run ending consistent, the value under `(T, k)` is the one `lastStored` computes. -/
theorem Run.lookupData_lastStored (hrun : Run s es u) (h : Wf s ts) :
    ∀ {ts'}, Wf u ts' → lookupData ts' T k = lastStored T k (lookupData ts T k) es := by
  intro ts' h'
  rcases hrun.wf_induction h (P := fun _ => True)
      (I := fun es ts' => lookupData ts' T k = lastStored T k (lookupData ts T k) es)
      (fun _ _ => trivial) rfl (fun {_ _ e _ _} h₁ _ hI hst => by
        dsimp only at hI ⊢
        rw [hst.lookupData_event h₁ e.alloc, hI, lastStored, lastStored, List.foldl_append]
        rfl) with
    ⟨ts₂, h₂, hI⟩ | ⟨-, -, -, -, -, hp, -⟩
  · rwa [Wf.unique h' h₂]
  · exact absurd h' hp.not_wf

/-- Over every run, the stored value and every `get_key_data_type_katcp` answer are those of the
last successful store since `T` was last removed. -/
theorem Run.reads_lastStored (hrun : Run s es u) (h : Wf s ts) (T k : String) :
    (∀ ts', Wf u ts' → lookupData ts' T k = lastStored T k (lookupData ts T k) es) ∧
    ∀ es₁ e es₂, es = es₁ ++ e :: es₂ → e.call = .getKeyDataType T k →
      e.reply = .data ((lastStored T k (lookupData ts T k) es₁).getD 0) := by
  refine ⟨fun _ => hrun.lookupData_lastStored h, fun es₁ e es₂ hes hc => ?_⟩
  obtain ⟨t, _, hrun₁, he⟩ := hrun.split hes
  rcases hrun₁.wf_or_poisoned h with ⟨ts₁, h₁⟩ | hp
  · obtain ⟨o, hst, -⟩ := exec_step h₁ he
    rw [hc] at hst
    rw [← hrun₁.lookupData_lastStored h h₁]
    generalize e.reply = rp at hst ⊢
    generalize e.effects = effs at hst
    cases hst
    rfl
  · obtain ⟨⟨id, hid⟩, -⟩ := exec_poisoned hp he
    rw [hc] at hid
    cases hid

theorem exec_getKeyDataType_single (T k : String) (v : Ptr) (cb : Callbacks) :
    exec ⟨.block [some { KatcpType.fresh T cb with tTree := some ⟨[(k, v)]⟩ }], 1⟩ .ok
      (.getKeyDataType T k) =
      some (.data v, ⟨.block [some { KatcpType.fresh T cb with tTree := some ⟨[(k, v)]⟩ }], 1⟩,
        []) := by
  simp [exec, getKeyDataTypeKatcp, findNameTypeKatcp, findNameIdTypeKatcp,
    binarySearchTypeListKatcp, bsearchLoop, TypeArray.read, readSlot, KatcpType.fresh,
    AvlTree.findNameNodeAvltree, AvlTree.lookup, compare_eq_iff_eq.mpr rfl]

/-- Store `5` under `"k"` of the only type `"a"`, then read it back. -/
theorem Run.reads_lastStored_store :
    Run ⟨.block [some (.fresh "a" ⟨0, 1, 0, 0, 0⟩)], 1⟩
      [⟨.storeDataType "a" "k" 5 ⟨0, 1, 0, 0, 0⟩, .ok, .int 0, []⟩,
        ⟨.getKeyDataType "a" "k", .ok, .data 5, []⟩]
      ⟨.block [some { KatcpType.fresh "a" ⟨0, 1, 0, 0, 0⟩ with tTree := some ⟨[("k", 5)]⟩ }], 1⟩ ∧
    (∀ ts', Wf ⟨.block [some { KatcpType.fresh "a" ⟨0, 1, 0, 0, 0⟩ with
        tTree := some ⟨[("k", 5)]⟩ }], 1⟩ ts' →
      lookupData ts' "a" "k" = lastStored "a" "k" (lookupData [.fresh "a" ⟨0, 1, 0, 0, 0⟩] "a" "k")
        [⟨.storeDataType "a" "k" 5 ⟨0, 1, 0, 0, 0⟩, .ok, .int 0, []⟩,
          ⟨.getKeyDataType "a" "k", .ok, .data 5, []⟩]) ∧
    ∀ es₁ e es₂, [(⟨.storeDataType "a" "k" 5 ⟨0, 1, 0, 0, 0⟩, .ok, .int 0, []⟩ : Event),
        ⟨.getKeyDataType "a" "k", .ok, .data 5, []⟩] = es₁ ++ e :: es₂ →
      e.call = .getKeyDataType "a" "k" →
      e.reply = .data ((lastStored "a" "k"
        (lookupData [.fresh "a" ⟨0, 1, 0, 0, 0⟩] "a" "k") es₁).getD 0) :=
  have hrun : Run ⟨.block [some (.fresh "a" ⟨0, 1, 0, 0, 0⟩)], 1⟩
      ([⟨.storeDataType "a" "k" 5 ⟨0, 1, 0, 0, 0⟩, .ok, .int 0, []⟩] ++
        [⟨.getKeyDataType "a" "k", .ok, .data 5, []⟩])
      ⟨.block [some { KatcpType.fresh "a" ⟨0, 1, 0, 0, 0⟩ with tTree := some ⟨[("k", 5)]⟩ }], 1⟩ :=
    .snoc (.snoc (.nil _) (exec_storeDataType_single _ _ _ _)) (exec_getKeyDataType_single _ _ _ _)
  ⟨hrun, Run.reads_lastStored hrun (wf_single _ _) "a" "k"⟩

end Katcp
