import Katcp.Ktype.Lifecycle

/-! What the registry is for: a map from type names to callbacks and stored values. -/
namespace Katcp

/-- What a caller sees of one type: its callbacks and its key-to-value map. -/
abbrev Content := Callbacks × (String → Option Ptr)

/-- What a descriptor holds for its callers. -/
def KatcpType.content (t : KatcpType) : Content :=
  (t.callbacks, fun k => t.tTree.bind (·.findNameNodeAvltree k))

/-- What a registry holds for its callers, name by name. -/
def contents (ts : List KatcpType) (T : String) : Option Content :=
  (types ts T).map KatcpType.content

/-- A store into one type as its callers see it: a missing type is created; a present one takes a
new key only under its own callbacks. -/
def storeType (cb : Callbacks) (k : String) (v : Ptr) : Option Content → Int × Option Content
  | none => (0, some (cb, Function.update (fun _ => none) k (some v)))
  | some (c, f) =>
    if c = cb ∧ f k = none then (0, some (c, Function.update f k (some v))) else (-1, some (c, f))

/-- What a caller learns from a reply. -/
inductive Answer where
  /-- whether an `int` reply reports success -/
  | status (ok : Bool)
  /-- what a found type holds -/
  | content (c : Option Content)
  /-- the value read -/
  | data (p : Ptr)
  | done

/-- What a reply tells the caller: indices are forgotten, since where a type sits depends on the
names beside it. -/
def answer : Call → Reply → Option Answer
  | .getIdType _, _ => none
  | _, .int r => some (.status (decide (0 ≤ r)))
  | _, .type t => some (.content (t.map KatcpType.content))
  | _, .data p => some (.data p)
  | _, .unit => some .done

/-- The registry as a map, call by call: what a call answers and what it leaves. -/
def absCall (r : String → Option Content) : Call → Option Answer × (String → Option Content)
  | .registerNameType T cb => match r T with
    | none => (some (.status true), Function.update r T (some (cb, fun _ => none)))
    | some _ => (some (.status false), r)
  | .deregisterType T => (some (.status (r T).isSome), Function.update r T none)
  | .storeDataType T k v cb =>
    (some (.status (decide ((storeType cb k v (r T)).1 = 0))),
      Function.update r T (storeType cb k v (r T)).2)
  | .destroyTypeList => (some .done, fun _ => none)
  | .findNameIdType T => (some (.status (r T).isSome), r)
  | .findNameType T => (some (.content (r T)), r)
  | .getIdType _ => (none, r)
  | .getKeyDataType T k => (some (.data (((r T).bind (·.2 k)).getD 0)), r)
  | .printTypes => (some .done, r)

/-- An abstract machine `f` over a list of calls: what each call answers, and the state after
the last. -/
def runAbs {σ α : Type} (f : σ → Call → α × σ) (r : σ) : List Call → List α × σ
  | [] => ([], r)
  | c :: cs => ((f r c).1 :: (runAbs f (f r c).2 cs).1, (runAbs f (f r c).2 cs).2)

section RunAbs

variable {σ α : Type} (f : σ → Call → α × σ)

theorem runAbs_append (r : σ) (cs : List Call) (c : Call) :
    runAbs f r (cs ++ [c]) =
      ((runAbs f r cs).1 ++ [(f (runAbs f r cs).2 c).1], (f (runAbs f r cs).2 c).2) := by
  induction cs generalizing r with
  | nil => rfl
  | cons c' cs ih =>
    show runAbs f r (c' :: (cs ++ [c])) = _
    rw [runAbs, ih]
    rfl

end RunAbs

section StoreType

variable {cb c : Callbacks} {k : String} {v : Ptr} {f : String → Option Ptr}

theorem storeType_mismatch (hc : c ≠ cb) : storeType cb k v (some (c, f)) = (-1, some (c, f)) := by
  simp [storeType, hc]

theorem storeType_dup (hk : f k ≠ none) : storeType cb k v (some (c, f)) = (-1, some (c, f)) := by
  simp [storeType, hk]

theorem storeType_added (hk : f k = none) :
    storeType cb k v (some (cb, f)) = (0, some (cb, Function.update f k (some v))) := by
  simp [storeType, hk]

end StoreType

theorem storeType_reply_cases (cb : Callbacks) (k : String) (v : Ptr) (o : Option Content) :
    (storeType cb k v o).1 = 0 ∨ (storeType cb k v o).1 = -1 := by
  rcases o with _ | ⟨c, f⟩
  · exact .inl rfl
  · by_cases h : c = cb ∧ f k = none <;> simp [storeType, h]

namespace AvlTree

variable {key : String} {w : Ptr} {nodes : List (String × Ptr)}

end AvlTree

variable {s s' u : KatcpShared} {ts ts' : List KatcpType} {T k : String} {v : Ptr}
  {cb : Callbacks} {c : Call} {rp : Reply} {o : Option (List KatcpType)} {effs : List Effect}

theorem contents_eq_none_iff : contents ts T = none ↔ T ∉ ts.map (·.tName) := by
  rw [contents, Option.map_eq_none', types_eq_none_iff]

theorem contents_eq_update {o : Option KatcpType}
    (h : types ts' = Function.update (types ts) T o) :
    contents ts' = Function.update (contents ts) T (o.map KatcpType.content) := by
  funext T'
  by_cases hT : T' = T
  · subst hT; simp [contents, h]
  · simp [contents, h, hT]

theorem contents_getElem (hs : NamesAscending ts) {j : Nat} (hj : j < ts.length) :
    contents ts ts[j].tName = some ts[j].content := by
  simp [contents, types_getElem hs hj]

theorem KatcpType.content_of_tree {t : KatcpType} {tree : AvlTree} (ht : t.tTree = some tree)
    (k : String) : t.content.2 k = tree.findNameNodeAvltree k := by
  simp [KatcpType.content, ht]

/-- A store step with every allocation answered does what `storeType` does. -/
theorem Step.store_refines (h : Wf s ts) (hst : Step ts (.storeDataType T k v cb) rp o effs)
    (hn : ∀ fn, .allocNull fn ∉ effs) :
    ∃ ts', o = some ts' ∧ rp = .int (storeType cb k v (contents ts T)).1 ∧
      contents ts' = Function.update (contents ts) T (storeType cb k v (contents ts T)).2 := by
  cases hst with
  | @storeMismatch j _ _ _ _ hj hT hc =>
    subst hT
    have hx : contents ts ts[j].tName = some (ts[j].callbacks, ts[j].content.2) :=
      contents_getElem h.ascending hj
    rw [hx, storeType_mismatch hc, ← hx, Function.update_eq_self]
    exact ⟨ts, rfl, rfl, rfl⟩
  | storeNoNode => exact absurd (List.mem_singleton_self _) (hn _)
  | @storeDup j _ _ _ _ hj hT htree hk =>
    subst hT
    have hl : ts[j].content.2 k ≠ none := by
      rw [KatcpType.content_of_tree htree]
      exact fun hl => AvlTree.lookup_eq_none_iff.mp hl hk
    have hx : contents ts ts[j].tName = some (ts[j].callbacks, ts[j].content.2) :=
      contents_getElem h.ascending hj
    rw [hx, storeType_dup hl, ← hx, Function.update_eq_self]
    exact ⟨ts, rfl, rfl, rfl⟩
  | @store j _ _ _ tree nodes hj hT htree hins =>
    subst hT
    obtain ⟨tree₀, htree₀, hs⟩ := h.stores _ (List.getElem_mem hj)
    obtain rfl : tree = tree₀ := Option.some.inj (htree.symm.trans htree₀)
    have hl : ts[j].content.2 k = none := by
      rw [KatcpType.content_of_tree htree, AvlTree.findNameNodeAvltree,
        AvlTree.lookup_eq_none_iff, ← AvlTree.insertNode_eq_none_iff hs, hins]
      exact Option.some_ne_none _
    have hcontent : ({ ts[j] with tTree := some ⟨nodes⟩ } : KatcpType).content =
        (ts[j].callbacks, Function.update ts[j].content.2 k (some v)) := by
      refine Prod.ext rfl (funext fun k' => ?_)
      simp [KatcpType.content, Function.update_apply, AvlTree.findNameNodeAvltree,
        AvlTree.lookup_insertNode hins, htree]
    have hx : contents ts ts[j].tName = some (ts[j].callbacks, ts[j].content.2) :=
      contents_getElem h.ascending hj
    refine ⟨_, rfl, ?_⟩
    rw [hx, storeType_added hl, contents_eq_update
      (types_set h.ascending hj (t := { ts[j] with tTree := some ⟨nodes⟩ }) rfl),
      Option.map_some', hcontent]
    exact ⟨rfl, rfl⟩
  | storeNew hp =>
    have hcontent : ({ KatcpType.fresh T cb with tTree := some ⟨[(k, v)]⟩ } : KatcpType).content =
        (cb, Function.update (fun _ => none) k (some v)) := by
      refine Prod.ext rfl (funext fun k' => ?_)
      by_cases hk : k' = k <;>
        simp [KatcpType.content, AvlTree.findNameNodeAvltree, AvlTree.lookup,
          Function.update_apply, hk]
    refine ⟨_, rfl, ?_⟩
    rw [contents_eq_none_iff.mpr hp.not_mem, contents_eq_update (types_insertIdx_fresh h hp rfl),
      Option.map_some', hcontent]
    exact ⟨rfl, rfl⟩
  | storeNewNoNode => exact absurd (List.mem_singleton_self _) (hn _)
  | storeNewNull => exact absurd (List.mem_cons_self _ _) (hn _)

/-- A step with every allocation answered answers what `absCall` answers and leaves what it leaves. -/
theorem Step.refines_absCall (h : Wf s ts) (hst : Step ts c rp o effs)
    (hn : ∀ fn, .allocNull fn ∉ effs) :
    ∃ ts', o = some ts' ∧ answer c rp = (absCall (contents ts) c).1 ∧
      contents ts' = (absCall (contents ts) c).2 := by
  cases c with
  | storeDataType T k v cb =>
    obtain ⟨ts', rfl, rfl, hc⟩ := hst.store_refines h hn
    refine ⟨ts', rfl, ?_, hc⟩
    rcases storeType_reply_cases cb k v (contents ts T) with hr | hr <;> simp [answer, absCall, hr]
  | registerNameType T cb =>
    cases hst with
    | registerDup hT =>
      obtain ⟨x, hx⟩ := Option.ne_none_iff_exists'.mp (mt contents_eq_none_iff.mp (not_not.mpr hT))
      exact ⟨ts, rfl, by simp [answer, absCall, hx], by simp [absCall, hx]⟩
    | register hp =>
      have hc : (KatcpType.fresh T cb).content = (cb, fun _ => none) := rfl
      refine ⟨_, rfl, ?_, ?_⟩ <;>
        simp only [absCall, contents_eq_none_iff.mpr hp.not_mem]
      · simp only [answer, decide_eq_true (Int.natCast_nonneg _)]
      · rw [contents_eq_update (types_insertIdx_fresh h hp rfl), Option.map_some', hc]
    | registerNull => exact absurd (List.mem_singleton_self _) (hn _)
  | deregisterType T =>
    cases hst with
    | deregisterAbsent hT =>
      have hx := contents_eq_none_iff.mpr hT
      exact ⟨ts, rfl, by simp [answer, absCall, hx], by rw [absCall, ← hx, Function.update_eq_self]⟩
    | deregister hj =>
      refine ⟨_, rfl, by simp [answer, absCall, contents_getElem h.ascending hj], ?_⟩
      rw [contents_eq_update (types_eraseIdx h.ascending hj)]
      rfl
    | deregisterLast => exact absurd (List.mem_append_right _ (List.mem_singleton_self _)) (hn _)
  | destroyTypeList =>
    cases hst
    exact ⟨[], rfl, rfl, rfl⟩
  | findNameIdType T =>
    cases hst with
    | findNameId hr =>
      refine ⟨ts, rfl, ?_, rfl⟩
      have hs : (contents ts T).isSome = decide (T ∈ ts.map (·.tName)) := by
        rw [Bool.eq_iff_iff, Option.isSome_iff_ne_none, Ne, contents_eq_none_iff, not_not,
          decide_eq_true_iff]
      simp only [answer, absCall, hs, hr.nonneg_iff]
  | findNameType T => cases hst; exact ⟨ts, rfl, rfl, rfl⟩
  | getIdType id => cases hst; exact ⟨ts, rfl, rfl, rfl⟩
  | getKeyDataType T k =>
    cases hst
    refine ⟨ts, rfl, ?_, rfl⟩
    simp only [answer, absCall, contents, lookupData, Option.bind_map]
    rfl
  | printTypes => cases hst; exact ⟨ts, rfl, rfl, rfl⟩

/-- A run follows an abstract machine `f` over `view` when every step from a consistent registry
does what `f` does. -/
theorem Run.refines {σ α : Type} (view : List KatcpType → σ) (f : σ → Call → α × σ)
    (obs : Event → α) (P : Event → Prop)
    (hstep : ∀ {s ts e o}, Wf s ts → Step ts e.call e.reply o e.effects → P e →
      ∃ ts', o = some ts' ∧ obs e = (f (view ts) e.call).1 ∧ view ts' = (f (view ts) e.call).2)
    {es : List Event} (hrun : Run s es u) (h : Wf s ts) (hP : ∀ e ∈ es, P e) :
    ∃ ts', Wf u ts' ∧ es.map obs = (runAbs f (view ts) (es.map Event.call)).1 ∧
      view ts' = (runAbs f (view ts) (es.map Event.call)).2 := by
  induction hrun with
  | nil => exact ⟨ts, h, rfl, rfl⟩
  | @snoc t _ es e _ he ih =>
    obtain ⟨ts₁, h₁, hr, hc⟩ := ih fun e' he' => hP e' (List.mem_append_left _ he')
    obtain ⟨o, hst, ht⟩ := exec_step h₁ he
    obtain ⟨ts₂, rfl, hobs, hc₂⟩ :=
      hstep h₁ hst (hP e (List.mem_append_right _ (List.mem_singleton_self _)))
    refine ⟨ts₂, ht, ?_, ?_⟩
    · simp only [List.map_append, List.map_singleton, runAbs_append, hr, hobs, hc]
    · rw [hc₂, hc, List.map_append, List.map_singleton, runAbs_append]

/-- With every allocation answered, a run from a consistent registry answers and ends as `absCall`
says. -/
theorem Run.follows_absCall {es : List Event} (hrun : Run s es u) (h : Wf s ts)
    (hn : ∀ e ∈ es, ∀ fn, .allocNull fn ∉ e.effects) :
    ∃ ts', Wf u ts' ∧ es.map (fun e => answer e.call e.reply) =
        (runAbs absCall (contents ts) (es.map Event.call)).1 ∧
      contents ts' = (runAbs absCall (contents ts) (es.map Event.call)).2 :=
  hrun.refines contents absCall _ (fun e => ∀ fn, .allocNull fn ∉ e.effects)
    (fun h hst hn => hst.refines_absCall h hn) h hn

theorem Run.follows_absCall_two :
    Run .empty [⟨.registerNameType "b" ⟨0, 0, 0, 0, 0⟩, .ok, .int 0, []⟩,
        ⟨.registerNameType "a" ⟨0, 0, 0, 0, 0⟩, .ok, .int 0, []⟩]
      ⟨.block [some (.fresh "a" ⟨0, 0, 0, 0, 0⟩), some (.fresh "b" ⟨0, 0, 0, 0, 0⟩)], 2⟩ ∧
    ∃ ts', Wf ⟨.block [some (.fresh "a" ⟨0, 0, 0, 0, 0⟩), some (.fresh "b" ⟨0, 0, 0, 0, 0⟩)], 2⟩ ts' ∧
      [some (Answer.status true), some (Answer.status true)] =
        (runAbs absCall (contents []) [.registerNameType "b" ⟨0, 0, 0, 0, 0⟩,
          .registerNameType "a" ⟨0, 0, 0, 0, 0⟩]).1 ∧
      contents ts' = (runAbs absCall (contents []) [.registerNameType "b" ⟨0, 0, 0, 0, 0⟩,
          .registerNameType "a" ⟨0, 0, 0, 0, 0⟩]).2 :=
  ⟨run_register_two, Run.follows_absCall run_register_two wf_empty (by simp)⟩

/-- A call on the map when any allocation may answer `NULL`: what `absCall` does, a failure that
changes nothing, or a store of a new type that fails having registered it. -/
inductive AbsStep (r : String → Option Content) : Call → Option Answer →
    (String → Option Content) → Prop
  | follows (c : Call) : AbsStep r c (absCall r c).1 (absCall r c).2
  | fails {c : Call} (hc : (∃ T cb, c = .registerNameType T cb) ∨
      ∃ T k v cb, c = .storeDataType T k v cb) : AbsStep r c (some (.status false)) r
  | registersEmpty {T k : String} {v : Ptr} {cb : Callbacks} (hT : r T = none) :
    AbsStep r (.storeDataType T k v cb) (some (.status false))
      (Function.update r T (some (cb, fun _ => none)))

/-- Runs of the failure-aware abstract machine over the events of a run. -/
inductive AbsRun (r : String → Option Content) : List Event → (String → Option Content) → Prop
  | nil : AbsRun r [] r
  | snoc {es : List Event} {e : Event} {r₁ r₂ : String → Option Content} :
    AbsRun r es r₁ → AbsStep r₁ e.call (answer e.call e.reply) r₂ → AbsRun r (es ++ [e]) r₂

theorem KatcpType.allocNull_not_mem_destroy (t : KatcpType) (fn : String) :
    .allocNull fn ∉ t.destroyTypeKatcp := by
  unfold KatcpType.destroyTypeKatcp AvlTree.destroyAvltree
  split
  · split_ifs <;> simp
  · simp

theorem allocNull_not_mem_print (t : Option KatcpType) (flags : Int) (fn : String) :
    .allocNull fn ∉ printTypeKatcp t flags := by
  unfold printTypeKatcp AvlTree.printInorderAvltree
  split
  · simp
  · split <;> simp

/-- Every step on a consistent registry, whatever the allocator answers, is an `AbsStep`. -/
theorem Step.absStep (h : Wf s ts) (hst : Step ts c rp (some ts') effs) :
    AbsStep (contents ts) c (answer c rp) (contents ts') := by
  have follows : ∀ {c rp ts' effs}, Step ts c rp (some ts') effs →
      (∀ fn, .allocNull fn ∉ effs) → AbsStep (contents ts) c (answer c rp) (contents ts') :=
    fun hst hn => by
      obtain ⟨_, ho, ha, hc⟩ := hst.refines_absCall h hn
      cases ho
      rw [ha, hc]
      exact .follows _
  have hst' := hst
  cases hst with
  | registerNull _ _ ho =>
    obtain rfl : ts' = ts := by simpa using ho
    exact .fails (.inl ⟨_, _, rfl⟩)
  | storeNoNode => exact .fails (.inr ⟨_, _, _, _, rfl⟩)
  | storeNewNull _ _ ho =>
    obtain rfl : ts' = ts := by simpa using ho
    exact .fails (.inr ⟨_, _, _, _, rfl⟩)
  | storeNewNoNode hp =>
    rw [contents_eq_update (types_insertIdx_fresh h hp rfl)]
    exact .registersEmpty (contents_eq_none_iff.mpr hp.not_mem)
  | _ =>
    exact follows hst' (by simp [List.mem_flatMap, KatcpType.allocNull_not_mem_destroy,
      allocNull_not_mem_print, AvlTree.freeNodeAvltree, apply_ite])

/-- Every run follows `AbsStep`, or does so up to the call that left `s_type` dangling, after which
each call answers `NULL`. -/
theorem Run.follows_absStep {es : List Event} (hrun : Run s es u) (h : Wf s ts) :
    (∃ ts', Wf u ts' ∧ AbsRun (contents ts) es (contents ts')) ∨
    ∃ es₁ e es₂ r, es = es₁ ++ e :: es₂ ∧ AbsRun (contents ts) es₁ r ∧ Poisoned u ∧
      (∃ fn, .allocNull fn ∈ e.effects ∧ fn ≠ "create_node_avltree") ∧
      ∀ e' ∈ es₂, (∃ id, e'.call = .getIdType id) ∧ e'.reply = .type none := by
  rcases hrun.wf_induction h (P := fun _ => True)
      (I := fun es ts' => AbsRun (contents ts) es (contents ts')) (fun _ _ => trivial) .nil
      (fun h₁ _ hr hst => hr.snoc (hst.absStep h₁)) with
    ⟨ts', h', hr⟩ | ⟨es₁, e, es₂, hes, ⟨_, hr⟩, hp, hn, hrest⟩
  · exact .inl ⟨ts', h', hr⟩
  · exact .inr ⟨es₁, e, es₂, _, hes, hr, hp, hn, hrest⟩

theorem Run.follows_absStep_two :
    Run .empty [⟨.registerNameType "b" ⟨0, 0, 0, 0, 0⟩, .ok, .int 0, []⟩,
        ⟨.registerNameType "a" ⟨0, 0, 0, 0, 0⟩, .ok, .int 0, []⟩]
      ⟨.block [some (.fresh "a" ⟨0, 0, 0, 0, 0⟩), some (.fresh "b" ⟨0, 0, 0, 0, 0⟩)], 2⟩ ∧
    ((∃ ts', Wf ⟨.block [some (.fresh "a" ⟨0, 0, 0, 0, 0⟩), some (.fresh "b" ⟨0, 0, 0, 0, 0⟩)], 2⟩ ts' ∧
        AbsRun (contents []) [⟨.registerNameType "b" ⟨0, 0, 0, 0, 0⟩, .ok, .int 0, []⟩,
        ⟨.registerNameType "a" ⟨0, 0, 0, 0, 0⟩, .ok, .int 0, []⟩] (contents ts')) ∨
      ∃ es₁ e es₂ r, ([⟨.registerNameType "b" ⟨0, 0, 0, 0, 0⟩, .ok, .int 0, []⟩,
        ⟨.registerNameType "a" ⟨0, 0, 0, 0, 0⟩, .ok, .int 0, []⟩] : List Event) =
          es₁ ++ e :: es₂ ∧ AbsRun (contents []) es₁ r ∧ Poisoned ⟨.block [some (.fresh "a" ⟨0, 0, 0, 0, 0⟩), some (.fresh "b" ⟨0, 0, 0, 0, 0⟩)], 2⟩ ∧
        (∃ fn, .allocNull fn ∈ e.effects ∧ fn ≠ "create_node_avltree") ∧
        ∀ e' ∈ es₂, (∃ id, e'.call = .getIdType id) ∧ e'.reply = .type none) :=
  ⟨run_register_two, Run.follows_absStep run_register_two wf_empty⟩

end Katcp
