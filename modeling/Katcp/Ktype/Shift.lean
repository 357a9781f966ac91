import Katcp.Ktype.Ops
import Mathlib.Data.List.InsertIdx

/-! The shifting loops of `register_at_id_type_katcp` and `deregister_type_katcp`, slot by slot. -/
namespace Katcp

/-- `shiftUp tid slots i` moves the slots `tid, …, i-1` up by one, overwriting slot `i`, and
stops with `i = tid`. -/
theorem shiftUp_spec {tid : Int} (h0 : 0 ≤ tid) (slots : List (Option KatcpType)) (i : Int)
    (hti : tid ≤ i) (hi : i < slots.length) :
    ∃ slots', shiftUp tid slots i = some (slots', tid) ∧ slots'.length = slots.length ∧
      ∀ j : Nat, slots'[j]? = if (j : Int) ≤ tid ∨ i < j then slots[j]? else slots[j - 1]? := by
  induction slots, i using shiftUp.induct tid with
  | case1 slots i hlt ih =>
    obtain ⟨x, hx⟩ : ∃ x, slots[i.toNat - 1]? = some x :=
      ⟨_, List.getElem?_eq_getElem (by omega)⟩
    have hstep : shiftUp tid slots i = shiftUp tid (slots.set i.toNat x) (i - 1) := by
      rw [shiftUp, dif_pos hlt]
      simp [readSlot_of_nonneg (show 0 ≤ i - 1 by omega), hx,
        writeSlot_eq (show 0 ≤ i by omega) hi]
    obtain ⟨slots', h, hlen, hget⟩ := ih (slots.set i.toNat x) (by omega) (by simp; omega)
    refine ⟨slots', hstep ▸ h, by simpa using hlen, fun j => ?_⟩
    rw [hget j, List.getElem?_set, List.getElem?_set]
    split_ifs <;> first | rfl | omega | (rw [show j - 1 = i.toNat - 1 by omega]; exact hx.symm)
  | case2 slots i hge =>
    obtain rfl : i = tid := by omega
    exact ⟨slots, by rw [shiftUp, dif_neg hge], rfl, fun j => by rw [if_pos (by omega)]⟩

/-- `shiftDown last slots pos` moves the slots `pos + 1, …, last` down by one. -/
theorem shiftDown_spec {last : Int} (slots : List (Option KatcpType)) (pos : Int)
    (h0 : 0 ≤ pos) (hl : last < slots.length) :
    ∃ slots', shiftDown last slots pos = some slots' ∧ slots'.length = slots.length ∧
      ∀ j : Nat, slots'[j]? = if pos ≤ j ∧ (j : Int) < last then slots[j + 1]? else slots[j]? := by
  induction slots, pos using shiftDown.induct last with
  | case1 slots pos hlt ih =>
    obtain ⟨x, hx⟩ : ∃ x, slots[(pos + 1).toNat]? = some x :=
      ⟨_, List.getElem?_eq_getElem (by omega)⟩
    have hstep : shiftDown last slots pos = shiftDown last (slots.set pos.toNat x) (pos + 1) := by
      rw [shiftDown, dif_pos hlt]
      simp [readSlot_of_nonneg (show 0 ≤ pos + 1 by omega), hx,
        writeSlot_eq h0 (show pos < slots.length by omega)]
    obtain ⟨slots', h, hlen, hget⟩ := ih (slots.set pos.toNat x) (by omega) (by simp; omega)
    refine ⟨slots', hstep ▸ h, by simpa using hlen, fun j => ?_⟩
    rw [hget j, List.getElem?_set, List.getElem?_set]
    split_ifs <;> first | rfl | omega | (rw [show j + 1 = (pos + 1).toNat by omega]; exact hx.symm)
  | case2 slots pos hge =>
    exact ⟨slots, by rw [shiftDown, dif_neg hge], rfl, fun j => by rw [if_neg (by omega)]⟩

theorem insertIdx_eq_take_drop {α : Type} (l : List α) (x : α) {n : Nat} (hn : n ≤ l.length) :
    l.insertIdx n x = l.take n ++ x :: l.drop n := by
  induction n generalizing l with
  | zero => simp [List.insertIdx_zero]
  | succ n ih =>
    cases l with
    | nil => simp at hn
    | cons hd tl => simp [List.insertIdx_succ_cons, ih tl (by simpa using hn)]

theorem getElem?_insertIdx {α : Type} {l : List α} {n : Nat} (x : α) (hn : n ≤ l.length)
    (j : Nat) :
    (l.insertIdx n x)[j]? = if j < n then l[j]? else if j = n then some x else l[j - 1]? := by
  have ht : (l.take n).length = n := by simp [hn]
  rw [insertIdx_eq_take_drop l x hn]
  split_ifs with hj hjn
  · rw [List.getElem?_append_left (by omega), List.getElem?_take_of_lt hj]
  · subst hjn
    rw [List.getElem?_append_right (by omega), ht, Nat.sub_self, List.getElem?_cons_zero]
  · rw [List.getElem?_append_right (by omega), ht, List.getElem?_cons, if_neg (by omega),
      List.getElem?_drop]
    congr 1
    omega

theorem getElem?_of_holds {ts : List KatcpType} {slots : List (Option KatcpType)}
    (hp : ts.map some <+: slots) {j : Nat} (hj : j < ts.length) :
    slots[j]? = some (some ts[j]) := by
  obtain ⟨r, rfl⟩ := hp
  simp [List.getElem?_append_left (show j < (ts.map some).length by simpa using hj), hj]

theorem grow_holds {arr : TypeArray} {ts : List KatcpType} (ha : arr.Holds ts) {g : Growth}
    (hg : g ≠ .fail) :
    ∃ slots stale, grow arr (ts.length + 1) g = some (some (slots, stale)) ∧
      slots.length = ts.length + 1 ∧ ts.map some <+: slots := by
  cases arr with
  | null =>
    cases ha
    cases g <;> simp_all [grow]
  | block slots =>
    have hsub : ts.map some <+: resize slots (ts.length + 1) := by
      change ts.map some <+: slots at ha
      have hle := ha.length_le
      simp only [List.length_map] at hle
      rw [List.prefix_iff_eq_take] at ha ⊢
      simp only [List.length_map, resize] at ha ⊢
      rw [List.take_append_of_le_length (by simp; omega),
        List.take_take, min_eq_left (by omega), ← ha]
    cases g with
    | fail => exact absurd rfl hg
    | inPlace => exact ⟨_, _, rfl, by simp, hsub⟩
    | moved => exact ⟨_, _, rfl, by simp, hsub⟩
  | freed => exact ha.elim

/-- The loop of `register_at_id_type_katcp` and its `ts[i] = t`: `t` lands at `p`, the rest move up. -/
theorem shiftUp_write {ts : List KatcpType} {slots : List (Option KatcpType)}
    (hlen : slots.length = ts.length + 1) (hpre : ts.map some <+: slots) {p : Nat}
    (hp : p ≤ ts.length) (t : KatcpType) :
    ∃ slots', shiftUp p slots ts.length = some (slots', (p : Int)) ∧
      writeSlot slots' p (some t) = some ((ts.insertIdx p t).map some) := by
  obtain ⟨slots', hsh, hlen', hget⟩ :=
    shiftUp_spec (Int.natCast_nonneg p) slots ts.length (by omega) (by omega)
  refine ⟨slots', hsh, ?_⟩
  rw [writeSlot_eq (Int.natCast_nonneg p) (by omega), Int.toNat_ofNat, Option.some.injEq]
  apply List.ext_getElem?
  intro j
  rw [List.getElem?_set, hget j, List.getElem?_map, getElem?_insertIdx _ hp]
  by_cases hjp : p = j
  · subst hjp; simp [hlen']; omega
  · rw [if_neg hjp]
    rcases Nat.lt_or_ge j p with hj | hj
    · simp [show (j : Int) ≤ p by omega, hj, getElem?_of_holds hpre (show j < ts.length by omega),
        List.getElem?_eq_getElem (show j < ts.length by omega)]
    · rcases Nat.lt_or_ge ts.length j with hn | hn
      · simp [show ¬ j < p by omega, Ne.symm hjp, show ((ts.length : Nat) : Int) < j by omega,
          List.getElem?_eq_none (show slots.length ≤ j by omega),
          List.getElem?_eq_none (show ts.length ≤ j - 1 by omega)]
      · simp [show ¬ j < p by omega, Ne.symm hjp, show ¬ ((j : Int) ≤ p) by omega,
          show ¬ ((ts.length : Nat) : Int) < j by omega,
          getElem?_of_holds hpre (show j - 1 < ts.length by omega),
          List.getElem?_eq_getElem (show j - 1 < ts.length by omega)]

theorem registerAtIdTypeKatcp_holds {arr : TypeArray} {ts : List KatcpType} (ha : arr.Holds ts)
    {a : Alloc} (hr : a.realloc ≠ .fail) (hd : a.descriptorNull = none) {p : Nat}
    (hp : p ≤ ts.length) (name : String) (cb : Callbacks) :
    registerAtIdTypeKatcp ⟨arr, ts.length⟩ a p name cb =
      some ((p : Int), ⟨.block ((ts.insertIdx p (.fresh name cb)).map some), ts.length + 1⟩,
        []) := by
  obtain ⟨slots, stale, hg, hlen, hpre⟩ := grow_holds ha hr
  obtain ⟨slots', hsh, hw⟩ := shiftUp_write hlen hpre hp (.fresh name cb)
  simp only [registerAtIdTypeKatcp, hg, hd, hsh, hw, Option.bind_eq_bind, Option.some_bind,
    Option.pure_def]

/-- At every `0 ≤ tid ≤ n` the shifting loop leaves `ts[0 … tid) ++ [t] ++ ts[tid … n)`, nothing
lost or repeated. -/
theorem registerAtIdTypeKatcp_shifts {ts : List KatcpType} {tid : Int} (h0 : 0 ≤ tid)
    (hn : tid ≤ ts.length) :
    (∀ (slots : List (Option KatcpType)) (t : KatcpType), slots.length = ts.length + 1 →
      ts.map some <+: slots → ∃ slots', shiftUp tid slots ts.length = some (slots', tid) ∧
        writeSlot slots' tid (some t) =
          some ((ts.take tid.toNat ++ t :: ts.drop tid.toNat).map some)) ∧
    ∀ (arr : TypeArray) (a : Alloc) (name : String) (cb : Callbacks), arr.Holds ts →
      a.realloc ≠ .fail → a.descriptorNull = none →
      registerAtIdTypeKatcp ⟨arr, ts.length⟩ a tid name cb = some (tid,
        ⟨.block ((ts.take tid.toNat ++ .fresh name cb :: ts.drop tid.toNat).map some),
          ts.length + 1⟩, []) := by
  obtain ⟨p, rfl⟩ := Int.eq_ofNat_of_zero_le h0
  have hp : p ≤ ts.length := by omega
  refine ⟨fun slots t hlen hpre => ?_, fun arr a name cb ha hr hd => ?_⟩
  · simpa only [Int.toNat_ofNat, insertIdx_eq_take_drop ts t hp] using shiftUp_write hlen hpre hp t
  · rw [Int.toNat_ofNat, ← insertIdx_eq_take_drop _ _ hp]
    exact registerAtIdTypeKatcp_holds ha hr hd hp name cb

theorem registerAtIdTypeKatcp_shifts_front :
    (0 : Int) ≤ 0 ∧ (0 : Int) ≤ [KatcpType.fresh "b" ⟨0, 0, 0, 0, 0⟩].length ∧
    (∀ (slots : List (Option KatcpType)) (t : KatcpType),
      slots.length = [KatcpType.fresh "b" ⟨0, 0, 0, 0, 0⟩].length + 1 →
      [KatcpType.fresh "b" ⟨0, 0, 0, 0, 0⟩].map some <+: slots →
      ∃ slots', shiftUp 0 slots [KatcpType.fresh "b" ⟨0, 0, 0, 0, 0⟩].length = some (slots', 0) ∧
        writeSlot slots' 0 (some t) = some ([some t, some (.fresh "b" ⟨0, 0, 0, 0, 0⟩)])) ∧
    ∀ (arr : TypeArray) (a : Alloc) (name : String) (cb : Callbacks),
      arr.Holds [KatcpType.fresh "b" ⟨0, 0, 0, 0, 0⟩] → a.realloc ≠ .fail →
      a.descriptorNull = none →
      registerAtIdTypeKatcp ⟨arr, 1⟩ a 0 name cb = some (0,
        ⟨.block [some (.fresh name cb), some (.fresh "b" ⟨0, 0, 0, 0, 0⟩)], 2⟩, []) :=
  ⟨le_rfl, by decide, registerAtIdTypeKatcp_shifts le_rfl (by decide)⟩

/-- Clearing slot `k` and shifting the tail down leaves `ts` without its `k`-th descriptor. -/
theorem shiftDown_erase {ts : List KatcpType} {slots : List (Option KatcpType)}
    (hp : ts.map some <+: slots) {k : Nat} (hk : k < ts.length) :
    ∃ slots', shiftDown ((ts.length : Int) - 1) (slots.set k none) k = some slots' ∧
      slots'.take (ts.length - 1) = (ts.eraseIdx k).map some := by
  have hle := hp.length_le
  simp only [List.length_map] at hle
  obtain ⟨slots', h, hlen, hget⟩ :=
    shiftDown_spec (slots.set k none) k (by omega)
      (show (ts.length : Int) - 1 < ((slots.set k none).length : Int) by simp; omega)
  refine ⟨slots', h, List.ext_getElem? fun j => ?_⟩
  rw [List.getElem?_take, List.getElem?_map, List.getElem?_eraseIdx]
  split_ifs with h1 h2
  · rw [hget, if_neg (by omega), List.getElem?_set_ne (by omega),
      getElem?_of_holds hp (show j < ts.length by omega),
      List.getElem?_eq_getElem (show j < ts.length by omega)]; rfl
  · rw [hget, if_pos (by omega), List.getElem?_set_ne (by omega),
      getElem?_of_holds hp (show j + 1 < ts.length by omega),
      List.getElem?_eq_getElem (show j + 1 < ts.length by omega)]; rfl
  · rw [List.getElem?_eq_none (by omega)]; rfl
  · rw [List.getElem?_eq_none (by omega)]; rfl

end Katcp
