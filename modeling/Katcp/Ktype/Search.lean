import Katcp.Ktype.Basic

/-! `binary_search_type_list_katcp`: the loop, its invariant, and what it answers. -/
namespace Katcp

/-- The `while (low <= high)` loop of `binary_search_type_list_katcp`; there `high - low ≥ 0`, so
C's division and Lean's agree. -/
def bsearchLoop (ts : TypeArray) (str : String) (low high : Int) : Option Int :=
  if h : low ≤ high then
    let mid := low + (high - low) / 2
    match ts.read mid with
    | some (some t) =>
      match compare str t.tName with
      | .eq => some mid
      | .lt => bsearchLoop ts str low (mid - 1)
      | .gt => bsearchLoop ts str (mid + 1) high
    | _ => none
  else some ((-1) * (low + 1))
termination_by (high + 1 - low).toNat
decreasing_by all_goals simp_wf; omega

/-- `binary_search_type_list_katcp`: an index holding `str`, or `-(p + 1)` for its insertion point
`p`; `none` on a bad read. -/
def binarySearchTypeListKatcp (ts : TypeArray) (tSize : Int) (str : String) : Option Int :=
  if ts = .null ∨ tSize = 0 then some (-1) else bsearchLoop ts str 0 (tSize - 1)

/-- Names strictly ascending under `strcmp`, hence pairwise distinct. -/
def NamesAscending (ts : List KatcpType) : Prop :=
  ts.Sorted fun a b => a.tName < b.tName

/-- `ts` are the first slots of the array (`NULL` holds no descriptor). -/
def TypeArray.Holds : TypeArray → List KatcpType → Prop
  | .null, ts => ts = []
  | .block slots, ts => ts.map some <+: slots
  | .freed, _ => False

/-- `p` is where `str` belongs among `ts`: names before `p` sort below it, names from `p` on above
it. -/
structure InsertionPoint (ts : List KatcpType) (str : String) (p : Nat) : Prop where
  le : p ≤ ts.length
  below : ∀ j (h : j < ts.length), j < p → ts[j].tName < str
  above : ∀ j (h : j < ts.length), p ≤ j → str < ts[j].tName

theorem InsertionPoint.not_mem {ts : List KatcpType} {str : String} {p : Nat}
    (hp : InsertionPoint ts str p) : str ∉ ts.map (·.tName) := by
  intro hm
  obtain ⟨t, ht, rfl⟩ := List.mem_map.mp hm
  obtain ⟨j, hj, rfl⟩ := List.getElem_of_mem ht
  rcases Nat.lt_or_ge j p with hjp | hjp
  · exact lt_irrefl _ (hp.below j hj hjp)
  · exact lt_irrefl _ (hp.above j hj hjp)

theorem InsertionPoint.unique {ts : List KatcpType} {str : String} {p q : Nat}
    (hp : InsertionPoint ts str p) (hq : InsertionPoint ts str q) : p = q := by
  have := hp.le
  have := hq.le
  by_contra hne
  rcases Nat.lt_or_gt_of_ne hne with h | h
  · exact lt_asymm (hq.below p (by omega) h) (hp.above p (by omega) le_rfl)
  · exact lt_asymm (hp.below q (by omega) h) (hq.above q (by omega) le_rfl)

/-- What a search may answer: the index of a descriptor named `str`, or `-(p + 1)` for the insertion
point `p`. -/
def SearchResult (ts : List KatcpType) (str : String) (r : Int) : Prop :=
  (∃ i, ∃ h : i < ts.length, r = i ∧ ts[i].tName = str) ∨
  ∃ p, InsertionPoint ts str p ∧ r = -((p : Int) + 1)

/-- The loop invariant: `[low, high]` lies in the array, names below `low` sort before `str`, names
above `high` after it. -/
structure SearchInv (ts : List KatcpType) (str : String) (low high : Int) : Prop where
  low_nonneg : 0 ≤ low
  le : low ≤ high + 1
  high_lt : high < ts.length
  below : ∀ j (h : j < ts.length), (j : Int) < low → ts[j].tName < str
  above : ∀ j (h : j < ts.length), high < j → str < ts[j].tName

/-- The loop's bounds on an array of `n` descriptors, sorted or not. -/
structure SearchBounds (n : Nat) (low high : Int) : Prop where
  low_nonneg : 0 ≤ low
  le : low ≤ high + 1
  high_lt : high < n

theorem NamesAscending.le {ts : List KatcpType} (hs : NamesAscending ts) {i j : Nat}
    (hij : i ≤ j) (hj : j < ts.length) :
    ts[i].tName ≤ ts[j].tName := by
  rcases Nat.lt_or_eq_of_le hij with h | rfl
  · exact le_of_lt (List.pairwise_iff_getElem.mp hs i j (by omega) hj h)
  · exact le_rfl

theorem read_block_of_lt {slots : List (Option KatcpType)} {ts : List KatcpType}
    (hp : ts.map some <+: slots) {i : Int} (h0 : 0 ≤ i) (hi : i < ts.length) :
    (TypeArray.block slots).read i = some (some ts[i.toNat]) := by
  obtain ⟨rest, rfl⟩ := hp
  have hn : i.toNat < ts.length := by omega
  simp [TypeArray.read, readSlot, h0, hn, List.getElem?_append_left]

theorem eq_of_read_block {slots : List (Option KatcpType)} {ts : List KatcpType}
    (hp : ts.map some <+: slots) {i : Int} (h0 : 0 ≤ i) (hi : i < ts.length) {t : KatcpType}
    (ht : (TypeArray.block slots).read i = some (some t)) : t = ts[i.toNat] := by
  simpa [read_block_of_lt hp h0 hi] using ht.symm

theorem bsearchLoop_probe {ts : TypeArray} {str : String} {low high : Int} {t : KatcpType}
    (hle : low ≤ high) (hr : ts.read (low + (high - low) / 2) = some (some t)) :
    bsearchLoop ts str low high =
      match compare str t.tName with
      | .eq => some (low + (high - low) / 2)
      | .lt => bsearchLoop ts str low (low + (high - low) / 2 - 1)
      | .gt => bsearchLoop ts str (low + (high - low) / 2 + 1) high := by
  rw [bsearchLoop]
  simp [hle, hr]

theorem bsearchLoop_exit {ts : TypeArray} {str : String} {low high : Int} (hgt : ¬low ≤ high) :
    bsearchLoop ts str low high = some (-(low + 1)) := by
  rw [bsearchLoop, dif_neg hgt]
  congr 1
  omega

theorem bsearchLoop_spec {slots : List (Option KatcpType)} {ts : List KatcpType}
    (hp : ts.map some <+: slots) (hs : NamesAscending ts) (str : String) (low high : Int)
    (hi : SearchInv ts str low high) :
    ∃ r, bsearchLoop (.block slots) str low high = some r ∧ SearchResult ts str r := by
  have h0 := hi.low_nonneg
  have hn := hi.high_lt
  induction low, high using bsearchLoop.induct (.block slots) str with
  | case1 low high hle mid t ht hc =>
    have hm : mid = low + (high - low) / 2 := rfl
    obtain rfl := eq_of_read_block hp (by omega) (by omega) ht
    refine ⟨mid, by rw [bsearchLoop_probe hle ht, hc], .inl ⟨mid.toNat, by omega, by omega, ?_⟩⟩
    exact (compare_eq_iff_eq.mp hc).symm
  | case2 low high hle mid t ht hc ih =>
    have hm : mid = low + (high - low) / 2 := rfl
    obtain rfl := eq_of_read_block hp (by omega) (by omega) ht
    obtain ⟨r, hr, hres⟩ := ih ⟨h0, by omega, by omega, hi.below, fun j hj hmj =>
      lt_of_lt_of_le (compare_lt_iff_lt.mp hc) (hs.le (by omega) hj)⟩ h0 (by omega)
    exact ⟨r, by rw [bsearchLoop_probe hle ht, hc]; exact hr, hres⟩
  | case3 low high hle mid t ht hc ih =>
    have hm : mid = low + (high - low) / 2 := rfl
    obtain rfl := eq_of_read_block hp (by omega) (by omega) ht
    obtain ⟨r, hr, hres⟩ := ih ⟨by omega, by omega, hn, fun j hj hjm =>
      lt_of_le_of_lt (hs.le (by omega) (by omega)) (compare_gt_iff_gt.mp hc), hi.above⟩
      (by omega) hn
    exact ⟨r, by rw [bsearchLoop_probe hle ht, hc]; exact hr, hres⟩
  | case4 low high hle mid hnone =>
    have hm : mid = low + (high - low) / 2 := rfl
    exact absurd (read_block_of_lt hp (i := mid) (by omega) (by omega)) (hnone _)
  | case5 low high hgt =>
    have hle := hi.le
    refine ⟨-(low + 1), bsearchLoop_exit hgt,
      .inr ⟨low.toNat, ⟨by omega, ?_, ?_⟩, by omega⟩⟩
    · exact fun j hj hjp => hi.below j hj (by omega)
    · exact fun j hj hpj => hi.above j hj (by omega)

/-- On any block whose first `n` slots hold descriptors, the loop probes only those slots. -/
theorem bsearchLoop_bounds {slots : List (Option KatcpType)} {ts : List KatcpType}
    (hp : ts.map some <+: slots) (str : String) (low high : Int)
    (hb : SearchBounds ts.length low high) :
    ∃ r, bsearchLoop (.block slots) str low high = some r ∧
      bsearchLoop (.block (ts.map some)) str low high = some r ∧
      ((∃ i, ∃ h : i < ts.length, r = i ∧ ts[i].tName = str) ∨
        (-((ts.length : Int) + 1) ≤ r ∧ r ≤ -1)) := by
  have h0 := hb.low_nonneg
  have hn := hb.high_lt
  have hself : ts.map some <+: ts.map some := List.prefix_refl _
  induction low, high using bsearchLoop.induct (.block (ts.map some)) str with
  | case1 low high hle mid t ht hc =>
    have hm : mid = low + (high - low) / 2 := rfl
    obtain rfl := eq_of_read_block hself (by omega) (by omega) ht
    have hs := read_block_of_lt hp (i := mid) (by omega) (by omega)
    exact ⟨mid, by rw [bsearchLoop_probe hle hs, hc], by rw [bsearchLoop_probe hle ht, hc],
      .inl ⟨mid.toNat, by omega, by omega, (compare_eq_iff_eq.mp hc).symm⟩⟩
  | case2 low high hle mid t ht hc ih =>
    have hm : mid = low + (high - low) / 2 := rfl
    obtain rfl := eq_of_read_block hself (by omega) (by omega) ht
    have hs := read_block_of_lt hp (i := mid) (by omega) (by omega)
    obtain ⟨r, h₁, h₂, hres⟩ := ih ⟨h0, by omega, by omega⟩ h0 (by omega)
    exact ⟨r, by rw [bsearchLoop_probe hle hs, hc]; exact h₁,
      by rw [bsearchLoop_probe hle ht, hc]; exact h₂, hres⟩
  | case3 low high hle mid t ht hc ih =>
    have hm : mid = low + (high - low) / 2 := rfl
    obtain rfl := eq_of_read_block hself (by omega) (by omega) ht
    have hs := read_block_of_lt hp (i := mid) (by omega) (by omega)
    obtain ⟨r, h₁, h₂, hres⟩ := ih ⟨by omega, by omega, hn⟩ (by omega) hn
    exact ⟨r, by rw [bsearchLoop_probe hle hs, hc]; exact h₁,
      by rw [bsearchLoop_probe hle ht, hc]; exact h₂, hres⟩
  | case4 low high hle mid hnone =>
    have hm : mid = low + (high - low) / 2 := rfl
    exact absurd (read_block_of_lt hself (i := mid) (by omega) (by omega)) (hnone _)
  | case5 low high hgt =>
    have hle := hb.le
    exact ⟨_, bsearchLoop_exit hgt, bsearchLoop_exit hgt, .inr ⟨by omega, by omega⟩⟩

/-- Over every array holding descriptors with ascending names, the search is defined and
answers a `SearchResult`. -/
theorem binarySearchTypeListKatcp_spec {arr : TypeArray} {ts : List KatcpType}
    (ha : arr.Holds ts) (hs : NamesAscending ts) (str : String) :
    ∃ r, binarySearchTypeListKatcp arr ts.length str = some r ∧ SearchResult ts str r := by
  by_cases hne : ts = []
  · subst hne
    exact ⟨-1, by simp [binarySearchTypeListKatcp],
      .inr ⟨0, ⟨le_rfl, fun j hj => absurd hj (by simp), fun j hj => absurd hj (by simp)⟩, by simp⟩⟩
  cases arr with
  | null => exact absurd ha hne
  | freed => exact ha.elim
  | block slots =>
    have hlen : ts.length ≠ 0 := by simpa using hne
    simp only [binarySearchTypeListKatcp]
    rw [if_neg (by simpa using hlen)]
    exact bsearchLoop_spec ha hs str 0 (ts.length - 1)
      ⟨le_rfl, by omega, by omega, fun j _ hj => by omega, fun j hj hgt => by omega⟩

theorem SearchResult.found_iff {ts : List KatcpType} {str : String} {r : Int}
    (h : SearchResult ts str r) :
    (∃ i, ∃ h : i < ts.length, r = i ∧ ts[i].tName = str) ↔ str ∈ ts.map (·.tName) := by
  constructor
  · rintro ⟨i, hi, -, rfl⟩
    exact List.mem_map.mpr ⟨_, List.getElem_mem hi, rfl⟩
  · intro hm
    rcases h with h | ⟨p, hp, -⟩
    · exact h
    obtain ⟨t, ht, rfl⟩ := List.mem_map.mp hm
    obtain ⟨k, hk, rfl⟩ := List.getElem_of_mem ht
    rcases Nat.lt_or_ge k p with hkp | hkp
    · exact absurd (hp.below k hk hkp) (lt_irrefl _)
    · exact absurd (hp.above k hk hkp) (lt_irrefl _)

theorem SearchResult.nonneg_iff {ts : List KatcpType} {str : String} {r : Int}
    (h : SearchResult ts str r) : 0 ≤ r ↔ str ∈ ts.map (·.tName) := by
  rw [← h.found_iff]
  rcases h with ⟨i, hi, rfl, hn⟩ | ⟨p, -, rfl⟩
  · exact iff_of_true (Int.natCast_nonneg i) ⟨i, hi, rfl, hn⟩
  · exact iff_of_false (by omega) fun ⟨i, _, hr, _⟩ => by omega

/-- On ascending names the search answers an index holding `str`, or `-(p + 1)` for where it
belongs. -/
theorem binarySearchTypeListKatcp_correct {arr : TypeArray} {ts : List KatcpType}
    (ha : arr.Holds ts) (hs : NamesAscending ts) (str : String) :
    ∃ r, binarySearchTypeListKatcp arr ts.length str = some r ∧
      (str ∈ ts.map (·.tName) → ∃ i, ∃ h : i < ts.length, r = i ∧ ts[i].tName = str) ∧
      (str ∉ ts.map (·.tName) → ∃ p ≤ ts.length, r = -((p : Int) + 1) ∧
        (∀ j (h : j < ts.length), j < p → ts[j].tName < str) ∧
        (∀ j (h : j < ts.length), p ≤ j → str < ts[j].tName)) := by
  obtain ⟨r, hr, hres⟩ := binarySearchTypeListKatcp_spec ha hs str
  refine ⟨r, hr, hres.found_iff.mpr, fun hm => ?_⟩
  rcases hres with hf | ⟨p, hp, rfl⟩
  · exact absurd ((SearchResult.found_iff (.inl hf)).mp hf) hm
  · exact ⟨p, hp.le, rfl, hp.below, hp.above⟩

theorem binarySearchTypeListKatcp_between :
    ∃ r < 0, binarySearchTypeListKatcp (.block [some (.fresh "a" ⟨0, 0, 0, 0, 0⟩),
      some (.fresh "c" ⟨0, 0, 0, 0, 0⟩)]) 2 "b" = some r := by
  have hs : NamesAscending [.fresh "a" ⟨0, 0, 0, 0, 0⟩, .fresh "c" ⟨0, 0, 0, 0, 0⟩] :=
    List.sorted_cons.mpr ⟨by simpa using compare_lt_iff_lt.mp (by decide : compare "a" "c" = .lt),
      List.sorted_singleton _⟩
  have ha : TypeArray.Holds (.block [some (.fresh "a" ⟨0, 0, 0, 0, 0⟩),
      some (.fresh "c" ⟨0, 0, 0, 0, 0⟩)])
      [.fresh "a" ⟨0, 0, 0, 0, 0⟩, .fresh "c" ⟨0, 0, 0, 0, 0⟩] :=
    List.prefix_refl _
  obtain ⟨r, hr, -, habs⟩ := binarySearchTypeListKatcp_correct ha hs "b"
  obtain ⟨p, -, rfl, -⟩ := habs (by decide)
  exact ⟨_, by omega, hr⟩

/-- On any `n` descriptors, sorted or not, the search probes only slots `0 … n-1` and answers in
`[-(n + 1), n)`. -/
theorem binarySearchTypeListKatcp_inBounds (ts : List KatcpType) (rest : List (Option KatcpType))
    (str : String) :
    ∃ r, binarySearchTypeListKatcp (.block (ts.map some ++ rest)) ts.length str = some r ∧
      binarySearchTypeListKatcp (.block (ts.map some)) ts.length str = some r ∧
      ((∃ i, ∃ h : i < ts.length, r = i ∧ ts[i].tName = str) ∨
        (-((ts.length : Int) + 1) ≤ r ∧ r ≤ -1)) := by
  rcases Nat.eq_zero_or_pos ts.length with hz | hpos
  · have hnil : ∀ arr : TypeArray, binarySearchTypeListKatcp arr ts.length str = some (-1) :=
      fun _ => by simp [binarySearchTypeListKatcp, hz]
    exact ⟨-1, hnil _, hnil _, .inr ⟨by omega, le_rfl⟩⟩
  · have hsize : ¬ (ts.length : Int) = 0 := by omega
    simp only [binarySearchTypeListKatcp, reduceCtorEq, false_or, hsize, if_false]
    exact bsearchLoop_bounds (List.prefix_append _ _) str 0 (ts.length - 1)
      ⟨le_rfl, by omega, by omega⟩

end Katcp
