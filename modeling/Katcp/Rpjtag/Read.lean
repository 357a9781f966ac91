import Katcp.Rpjtag.Wire

/-! What `jtag_read_data` leaves in the caller's buffer, read as a string of bits. -/
namespace Rpjtag

/-- Bit `j` of a packed buffer: bit `j % 8` of byte `j / 8`, if the buffer has that byte. -/
def bufBit (data : List (BitVec 8)) (j : Nat) : Option Bool :=
  data[j / 8]?.map (·.getLsbD (j % 8))

theorem getElem?_eq_of_bufBit {a b : List (BitVec 8)} {q : Nat}
    (h : ∀ c < 8, bufBit a (8 * q + c) = bufBit b (8 * q + c)) : a[q]? = b[q]? := by
  have hq : ∀ c < 8, (8 * q + c) / 8 = q ∧ (8 * q + c) % 8 = c := fun c hc => by omega
  simp only [bufBit] at h
  cases ha : a[q]? <;> cases hb : b[q]?
  · rfl
  all_goals have h0 := h 0 (by decide); simp only [hq 0 (by decide), ha, hb] at h0
  · cases h0
  · cases h0
  · refine congrArg some (BitVec.eq_of_getLsbD_eq fun c => ?_)
    simpa [hq c c.isLt, ha, hb] using h c c.isLt

theorem getLsbD_sample (b : Bool) {k : Nat} (hk : k < 8) (c : Nat) :
    (BitVec.ofInt 8 (if b then 1 else 0) <<< k).getLsbD c = (decide (k = c) && b) := by
  cases b
  · simp
  · rw [if_pos rfl, show BitVec.ofInt 8 1 = 1#8 from rfl, ← BitVec.twoPow, BitVec.getLsbD_twoPow]
    simp [hk]

theorem orByte_of_lt {data : List (BitVec 8)} {q : Nat} (hq : q < data.length) (m : BitVec 8) :
    orByte data q m = some (data.set q (data[q] ||| m)) := by
  simp [orByte, hq]

theorem bufBit_set_or {data : List (BitVec 8)} {q : Nat} (hq : q < data.length) (m : BitVec 8)
    (j : Nat) : bufBit (data.set q (data[q] ||| m)) j =
      (bufBit data j).map (· || (decide (j / 8 = q) && m.getLsbD (j % 8))) := by
  unfold bufBit
  rw [List.getElem?_set]
  by_cases hj : q = j / 8
  · subst hj
    simp [hq]
  · simp [hj, Ne.symm hj, Function.comp_def]

theorem bufBit_zeroed (data : List (BitVec 8)) (n j : Nat) :
    bufBit (List.replicate n 0 ++ data.drop n) j = if j < 8 * n then some false else bufBit data j := by
  unfold bufBit
  split_ifs with hj
  · rw [List.getElem?_append_left (by simp; omega)]
    simp [show j / 8 < n by omega]
  · rw [List.getElem?_append_right (by simp; omega), List.getElem?_drop]
    simp [show n + (j / 8 - n) = j / 8 by omega]

theorem Session.readJtagTdo_eq {s : Jtag} (hs : Session s) :
    readJtagTdo s = if s.gpio.device s.gpio.edges.length then 1 else 0 := by
  simp only [readJtagTdo, gpioReadLine, Gpio.lgGpioRead, hs.tdo, Gpio.level]
  split <;> simp [*]

/-- Bit `j` after the pass for `i + 1`, which ORs the first sample into bit `i + 1`. -/
theorem readBit_succ (D : Nat → Bool) (len i j : Nat) (x : Bool) :
    (x || (decide (j / 8 = (i + 1) / 8) && (decide ((i + 1) % 8 = j % 8) && D len)) ||
      (decide (0 < j ∧ j ≤ i) && D (len + 1 + (i - j)))) =
    (x || (decide (0 < j ∧ j ≤ i + 1) && D (len + (i + 1 - j)))) := by
  by_cases hj : j = i + 1
  · subst hj
    simp [Nat.not_succ_le_self]
  · have hq : (decide (j / 8 = (i + 1) / 8) && decide ((i + 1) % 8 = j % 8)) = false := by
      simp only [Bool.and_eq_false_iff, decide_eq_false_iff_not]
      omega
    by_cases hr : 0 < j ∧ j ≤ i
    · simp [← Bool.and_assoc, hq, hr, show j ≤ i + 1 by omega,
        show len + 1 + (i - j) = len + (i + 1 - j) by omega]
    · simp [← Bool.and_assoc, hq, hr, show ¬(0 < j ∧ j ≤ i + 1) by omega]

theorem readBit_last (D : Nat → Bool) (len N j : Nat) (hN : 1 ≤ N) (x : Bool) :
    (x || (decide (0 < j ∧ j ≤ N - 1) && D (len + (N - 1 - j))) ||
      (decide (j / 8 = 0) && (decide (0 = j % 8) && D (len + (N - 1))))) =
    (x || (decide (j < N) && D (len + (N - 1 - j)))) := by
  by_cases hj : j = 0
  · subst hj
    simp [show 0 < N by omega]
  · have hq : (decide (j / 8 = 0) && decide (0 = j % 8)) = false := by
      simp only [Bool.and_eq_false_iff, decide_eq_false_iff_not]
      omega
    simp [← Bool.and_assoc, hq, show (0 < j ∧ j ≤ N - 1) ↔ j < N by omega]

/-- The loop of `jtag_read_data` down from `i`: `i` cycles with TDI and TMS low, bit `j` the sample
`i - j` cycles in. -/
theorem readBits_spec : ∀ (i : Nat) {s : Jtag} (data : List (BitVec 8)), Inv s →
    0 ≤ s.io.hTck → i / 8 < data.length → ∃ data' t, readBits i data s = some (data', t) ∧
      Inv t ∧ t.io.hTck = s.io.hTck ∧ t.gpio.device = s.gpio.device ∧
      t.gpio.edges = s.gpio.edges ++ List.replicate i (false, false) ∧
      data'.length = data.length ∧
      ∀ j, bufBit data' j = (bufBit data j).map
        (· || (decide (0 < j ∧ j ≤ i) && s.gpio.device (s.gpio.edges.length + (i - j))))
  | 0, s, data, h, _, _ => ⟨data, s, rfl, h, rfl, rfl, by simp, rfl, fun j => by
    simp only [show ¬(0 < j ∧ j ≤ 0) by omega, decide_False, Bool.false_and, Bool.or_false]
    simp⟩
  | i + 1, s, data, h, hk, hi => by
    have hq : (i + 1) / 8 < data.length := hi
    have hc := sendCmd_open 0 0 h hk
    have hdev0 : (sendCmd s 0 0).gpio.device = s.gpio.device := by rw [hc]
    have hedges0 : (sendCmd s 0 0).gpio.edges = s.gpio.edges ++ [(false, false)] := by rw [hc]; rfl
    obtain ⟨data', t, hr, ht, htck, hdev, hedges, hlen, hbits⟩ :=
      readBits_spec i (data.set ((i + 1) / 8) (data[(i + 1) / 8] |||
        BitVec.ofInt 8 (readJtagTdo s) <<< ((i + 1) % 8))) (inv_sendCmd 0 0 h)
        (by rwa [sendCmd_hTck]) (by simp only [List.length_set]; omega)
    refine ⟨data', t, ?_, ht, htck.trans (sendCmd_hTck 0 0), hdev.trans hdev0,
      by rw [hedges, hedges0]; simp [List.replicate_succ], by simp [hlen], fun j => ?_⟩
    · simp only [readBits, orByte_of_lt hq, Option.some_bind, hr]
    · rw [hbits, bufBit_set_or hq, (h.session hk).readJtagTdo_eq,
        getLsbD_sample _ (Nat.mod_lt _ (by decide)), Option.map_map, hdev0, hedges0,
        List.length_append, List.length_singleton]
      congr 1
      funext x
      exact readBit_succ s.gpio.device s.gpio.edges.length i j x

/-- `jtag_read_data(data, iSize)` clocks `iSize` cycles and leaves in bit `j` the sample `iSize - 1
- j` cycles in. -/
theorem jtagReadData_packs {s : Jtag} (h : Inv s) (hk : 0 ≤ s.io.hTck)
    {data : List (BitVec 8)} {N : Nat} (h1 : 1 ≤ N) (hroom : (N + 7) / 8 ≤ data.length) :
    (2147483647 < N + 7 → jtagReadData s data N = none) ∧
    (N + 7 ≤ 2147483647 → ∃ data' s', jtagReadData s data N = some (data', s') ∧
      s'.gpio.edges = s.gpio.edges ++ List.replicate (N - 1) (false, false) ++ [(true, false)] ∧
      data'.length = data.length ∧ data'.drop ((N + 7) / 8) = data.drop ((N + 7) / 8) ∧
      ∀ j < 8 * ((N + 7) / 8),
        bufBit data' j = some (decide (j < N) && s.gpio.device (s.gpio.edges.length + (N - 1 - j)))) := by
  refine ⟨fun hov => ?_, fun hov => ?_⟩
  · rw [jtagReadData, if_neg (by omega), if_pos (by omega)]
  have hn : ((N : Int) + 7).tdiv 8 = ((N + 7) / 8 : Nat) := by rw [Int.ofNat_tdiv]; push_cast; rfl
  generalize hn_def : (N + 7) / 8 = n at hn hroom ⊢
  have hd0 : (List.replicate n 0 ++ data.drop n).length = data.length := by simp; omega
  obtain ⟨d1, t, hr, ht, htck, hdev, hedges, hlen, hbits⟩ :=
    readBits_spec (N - 1) (List.replicate n 0 ++ data.drop n) h hk (by rw [hd0]; omega)
  have hts := ht.session (htck ▸ hk)
  have h0 : 0 < d1.length := by omega
  have hbits' : ∀ j, bufBit (d1.set 0 (d1[0] ||| BitVec.ofInt 8 (readJtagTdo t))) j =
      (bufBit (List.replicate n 0 ++ data.drop n) j).map
        (· || (decide (j < N) && s.gpio.device (s.gpio.edges.length + (N - 1 - j)))) := fun j => by
    rw [bufBit_set_or h0, hbits, hts.readJtagTdo_eq, hdev, hedges, List.length_append,
      List.length_replicate, ← BitVec.shiftLeft_zero (BitVec.ofInt 8 _),
      getLsbD_sample _ (by decide), Option.map_map]
    congr 1
    funext x
    exact readBit_last _ _ _ _ h1 x
  rw [jtagReadData, if_neg (by omega), if_neg (by omega), hn, if_neg (by omega),
    show ((N : Int) - 1).toNat = N - 1 by omega, Int.toNat_ofNat, hr, Option.some_bind]
  simp only [orByte_of_lt h0, Option.map_some']
  refine ⟨_, _, rfl, ?_, by rw [List.length_set, hlen, hd0], ?_, fun j hj => by
    rw [hbits', bufBit_zeroed, if_pos hj, Option.map_some', Bool.false_or]⟩
  · rw [sendCmd_open 0 1 ht (htck ▸ hk), hedges]
    simp
  · refine List.ext_getElem? fun q => ?_
    rw [List.getElem?_drop, List.getElem?_drop]
    refine getElem?_eq_of_bufBit fun c hc => ?_
    rw [hbits', bufBit_zeroed, if_neg (by omega)]
    simp [show ¬8 * (n + q) + c < N by omega]

theorem jtagReadData_packs_intMax :
    Inv (setupIo ⟨.init, .idle⟩ ⟨true, true, true, true, true⟩).2 ∧
    0 ≤ (setupIo ⟨.init, .idle⟩ ⟨true, true, true, true, true⟩).2.io.hTck ∧
    1 ≤ 2147483647 ∧ (2147483647 + 7) / 8 ≤ (List.replicate 268435456 (0 : BitVec 8)).length ∧
    jtagReadData (setupIo ⟨.init, .idle⟩ ⟨true, true, true, true, true⟩).2
      (List.replicate 268435456 0) 2147483647 = none := by
  have h := inv_setupIo (inv_init (g := .idle) fun _ _ => rfl) ⟨true, true, true, true, true⟩
  have hk : 0 ≤ (setupIo ⟨.init, .idle⟩ ⟨true, true, true, true, true⟩).2.io.hTck := by decide
  have hroom : (2147483647 + 7) / 8 ≤ (List.replicate 268435456 (0 : BitVec 8)).length :=
    Nat.le_of_eq ((by decide : (2147483647 + 7) / 8 = 268435456).trans
      (List.length_replicate _ _).symm)
  exact ⟨h, hk, by decide, hroom,
    (jtagReadData_packs h hk (N := 2147483647) (by decide) hroom).1 (by decide)⟩

end Rpjtag
