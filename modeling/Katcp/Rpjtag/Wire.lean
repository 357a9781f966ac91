import Katcp.Rpjtag.Tdi

/-! The bit arithmetic of the byte and word senders, and the cycles the word senders clock. -/
namespace Rpjtag

theorem toNat_shiftRight_and_one {w : Nat} (x : BitVec w) (i : Nat) (hw : 0 < w) :
    ((x >>> i) &&& 1).toNat = (x.getLsbD i).toNat := by
  rw [show (1 : BitVec w) = 1#w from rfl, BitVec.and_one_eq_setWidth_ofBool_getLsbD,
    BitVec.getLsbD_ushiftRight, Nat.add_zero]
  cases x.getLsbD i <;> simp [hw]

theorem toNat_and_twoPow_ne_zero {w : Nat} (x : BitVec w) {i : Nat} (hi : i < w) :
    (x &&& BitVec.twoPow w i).toNat ≠ 0 ↔ x.getLsbD i := by
  rw [BitVec.and_twoPow]
  cases x.getLsbD i
  · simp
  · simp [BitVec.toNat_twoPow, Nat.mod_eq_of_lt (Nat.pow_lt_pow_of_lt (a := 2) (by omega) hi),
      Nat.pos_iff_ne_zero.mp (Nat.two_pow_pos i)]

theorem foldlM_of_some {α β : Type} {f : β → α → Option β} {g : β → α → β} :
    ∀ (l : List α) (b : β), (∀ b, ∀ x ∈ l, f b x = some (g b x)) →
      l.foldlM f b = some (l.foldl g b)
  | [], _, _ => rfl
  | x :: l, b, h => by
    rw [List.foldlM_cons, h b x (List.mem_cons_self _ _)]
    exact foldlM_of_some l _ fun b y hy => h b y (List.mem_cons_of_mem _ hy)

variable {s : Jtag}

/-- Below the width of `unsigned int` a pass of the word senders is one `send_cmd` of bit `b`. -/
theorem sendCmdBit_of_lt (s : Jtag) (cmd : BitVec 32) {b : Nat} (hb : b < 32) (last : Bool) :
    sendCmdBit s cmd b last = some (sendCmd s (cmd.getLsbD b).toNat (if last then 1 else 0)) := by
  rw [sendCmdBit, if_neg (by omega), toNat_shiftRight_and_one cmd b (by decide)]

theorem sendCmd_hTck (iTDI iTMS : Int) : (sendCmd s iTDI iTMS).io.hTck = s.io.hTck := by
  unfold sendCmd; split_ifs <;> rfl

theorem sendCmdNoTms_hTck (iTDI : Int) : (sendCmdNoTms s iTDI).io.hTck = s.io.hTck := by
  unfold sendCmdNoTms; split_ifs <;> rfl

/-- Both word senders clock exactly `n` bits through `send_cmd`, MSB first or last, TMS up on the
last when `lastBit` is `1`. -/
theorem sendCmdWord_cycles (s : Jtag) (cmd : BitVec 32) (lastBit : Int) {n : Nat} (hn : n ≤ 32) :
    sendCmdWordMsbFirst s cmd lastBit n = some ((List.range n).foldl (fun s k =>
      sendCmd s (cmd.getLsbD (n - 1 - k)).toNat (if lastBit = 1 ∧ k + 1 = n then 1 else 0)) s) ∧
    sendCmdWordMsbLast s cmd lastBit n = some ((List.range n).foldl (fun s k =>
      sendCmd s (cmd.getLsbD k).toNat (if lastBit = 1 ∧ k + 1 = n then 1 else 0)) s) := by
  constructor
  · rw [sendCmdWordMsbFirst, if_neg (by omega), Int.toNat_ofNat, List.range_eq_range',
      List.reverse_range', ← List.range_eq_range', List.foldlM_map]
    refine foldlM_of_some _ _ fun t k hk => ?_
    have hk : k < n := List.mem_range.mp hk
    simp only [Nat.zero_add, sendCmdBit_of_lt t cmd (show n - 1 - k < 32 by omega),
      decide_eq_true_eq, show n - 1 - k = 0 ↔ k + 1 = n by omega]
  · rw [sendCmdWordMsbLast, Int.toNat_ofNat]
    refine foldlM_of_some _ _ fun t k hk => ?_
    have hk : k < n := List.mem_range.mp hk
    simp only [sendCmdBit_of_lt t cmd (show k < 32 by omega), decide_eq_true_eq,
      show ((n : Int) = k + 1 ↔ k + 1 = n) by omega]

theorem sendCmdWord_cycles_two :
    2 ≤ 32 ∧ (sendCmdWordMsbFirst ⟨.init, .idle⟩ 2 1 2 = some ((List.range 2).foldl (fun s k =>
      sendCmd s ((2 : BitVec 32).getLsbD (2 - 1 - k)).toNat
        (if (1 : Int) = 1 ∧ k + 1 = 2 then 1 else 0)) ⟨.init, .idle⟩) ∧
    sendCmdWordMsbLast ⟨.init, .idle⟩ 2 1 2 = some ((List.range 2).foldl (fun s k =>
      sendCmd s ((2 : BitVec 32).getLsbD k).toNat (if (1 : Int) = 1 ∧ k + 1 = 2 then 1 else 0))
        ⟨.init, .idle⟩)) :=
  ⟨by decide, sendCmdWord_cycles ⟨.init, .idle⟩ 2 1 (by decide)⟩

end Rpjtag
