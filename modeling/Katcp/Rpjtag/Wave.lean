import Katcp.Rpjtag.Read
import Katcp.Rpjtag.Lines

/-! The driver as the device sees it: each line-driving call is a waveform of TMS and TDI levels. -/
namespace Rpjtag

/-- The TMS and TDI levels a waveform leaves the lines at: those of its last edge, or `l`. -/
def lastLevels (l : Bool × Bool) (w : List (Bool × Bool)) : Bool × Bool := w.getLast?.getD l

/-- What a line-driving call shows the device in an open session from levels `l`: TMS and TDI at
each rising edge. -/
def Call.wave (l : Bool × Bool) : Call → List (Bool × Bool)
  | .tickClk => [l]
  | .sendCmdNoTms iTDI => [(l.1, iTDI ≠ 0)]
  | .sendCmd iTDI iTMS => [(iTMS = 1, iTDI = 1)]
  | .sendCmdWordMsbFirst cmd lastBit n => (List.range n.toNat).map fun k =>
    (lastBit = 1 ∧ k + 1 = n.toNat, cmd.getLsbD (n.toNat - 1 - k))
  | .sendCmdWordMsbLast cmd lastBit n => (List.range n.toNat).map fun k =>
    (lastBit = 1 ∧ k + 1 = n.toNat, cmd.getLsbD k)
  | .sendByte byte lastbyte =>
    [7, 6, 5, 4, 3, 2, 1, 0].map fun x => (x = 0 ∧ lastbyte = 1, byte.getLsbD x)
  | .sendByteNoTms byte => [7, 6, 5, 4, 3, 2, 1, 0].map fun x => (l.1, byte.getLsbD x)
  | .jtagReadData _ iSize =>
    if iSize = 0 then [] else List.replicate (iSize - 1).toNat (false, false) ++ [(true, false)]
  | .setupIo _ | .closeIo | .resetClk | .readJtagTdo => []

/-- The waveform of a run, each call starting from the levels the one before left. -/
def waveRun (l : Bool × Bool) : List Call → List (Bool × Bool)
  | [] => []
  | c :: cs => c.wave l ++ waveRun (lastLevels l (c.wave l)) cs

theorem lastLevels_append (l : Bool × Bool) (w w' : List (Bool × Bool)) :
    lastLevels l (w ++ w') = lastLevels (lastLevels l w) w' := by
  unfold lastLevels
  rw [List.getLast?_append]
  cases w'.getLast? <;> rfl

/-- From `s` to `t` the device sees `w` and nothing else; the session stays open and TMS and TDI end
where `w` leaves them. -/
structure Wired (s t : Jtag) (w : List (Bool × Bool)) : Prop where
  edges : t.gpio.edges = s.gpio.edges ++ w
  levels : (t.gpio.tms, t.gpio.tdi) = lastLevels (s.gpio.tms, s.gpio.tdi) w
  device : t.gpio.device = s.gpio.device
  inv : Inv t
  hTck : t.io.hTck = s.io.hTck

variable {s t u : Jtag} {w w' : List (Bool × Bool)}

theorem Wired.refl (h : Inv s) : Wired s s [] := ⟨by simp, rfl, rfl, h, rfl⟩

theorem Wired.trans (h₁ : Wired s t w) (h₂ : Wired t u w') : Wired s u (w ++ w') where
  edges := by rw [h₂.edges, h₁.edges, List.append_assoc]
  levels := by rw [h₂.levels, h₁.levels, lastLevels_append]
  device := h₂.device.trans h₁.device
  inv := h₂.inv
  hTck := h₂.hTck.trans h₁.hTck

theorem Wired.of_eq (h : Wired s t w) (e : w = w') : Wired s t w' := e ▸ h

theorem Wired.tms (h : Wired s t [(a, b)]) : t.gpio.tms = a := congrArg Prod.fst h.levels

section Open

variable (h : Inv s) (hk : 0 ≤ s.io.hTck)
include h hk

theorem wired_sendCmd (iTDI iTMS : Int) :
    Wired s (sendCmd s iTDI iTMS) [(decide (iTMS = 1), decide (iTDI = 1))] where
  edges := by rw [sendCmd_open _ _ h hk]
  levels := by rw [sendCmd_open _ _ h hk]; rfl
  device := by rw [sendCmd_open _ _ h hk]
  inv := inv_sendCmd _ _ h
  hTck := sendCmd_hTck _ _

theorem wired_sendCmdNoTms (iTDI : Int) :
    Wired s (sendCmdNoTms s iTDI) [(s.gpio.tms, decide (iTDI ≠ 0))] where
  edges := by rw [sendCmdNoTms_open _ h hk]
  levels := by rw [sendCmdNoTms_open _ h hk]; rfl
  device := by rw [sendCmdNoTms_open _ h hk]
  inv := inv_sendCmdNoTms _ h
  hTck := sendCmdNoTms_hTck _

theorem wired_tickClk : Wired s (tickClk s) [(s.gpio.tms, s.gpio.tdi)] where
  edges := by rw [(h.session hk).tickClk_eq]
  levels := by rw [(h.session hk).tickClk_eq]; rfl
  device := by rw [(h.session hk).tickClk_eq]
  inv := inv_tickClk h
  hTck := rfl

theorem resetClk_open : resetClk s = s := by
  have hs := h.session hk
  rw [resetClk, gpioClrLine, Gpio.lgGpioWrite_of_line hs.tck]
  obtain ⟨io, ⟨_, _, tck, _, _, _, _⟩⟩ := s
  cases hs.low
  rfl

end Open

theorem wired_foldl_sendCmd {α : Type} (fTdi fTms : α → Int) :
    ∀ (xs : List α) {s : Jtag}, Inv s → 0 ≤ s.io.hTck →
      Wired s (xs.foldl (fun s x => sendCmd s (fTdi x) (fTms x)) s)
        (xs.map fun x => (decide (fTms x = 1), decide (fTdi x = 1)))
  | [], _, h, _ => .refl h
  | x :: xs, _, h, hk => by
    have h₁ := wired_sendCmd h hk (fTdi x) (fTms x)
    exact h₁.trans (wired_foldl_sendCmd fTdi fTms xs h₁.inv (h₁.hTck ▸ hk))

theorem wired_foldl_sendCmdNoTms {α : Type} (fTdi : α → Int) :
    ∀ (xs : List α) {s : Jtag}, Inv s → 0 ≤ s.io.hTck →
      Wired s (xs.foldl (fun s x => sendCmdNoTms s (fTdi x)) s)
        (xs.map fun x => (s.gpio.tms, decide (fTdi x ≠ 0)))
  | [], _, h, _ => .refl h
  | x :: xs, _, h, hk => by
    have h₁ := wired_sendCmdNoTms h hk (fTdi x)
    have h₂ := wired_foldl_sendCmdNoTms fTdi xs h₁.inv (h₁.hTck ▸ hk)
    rw [h₁.tms] at h₂
    exact h₁.trans h₂

theorem wired_foldlM_sendCmdBit (cmd : BitVec 32) (last : Nat → Bool) :
    ∀ (l : List Nat) {s t : Jtag}, Inv s → 0 ≤ s.io.hTck →
      l.foldlM (fun s b => sendCmdBit s cmd b (last b)) s = some t →
      Wired s t (l.map fun b => (last b, cmd.getLsbD b))
  | [], _, _, h, _, he => by cases he; exact .refl h
  | b :: l, s, _, h, hk, he => by
    obtain ⟨t₁, h₁, he⟩ := Option.bind_eq_some.mp he
    replace h₁ : sendCmdBit s cmd b (last b) = some t₁ := h₁
    have hb : b < 32 := by
      by_contra hb
      rw [sendCmdBit, if_pos (by omega)] at h₁
      cases h₁
    rw [sendCmdBit_of_lt s cmd hb, Option.some.injEq] at h₁
    subst h₁
    have hw := wired_sendCmd h hk (cmd.getLsbD b).toNat (if last b then 1 else 0)
    have hx : (decide ((if last b then (1 : Int) else 0) = 1),
        decide (((cmd.getLsbD b).toNat : Int) = 1)) = (last b, cmd.getLsbD b) := by
      cases last b <;> cases cmd.getLsbD b <;> rfl
    rw [hx] at hw
    exact hw.trans (wired_foldlM_sendCmdBit cmd last l hw.inv (hw.hTck ▸ hk) he)

theorem wired_readBits : ∀ (i : Nat) {data d : List (BitVec 8)} {s t : Jtag}, Inv s →
    0 ≤ s.io.hTck → readBits i data s = some (d, t) →
      Wired s t (List.replicate i (false, false))
  | 0, _, _, _, _, h, _, he => by cases he; exact .refl h
  | i + 1, _, _, s, _, h, hk, he => by
    simp only [readBits, Option.bind_eq_some] at he
    obtain ⟨_, -, he⟩ := he
    have h₁ := wired_sendCmd h hk 0 0
    rw [List.replicate_succ, ← List.singleton_append]
    exact h₁.trans (wired_readBits i h₁.inv (h₁.hTck ▸ hk) he)

theorem wired_jtagReadData {data d : List (BitVec 8)} {iSize : Int} (h : Inv s)
    (hk : 0 ≤ s.io.hTck) (he : jtagReadData s data iSize = some (d, t)) :
    Wired s t (Call.jtagReadData data iSize |>.wave (s.gpio.tms, s.gpio.tdi)) := by
  unfold jtagReadData at he
  dsimp only at he
  rw [Call.wave]
  split_ifs at he with h0
  · cases he; rw [if_pos h0]; exact .refl h
  · obtain ⟨⟨d₁, t₁⟩, ht, he⟩ := Option.bind_eq_some.mp he
    obtain ⟨_, -, he⟩ := Option.map_eq_some'.mp he
    cases he
    rw [if_neg h0]
    have h₁ := wired_readBits _ h hk ht
    exact h₁.trans (wired_sendCmd h₁.inv (h₁.hTck ▸ hk) 0 1)

/-- `send_byte` clocks the byte out most significant bit first, TMS high on the last bit when
`lastbyte` is `1`. -/
theorem wired_sendByte (h : Inv s) (hk : 0 ≤ s.io.hTck) (byte : BitVec 8) (lastbyte : Int) :
    Wired s (sendByte s byte lastbyte)
      ((Call.sendByte byte lastbyte).wave (s.gpio.tms, s.gpio.tdi)) := by
  rw [Call.wave]
  refine (wired_foldl_sendCmd _ _ _ h hk).of_eq (List.map_congr_left fun x _ => ?_)
  rw [toNat_shiftRight_and_one byte x (by decide)]
  cases byte.getLsbD x <;> by_cases hx : x = 0 ∧ lastbyte = 1 <;> simp [hx]

/-- `send_byte_no_tms` clocks the byte out most significant bit first and leaves TMS where it
stands. -/
theorem wired_sendByteNoTms (h : Inv s) (hk : 0 ≤ s.io.hTck) (byte : BitVec 8) :
    Wired s (sendByteNoTmsVia s sendCmdNoTms byte)
      ((Call.sendByteNoTms byte).wave (s.gpio.tms, s.gpio.tdi)) := by
  have hm : ([0x80, 0x40, 0x20, 0x10, 0x08, 0x04, 0x02, 0x01] : List (BitVec 8)) =
      [7, 6, 5, 4, 3, 2, 1, 0].map (BitVec.twoPow 8) := by decide
  simp only [sendByteNoTmsVia, hm, List.foldl_map, Call.wave]
  refine (wired_foldl_sendCmdNoTms _ _ h hk).of_eq (List.map_congr_left fun x hx => ?_)
  have hx8 : x < 8 := by simp at hx; omega
  refine Prod.ext rfl ?_
  rw [Bool.eq_iff_iff, decide_eq_true_eq, Ne, Int.ofNat_eq_zero, ← Ne,
    toNat_and_twoPow_ne_zero byte hx8]

/-- One line-driving call of an open session shows the device its waveform. -/
theorem exec_wired {c : Call} {r : Reply × Jtag} (hc : c.Drives) (h : Inv s)
    (hk : 0 ≤ s.io.hTck) (he : exec c s = some r) :
    Wired s r.2 (c.wave (s.gpio.tms, s.gpio.tdi)) := by
  cases c with
  | setupIo | closeIo => exact hc.elim
  | tickClk => cases he; exact wired_tickClk h hk
  | resetClk => cases he; rw [show resetClk s = s from resetClk_open h hk]; exact .refl h
  | readJtagTdo => cases he; exact .refl h
  | sendCmdNoTms i => cases he; exact wired_sendCmdNoTms h hk i
  | sendCmd i t => cases he; exact wired_sendCmd h hk i t
  | sendCmdWordMsbFirst cmd lastBit n =>
    obtain ⟨t, ht, rfl⟩ := Option.map_eq_some'.mp he
    unfold sendCmdWordMsbFirst at ht
    split_ifs at ht with hn
    have hw := wired_foldlM_sendCmdBit cmd _ _ h hk ht
    rw [List.range_eq_range', List.reverse_range', List.map_map] at hw
    refine hw.of_eq (List.map_congr_left fun k hk' => ?_)
    have hk' : k < n.toNat := List.mem_range.mp hk'
    simp only [Function.comp_apply, Nat.zero_add,
      show n.toNat - 1 - k = 0 ↔ k + 1 = n.toNat by omega]
  | sendCmdWordMsbLast cmd lastBit n =>
    obtain ⟨t, ht, rfl⟩ := Option.map_eq_some'.mp he
    refine (wired_foldlM_sendCmdBit cmd _ _ h hk ht).of_eq (List.map_congr_left fun k hk' => ?_)
    have hk' : k < n.toNat := List.mem_range.mp hk'
    simp only [show n = k + 1 ↔ k + 1 = n.toNat by omega]
  | sendByte byte lastbyte => cases he; exact wired_sendByte h hk byte lastbyte
  | sendByteNoTms byte => cases he; exact wired_sendByteNoTms h hk byte
  | jtagReadData data iSize =>
    obtain ⟨⟨d, t⟩, ht, rfl⟩ := Option.map_eq_some'.mp he
    exact wired_jtagReadData h hk ht

/-- Over every run of line-driving calls in a session the device sees their waveforms in turn,
whatever `tdi_state` caches. -/
theorem run_wave : ∀ {cs : List Call} {s : Jtag} {r : List Reply × Jtag}, (∀ c ∈ cs, c.Drives) →
    Inv s → 0 ≤ s.io.hTck → run exec cs s = some r →
      Wired s r.2 (waveRun (s.gpio.tms, s.gpio.tdi) cs) ∧
      ∀ i : Nat, cs[i]? = some .readJtagTdo → r.1[i]? = some (.int (if s.gpio.device
        (s.gpio.edges.length + (waveRun (s.gpio.tms, s.gpio.tdi) (cs.take i)).length) then 1 else 0))
  | [], _, _, _, h, _, he => by cases he; exact ⟨.refl h, fun i hi => by simp at hi⟩
  | c :: cs, s, _, hd, h, hk, he => by
    obtain ⟨⟨rp, t⟩, ht, he⟩ := Option.bind_eq_some.mp he
    obtain ⟨u, hu, rfl⟩ := Option.map_eq_some'.mp he
    have h₁ := exec_wired (hd c (List.mem_cons_self _ _)) h hk ht
    obtain ⟨h₂, hread⟩ := run_wave (fun c' hc' => hd c' (List.mem_cons_of_mem _ hc')) h₁.inv
      (h₁.hTck ▸ hk) hu
    rw [h₁.levels] at h₂ hread
    refine ⟨h₁.trans h₂, fun i hi => ?_⟩
    cases i with
    | zero =>
      obtain rfl : c = .readJtagTdo := by simpa using hi
      cases ht
      simp [(h.session hk).readJtagTdo_eq, waveRun]
    | succ i =>
      rw [List.getElem?_cons_succ] at hi
      rw [List.getElem?_cons_succ, hread i hi, h₁.device, h₁.edges, List.take_succ_cons, waveRun,
        List.length_append, List.length_append, Nat.add_assoc]

theorem run_wave_session :
    (∀ c ∈ [Call.sendCmd 1 0, .readJtagTdo, .sendByteNoTms 0xA5], c.Drives) ∧
    Inv (setupIo ⟨.init, .idle⟩ ⟨true, true, true, true, true⟩).2 ∧
    0 ≤ (setupIo ⟨.init, .idle⟩ ⟨true, true, true, true, true⟩).2.io.hTck ∧
    ∃ r, run exec [.sendCmd 1 0, .readJtagTdo, .sendByteNoTms 0xA5]
        (setupIo ⟨.init, .idle⟩ ⟨true, true, true, true, true⟩).2 = some r ∧
      Wired (setupIo ⟨.init, .idle⟩ ⟨true, true, true, true, true⟩).2 r.2
        (waveRun ((setupIo ⟨.init, .idle⟩ ⟨true, true, true, true, true⟩).2.gpio.tms,
          (setupIo ⟨.init, .idle⟩ ⟨true, true, true, true, true⟩).2.gpio.tdi)
          [.sendCmd 1 0, .readJtagTdo, .sendByteNoTms 0xA5]) ∧
      ∀ i : Nat, [Call.sendCmd 1 0, .readJtagTdo, .sendByteNoTms 0xA5][i]? = some .readJtagTdo →
        r.1[i]? = some (.int (if (setupIo ⟨.init, .idle⟩ ⟨true, true, true, true, true⟩).2.gpio.device
          ((setupIo ⟨.init, .idle⟩ ⟨true, true, true, true, true⟩).2.gpio.edges.length +
            (waveRun ((setupIo ⟨.init, .idle⟩ ⟨true, true, true, true, true⟩).2.gpio.tms,
              (setupIo ⟨.init, .idle⟩ ⟨true, true, true, true, true⟩).2.gpio.tdi)
              ([Call.sendCmd 1 0, .readJtagTdo, .sendByteNoTms 0xA5].take i)).length) then 1 else 0)) := by
  have hd : ∀ c ∈ [Call.sendCmd 1 0, .readJtagTdo, .sendByteNoTms 0xA5], c.Drives := by
    simp [Call.Drives]
  have h := inv_setupIo (inv_init (g := .idle) fun _ _ => rfl) ⟨true, true, true, true, true⟩
  have hk : 0 ≤ (setupIo ⟨.init, .idle⟩ ⟨true, true, true, true, true⟩).2.io.hTck := by decide
  obtain ⟨r, hr⟩ : ∃ r, run exec [.sendCmd 1 0, .readJtagTdo, .sendByteNoTms 0xA5]
      (setupIo ⟨.init, .idle⟩ ⟨true, true, true, true, true⟩).2 = some r := ⟨_, rfl⟩
  exact ⟨hd, h, hk, r, hr, run_wave hd h hk hr⟩

section Closed

/-- Between `s` and `t` the driver keeps its handles, and while they are dead lgpio is left as
it was. -/
structure Quiet (s t : Jtag) : Prop where
  handles : t.io.handles = s.io.handles
  gpio : s.io.hTck < 0 → s.io.hTms < 0 → s.io.hTdi < 0 → t.gpio = s.gpio

theorem quietChain : Chain Quiet sendCmdNoTms where
  refl _ := ⟨rfl, fun _ _ _ => rfl⟩
  trans h₁ h₂ := ⟨h₂.handles.trans h₁.handles, fun hk hm hd => by
    obtain ⟨ek, em, ed, -⟩ : _ ∧ _ ∧ _ ∧ _ := by simpa [Globals.handles] using h₁.handles
    rw [h₂.gpio (ek ▸ hk) (em ▸ hm) (ed ▸ hd), h₁.gpio hk hm hd]⟩
  cmd _ _ _ := ⟨by rw [sendCmd_eq]; rfl, fun hk hm hd => by
    rw [sendCmd_eq, tickClk_of_neg (by exact hk)]
    simp [setTdi_of_neg hd, Gpio.lgGpioWrite_of_neg hm]⟩
  cmdNoTms _ _ := ⟨by unfold sendCmdNoTms; split_ifs <;> rfl, fun hk _ hd => by
    unfold sendCmdNoTms
    split_ifs <;> simp [tickClk_of_neg, setTdi_of_neg hd, hk]⟩
  tick _ := ⟨rfl, fun hk _ _ => by rw [tickClk_of_neg hk]⟩
  reset _ := ⟨rfl, fun hk _ _ => by simp [resetClk, gpioClrLine, Gpio.lgGpioWrite_of_neg hk]⟩

/-- Through a dead TDO handle `read_jtag_tdo` answers a high level. -/
theorem readJtagTdo_of_neg (hd : s.io.hTdo < 0) : readJtagTdo s = 1 := by
  simp [readJtagTdo, gpioReadLine, Gpio.lgGpioRead, Gpio.line_of_neg hd]

end Closed

end Rpjtag
