import Katcp.Rpjtag.Io
import Mathlib.Data.Int.Order.Basic

/-! `tdi_state` caches the TDI line, so skipping a write changes nothing the device sees. -/
namespace Rpjtag

/-- `send_cmd_no_tms` as if it wrote TDI on every call, with no `tdi_state` to consult. -/
def sendCmdNoTmsAlways (s : Jtag) (iTDI : Int) : Jtag := tickClk (setTdi s (iTDI ≠ 0))

def execAlways : Call → Jtag → Option (Reply × Jtag) := call sendCmdNoTmsAlways

namespace Gpio

variable {g : Gpio} {h : Int} {p : Pin} {v : Bool}

/-- No handle from `next` on is live. -/
def Fresh (g : Gpio) : Prop := ∀ n, g.next ≤ n → g.owner n = none

theorem line_of_neg (hh : h < 0) : g.line h = none := if_neg (by omega)

theorem lgGpioWrite_of_neg (hh : h < 0) : g.lgGpioWrite h v = g := by
  simp [lgGpioWrite, line_of_neg hh]

theorem lgGpioWrite_of_line (hl : g.line h = some p) : g.lgGpioWrite h v = g.setLevel p v := by
  simp [lgGpioWrite, hl]

theorem line_natCast (n : Nat) : g.line n = g.owner n := by simp [line, Int.ofNat_nonneg]

@[simp] theorem setLevel_owner : (g.setLevel p v).owner = g.owner := by cases p <;> rfl

@[simp] theorem setLevel_next : (g.setLevel p v).next = g.next := by cases p <;> rfl

@[simp] theorem setLevel_line : (g.setLevel p v).line = g.line := by cases p <;> rfl

@[simp] theorem lgGpioWrite_owner : (g.lgGpioWrite h v).owner = g.owner := by
  unfold lgGpioWrite; split <;> simp

@[simp] theorem lgGpioWrite_next : (g.lgGpioWrite h v).next = g.next := by
  unfold lgGpioWrite; split <;> simp

theorem Fresh.bump (hf : g.Fresh) : ({ g with next := g.next + 1 } : Gpio).Fresh :=
  fun n hn => hf n (Nat.le_of_succ_le hn)

theorem Fresh.setLevel (hf : g.Fresh) : (g.setLevel p v).Fresh := by
  simpa [Fresh] using hf

theorem Fresh.grant (hf : g.Fresh) : (g.grant p).Fresh := fun n hn => by
  have hn : g.next + 1 ≤ n := hn
  show Function.update g.owner g.next (some p) n = none
  rw [Function.update_noteq (by omega)]
  exact hf n (by omega)

theorem Fresh.lgGpioFreeLine (hf : g.Fresh) : (g.lgGpioFreeLine h).Fresh := by
  unfold Gpio.lgGpioFreeLine
  split
  · intro n hn
    show Function.update g.owner h.toNat none n = none
    by_cases e : n = h.toNat
    · rw [e, Function.update_same]
    · rw [Function.update_noteq e]; exact hf n hn
  · exact hf

theorem Fresh.freeIfHeld (hf : g.Fresh) : (freeIfHeld h g).Fresh := by
  unfold Rpjtag.freeIfHeld; split
  · exact hf.lgGpioFreeLine
  · exact hf

end Gpio

/-- An open session, between calls: the four handles live on their lines, TCK low, `tdi_state` unset
or at TDI. -/
structure Session (s : Jtag) : Prop where
  tck : s.gpio.line s.io.hTck = some .tck
  tms : s.gpio.line s.io.hTms = some .tms
  tdi : s.gpio.line s.io.hTdi = some .tdi
  tdo : s.gpio.line s.io.hTdo = some .tdo
  low : s.gpio.tck = false
  cached : s.io.tdiState = -1 ∨ s.io.tdiState = if s.gpio.tdi then 1 else 0

/-- What holds between any two calls: no handle from `next` on is live, and the driver holds all
four lines or none. -/
structure Inv (s : Jtag) : Prop where
  fresh : s.gpio.Fresh
  session : 0 ≤ s.io.hTck → Session s
  closed : s.io.hTck < 0 → s.io.hTms < 0 ∧ s.io.hTdi < 0 ∧ s.io.hTdo < 0

variable {s : Jtag} {v : Bool}

theorem inv_of_closed (hf : s.gpio.Fresh) (hk : s.io.hTck < 0) (hm : s.io.hTms < 0)
    (hd : s.io.hTdi < 0) (ho : s.io.hTdo < 0) : Inv s :=
  ⟨hf, fun h => absurd h (by omega), fun _ => ⟨hm, hd, ho⟩⟩

theorem inv_init {g : Gpio} (hg : g.Fresh) : Inv ⟨Globals.init, g⟩ :=
  inv_of_closed hg (by simp [Globals.init]) (by simp [Globals.init]) (by simp [Globals.init])
    (by simp [Globals.init])

/-- A step that keeps the handles and, in a session, TCK low and `tdi_state` at TDI keeps the
invariant. -/
theorem Inv.of_levels (h : Inv s) {st : Int} {g' : Gpio} (hn : g'.next = s.gpio.next)
    (ho : g'.owner = s.gpio.owner)
    (hopen : 0 ≤ s.io.hTck → g'.tck = false ∧ (st = -1 ∨ st = if g'.tdi then 1 else 0)) :
    Inv ⟨{ s.io with tdiState := st }, g'⟩ := by
  have hl : ∀ x, g'.line x = s.gpio.line x := fun x => by simp [Gpio.line, ho]
  refine ⟨fun n hn' => ?_, fun hk => ?_, h.closed⟩
  · show g'.owner n = none
    rw [ho]; exact h.fresh n (hn ▸ hn')
  · have hs := h.session hk
    exact ⟨(hl _).trans hs.tck, (hl _).trans hs.tms, (hl _).trans hs.tdi, (hl _).trans hs.tdo,
      (hopen hk).1, (hopen hk).2⟩

section Primitives

theorem Session.setTdi_eq (hs : Session s) (v : Bool) :
    setTdi s v = ⟨{ s.io with tdiState := if v then 1 else 0 }, { s.gpio with tdi := v }⟩ := by
  rw [setTdi, Gpio.lgGpioWrite_of_line hs.tdi]; rfl

theorem Session.tickClk_eq (hs : Session s) :
    tickClk s = ⟨s.io, { s.gpio with edges := s.gpio.edges ++ [(s.gpio.tms, s.gpio.tdi)] }⟩ := by
  have hl : (s.gpio.setLevel .tck true).line s.io.hTck = some .tck := by simpa using hs.tck
  simp only [tickClk, gpioSetLine, gpioClrLine, Gpio.lgGpioWrite_of_line hs.tck,
    Gpio.lgGpioWrite_of_line hl]
  obtain ⟨io, ⟨_, _, tck, _, _, _, _⟩⟩ := s
  cases hs.low
  rfl

theorem Session.writeTms_eq (hs : Session s) (v : Bool) :
    s.gpio.lgGpioWrite s.io.hTms v = { s.gpio with tms := v } := by
  rw [Gpio.lgGpioWrite_of_line hs.tms]; rfl

theorem tickClk_of_neg (hk : s.io.hTck < 0) : tickClk s = s := by
  simp [tickClk, gpioSetLine, gpioClrLine, Gpio.lgGpioWrite_of_neg hk]

theorem setTdi_of_neg (hd : s.io.hTdi < 0) :
    setTdi s v = ⟨{ s.io with tdiState := if v then 1 else 0 }, s.gpio⟩ := by
  simp [setTdi, Gpio.lgGpioWrite_of_neg hd]

@[simp] theorem setTdi_io : (setTdi s v).io = { s.io with tdiState := if v then 1 else 0 } :=
  rfl

@[simp] theorem tickClk_io : (tickClk s).io = s.io := rfl

theorem inv_setTdi (h : Inv s) (v : Bool) : Inv (setTdi s v) := by
  refine h.of_levels (by simp) (by simp) fun hk => ?_
  rw [Gpio.lgGpioWrite_of_line (h.session hk).tdi]
  exact ⟨(h.session hk).low, .inr rfl⟩

theorem inv_tickClk (h : Inv s) : Inv (tickClk s) := by
  rcases lt_or_le s.io.hTck 0 with hk | hk
  · rwa [tickClk_of_neg hk]
  · have hs := h.session hk
    rw [hs.tickClk_eq]
    exact h.of_levels rfl rfl fun _ => ⟨hs.low, hs.cached⟩

theorem inv_writeTms (h : Inv s) (v : Bool) : Inv ⟨s.io, s.gpio.lgGpioWrite s.io.hTms v⟩ :=
  h.of_levels (by simp) (by simp) fun hk => by
    rw [(h.session hk).writeTms_eq]; exact ⟨(h.session hk).low, (h.session hk).cached⟩

theorem setTdi_self (h : Inv s) (hv : s.io.tdiState = if v then 1 else 0) :
    setTdi s v = s := by
  rcases lt_or_le s.io.hTck 0 with hk | hk
  · rw [setTdi_of_neg (h.closed hk).2.1, ← hv]
  · have hs := h.session hk
    have ht : s.gpio.tdi = v := by
      rcases hs.cached with hc | hc <;> rw [hc] at hv <;> revert hv <;> cases v <;>
        cases s.gpio.tdi <;> decide
    rw [hs.setTdi_eq, ← hv, ← ht]

end Primitives

section Senders

variable (iTDI iTMS : Int)

theorem sendCmdNoTms_eq_always (h : Inv s) : sendCmdNoTms s iTDI = sendCmdNoTmsAlways s iTDI := by
  unfold sendCmdNoTms sendCmdNoTmsAlways
  by_cases hi : iTDI = 0
  · simp only [hi, if_true, ne_eq, not_true_eq_false, decide_False]
    split_ifs with hst
    · rw [setTdi_self h (by simpa using hst)]
    · rfl
  · simp only [hi, if_false, ne_eq, not_false_eq_true, decide_True]
    split_ifs with hst
    · rw [setTdi_self h (by simpa using hst)]
    · rfl

theorem sendCmd_eq : sendCmd s iTDI iTMS =
    tickClk ⟨(setTdi s (iTDI = 1)).io,
      (setTdi s (iTDI = 1)).gpio.lgGpioWrite (setTdi s (iTDI = 1)).io.hTms (iTMS = 1)⟩ := by
  unfold sendCmd; split_ifs with ht <;> simp [ht, gpioSetLine, gpioClrLine]

theorem inv_sendCmd (h : Inv s) : Inv (sendCmd s iTDI iTMS) := by
  rw [sendCmd_eq]; exact inv_tickClk (inv_writeTms (inv_setTdi h _) _)

theorem inv_sendCmdNoTmsAlways (h : Inv s) : Inv (sendCmdNoTmsAlways s iTDI) :=
  inv_tickClk (inv_setTdi h _)

theorem inv_sendCmdNoTms (h : Inv s) : Inv (sendCmdNoTms s iTDI) :=
  sendCmdNoTms_eq_always iTDI h ▸ inv_sendCmdNoTmsAlways iTDI h

theorem tickClk_edges (h : Inv s) : (tickClk s).gpio.edges =
    s.gpio.edges ++ if 0 ≤ s.io.hTck then [(s.gpio.tms, s.gpio.tdi)] else [] := by
  rcases lt_or_le s.io.hTck 0 with hk | hk
  · rw [tickClk_of_neg hk, if_neg (by omega), List.append_nil]
  · rw [(h.session hk).tickClk_eq, if_pos hk]

/-- What `send_cmd` does while the lines are held: drive TDI and TMS, then clock them. -/
theorem sendCmd_open (h : Inv s) (hk : 0 ≤ s.io.hTck) :
    sendCmd s iTDI iTMS = ⟨{ s.io with tdiState := if iTDI = 1 then 1 else 0 },
      { s.gpio with
        tms := iTMS = 1, tdi := iTDI = 1
        edges := s.gpio.edges ++ [(decide (iTMS = 1), decide (iTDI = 1))] }⟩ := by
  have hs := h.session hk
  have hm : ({ s.gpio with tdi := decide (iTDI = 1) } : Gpio).line s.io.hTms = some .tms := hs.tms
  rw [sendCmd_eq, ((inv_writeTms (inv_setTdi h _) _).session hk).tickClk_eq, hs.setTdi_eq]
  simp [Gpio.lgGpioWrite_of_line hm, Gpio.setLevel]

/-- The bit `send_cmd_no_tms` clocks while the lines are held, with TMS as it stands. -/
theorem sendCmdNoTms_open (h : Inv s) (hk : 0 ≤ s.io.hTck) :
    sendCmdNoTms s iTDI = ⟨{ s.io with tdiState := if iTDI ≠ 0 then 1 else 0 },
      { s.gpio with
        tdi := iTDI ≠ 0
        edges := s.gpio.edges ++ [(s.gpio.tms, decide (iTDI ≠ 0))] }⟩ := by
  rw [sendCmdNoTms_eq_always iTDI h, sendCmdNoTmsAlways,
    ((inv_setTdi h _).session hk).tickClk_eq, (h.session hk).setTdi_eq]
  simp

theorem sendCmdNoTms_edges (h : Inv s) : (sendCmdNoTms s iTDI).gpio.edges =
    s.gpio.edges ++ if 0 ≤ s.io.hTck then [(s.gpio.tms, decide (iTDI ≠ 0))] else [] := by
  rw [sendCmdNoTms_eq_always iTDI h, sendCmdNoTmsAlways, tickClk_edges (inv_setTdi h _)]
  rcases lt_or_le s.io.hTck 0 with hk | hk
  · simp [setTdi_of_neg (h.closed hk).2.1, not_le.mpr hk]
  · simp [(h.session hk).setTdi_eq, hk]

theorem sendCmd_edges (h : Inv s) : (sendCmd s iTDI iTMS).gpio.edges =
    s.gpio.edges ++ if 0 ≤ s.io.hTck then [(decide (iTMS = 1), decide (iTDI = 1))] else [] := by
  rcases lt_or_le s.io.hTck 0 with hk | hk
  · rw [sendCmd_eq, tickClk_of_neg (s := ⟨(setTdi s _).io, _⟩) hk, if_neg (by omega)]
    simp [setTdi_of_neg (h.closed hk).2.1, Gpio.lgGpioWrite_of_neg (h.closed hk).1]
  · rw [sendCmd_open _ _ h hk, if_pos hk]

end Senders

section Calls

/-- A relation on states before and after a call, closed under sequencing and kept by the senders,
`tick_clk` and `reset_clk`. -/
structure Chain (R : Jtag → Jtag → Prop) (noTms : Jtag → Int → Jtag) : Prop where
  refl : ∀ s, R s s
  trans : ∀ {s t u}, R s t → R t u → R s u
  cmd : ∀ s iTDI iTMS, R s (sendCmd s iTDI iTMS)
  cmdNoTms : ∀ s iTDI, R s (noTms s iTDI)
  tick : ∀ s, R s (tickClk s)
  reset : ∀ s, R s (resetClk s)

/-- The calls that only drive the lines: all but `setup_io` and `close_io`. -/
def Call.Drives : Call → Prop
  | .setupIo _ | .closeIo => False
  | _ => True

section Chain

variable {R : Jtag → Jtag → Prop} {noTms : Jtag → Int → Jtag}

theorem Chain.of_foldl (hR : Chain R noTms) {α : Type} {f : Jtag → α → Jtag}
    (hf : ∀ s a, R s (f s a)) : ∀ (l : List α) (s : Jtag), R s (l.foldl f s)
  | [], s => hR.refl s
  | a :: l, s => hR.trans (hf s a) (hR.of_foldl hf l _)

theorem Chain.of_foldlM (hR : Chain R noTms) {α : Type} {f : Jtag → α → Option Jtag}
    (hf : ∀ s a s', f s a = some s' → R s s') :
    ∀ (l : List α) {s s' : Jtag}, l.foldlM f s = some s' → R s s'
  | [], _, _, he => by cases he; exact hR.refl _
  | a :: l, _, _, he => by
    obtain ⟨t, ht, he⟩ := Option.bind_eq_some.mp he
    exact hR.trans (hf _ a _ ht) (hR.of_foldlM hf l he)

theorem Chain.of_sendCmdBit (hR : Chain R noTms) {s s' : Jtag} {cmd : BitVec 32} {b : Nat}
    {last : Bool} (he : sendCmdBit s cmd b last = some s') : R s s' := by
  unfold sendCmdBit at he
  split at he
  · cases he
  · cases he; exact hR.cmd _ _ _

theorem Chain.of_readBits (hR : Chain R noTms) :
    ∀ (i : Nat) {data : List (BitVec 8)} {s : Jtag} {r}, readBits i data s = some r → R s r.2
  | 0, _, _, _, he => by cases he; exact hR.refl _
  | i + 1, _, _, _, he => by
    simp only [readBits, Option.bind_eq_some] at he
    obtain ⟨_, -, he⟩ := he
    exact hR.trans (hR.cmd _ 0 0) (hR.of_readBits i he)

theorem Chain.of_jtagReadData (hR : Chain R noTms) {s : Jtag} {data : List (BitVec 8)}
    {iSize : Int} {r} (he : jtagReadData s data iSize = some r) : R s r.2 := by
  unfold jtagReadData at he
  dsimp only at he
  split_ifs at he
  · cases he; exact hR.refl _
  · obtain ⟨⟨d, t⟩, ht, he⟩ := Option.bind_eq_some.mp he
    obtain ⟨_, -, rfl⟩ := Option.map_eq_some'.mp he
    exact hR.trans (hR.of_readBits _ ht) (hR.cmd _ 0 1)

theorem Chain.of_call (hR : Chain R noTms) {s : Jtag} {c : Call} {r : Reply × Jtag}
    (hc : c.Drives) (he : call noTms c s = some r) : R s r.2 := by
  cases c with
  | setupIo | closeIo => exact hc.elim
  | tickClk => cases he; exact hR.tick s
  | resetClk => cases he; exact hR.reset s
  | readJtagTdo => cases he; exact hR.refl s
  | sendCmdNoTms i => cases he; exact hR.cmdNoTms s i
  | sendCmd i t => cases he; exact hR.cmd s i t
  | sendCmdWordMsbFirst cmd lastBit n =>
    obtain ⟨t, ht, rfl⟩ := Option.map_eq_some'.mp he
    unfold sendCmdWordMsbFirst at ht
    split_ifs at ht
    exact hR.of_foldlM (fun _ _ _ he => hR.of_sendCmdBit he) _ ht
  | sendCmdWordMsbLast cmd lastBit n =>
    obtain ⟨t, ht, rfl⟩ := Option.map_eq_some'.mp he
    exact hR.of_foldlM (fun _ _ _ he => hR.of_sendCmdBit he) _ ht
  | sendByte byte lastbyte => cases he; exact hR.of_foldl (fun s _ => hR.cmd s _ _) _ s
  | sendByteNoTms byte => cases he; exact hR.of_foldl (fun s _ => hR.cmdNoTms s _) _ s
  | jtagReadData data iSize =>
    obtain ⟨t, ht, rfl⟩ := Option.map_eq_some'.mp he
    exact hR.of_jtagReadData ht

end Chain

theorem foldl_congr_inv {α : Type} {f f' : Jtag → α → Jtag} (hf : ∀ s a, Inv s → Inv (f s a))
    (he : ∀ s a, Inv s → f s a = f' s a) : ∀ (l : List α) {s}, Inv s → l.foldl f s = l.foldl f' s
  | [], _, _ => rfl
  | a :: l, _, h => by
    rw [List.foldl_cons, List.foldl_cons, ← he _ a h]
    exact foldl_congr_inv hf he l (hf _ a h)

theorem inv_chip (h : Inv s) (c : Int) : Inv ⟨{ s.io with chip := c }, s.gpio⟩ :=
  ⟨h.fresh, fun hk => let hs := h.session hk; ⟨hs.tck, hs.tms, hs.tdi, hs.tdo, hs.low, hs.cached⟩,
    h.closed⟩

theorem inv_setupIoFail {t : Jtag} (hf : t.gpio.Fresh) : Inv (setupIoFail t).2 :=
  inv_of_closed hf.freeIfHeld.freeIfHeld.freeIfHeld.freeIfHeld (by simp [setupIoFail])
    (by simp [setupIoFail]) (by simp [setupIoFail]) (by simp [setupIoFail])

/-- Whether lgpio grants the chip and all four claims of a `setup_io`. -/
def Grants.all (a : Grants) : Bool := a.chip && a.tck && a.tms && a.tdi && a.tdo

/-- The driver's four line handles. -/
def Globals.handles (io : Globals) : List Int := [io.hTck, io.hTms, io.hTdi, io.hTdo]

/-- `t` is `s` after `setup_io` opened the chip and made some claims, each on a fresh handle the
driver records. -/
structure Claimed (s t : Jtag) : Prop where
  edges : t.gpio.edges = s.gpio.edges
  device : t.gpio.device = s.gpio.device
  next : s.gpio.next ≤ t.gpio.next
  outside : ∀ n, n < s.gpio.next ∨ t.gpio.next ≤ n → t.gpio.owner n = s.gpio.owner n
  recorded : ∀ n, t.gpio.owner n ≠ s.gpio.owner n → (n : Int) ∈ t.io.handles
  handles : ∀ x y, (x, y) ∈ t.io.handles.zip s.io.handles →
    x = y ∨ x < 0 ∨ (s.gpio.next : Int) ≤ x
  tck : t.io.hTck < 0 ∨ (s.gpio.next : Int) ≤ t.io.hTck

theorem Claimed.fresh {t : Jtag} (hc : Claimed s t) (hf : s.gpio.Fresh) : t.gpio.Fresh :=
  fun n hn => (hc.outside n (.inr hn)).trans (hf n (Nat.le_trans hc.next hn))

theorem Session.hTck_nonneg (hs : Session s) : 0 ≤ s.io.hTck := by
  by_contra hk
  have h := hs.tck
  rw [Gpio.line_of_neg (by omega)] at h
  cases h

/-- What `setup_io` does, by the first refusal: a refused chip changes nothing, a refused claim
takes `fail:`, else a session opens. -/
theorem setupIo_outcome (s : Jtag) (a : Grants) :
    (a.chip = false ∧ setupIo s a = (-1, ⟨{ s.io with chip := -1 }, s.gpio⟩)) ∨
    (a.chip = true ∧ a.all = false ∧ ∃ t, Claimed s t ∧ setupIo s a = setupIoFail t) ∨
    (a.all = true ∧ (setupIo s a).1 = 0 ∧ Claimed s (setupIo s a).2 ∧ Session (setupIo s a).2 ∧
      (setupIo s a).2.gpio.tms = false ∧ (setupIo s a).2.gpio.tdi = false ∧
      (setupIo s a).2.io.tdiState = -1) := by
  obtain ⟨c, k, m, d, o⟩ := a
  cases c
  · exact .inl ⟨rfl, by simp [setupIo, Gpio.lgGpiochipOpen]⟩
  cases k <;> [skip; cases m] <;> [skip; skip; cases d] <;> [skip; skip; skip; cases o] <;>
    simp only [setupIo, Gpio.lgGpiochipOpen, Gpio.lgGpioClaimOutput,
      Gpio.lgGpioClaimInput, if_true, if_false, Bool.false_eq_true, Int.not_ofNat_neg,
      show (-1 : Int) < 0 by decide]
  all_goals first
    | refine .inr (.inl ⟨trivial, rfl, _, ⟨?_, ?_, ?_, fun n hn => ?_, fun n hn => ?_,
        fun x y hxy => ?_, ?_⟩, rfl⟩)
    | refine .inr (.inr ⟨rfl, by trivial, ⟨?_, ?_, ?_, fun n hn => ?_, fun n hn => ?_,
        fun x y hxy => ?_, ?_⟩, ⟨?_, ?_, ?_, ?_, by trivial, .inl (by trivial)⟩, by trivial,
        by trivial, by trivial⟩)
  -- each claim takes the next handle and leaves the lines other handles own alone
  all_goals first
    | exact absurd rfl hn
    | exact .inl (by decide)
    | exact .inr (Int.ofNat_le.mpr (Nat.le_succ _))
    | (simp only [Gpio.grant, Gpio.setLevel_next]; omega)
    | (simp only [Globals.handles, Gpio.grant, Gpio.setLevel_next, List.zip_cons_cons,
        List.zip_nil_right, List.mem_cons, Prod.mk.injEq, List.not_mem_nil, or_false] at hxy
       rcases hxy with ⟨rfl, rfl⟩ | ⟨rfl, rfl⟩ | ⟨rfl, rfl⟩ | ⟨rfl, rfl⟩ <;> omega)
    | (simp only [Gpio.grant, Gpio.setLevel_next, Gpio.setLevel_owner] at hn ⊢
       simp (disch := omega) only [Function.update_noteq])
    | (simp only [Gpio.grant, Gpio.setLevel_owner, Function.update_apply] at hn
       split_ifs at hn <;> simp_all [Globals.handles, Gpio.grant])
    | rfl
    | (simp [Gpio.grant, Gpio.setLevel]; done)
    | simp (disch := omega) only [Gpio.line_natCast, Gpio.grant, Gpio.setLevel,
        Function.update_same, Function.update_noteq]

/-- `setup_io` fails and keeps the invariant, or opens a session with TDI low and `tdi_state` unset. -/
theorem setupIo_spec (h : Inv s) (a : Grants) :
    (setupIo s a).1 = -1 ∧ Inv (setupIo s a).2 ∨
    (setupIo s a).1 = 0 ∧ Inv (setupIo s a).2 ∧ 0 ≤ (setupIo s a).2.io.hTck ∧
      (setupIo s a).2.gpio.tdi = false ∧ (setupIo s a).2.io.tdiState = -1 := by
  rcases setupIo_outcome s a with ⟨-, he⟩ | ⟨-, -, t, ht, he⟩ | ⟨-, h0, ht, hs, -, htdi, hst⟩
  · rw [he]
    exact .inl ⟨rfl, inv_chip h (-1)⟩
  · rw [he]
    exact .inl ⟨rfl, inv_setupIoFail (ht.fresh h.fresh)⟩
  · exact .inr ⟨h0, ⟨ht.fresh h.fresh, fun _ => hs, fun hk => absurd hs.hTck_nonneg (by omega)⟩,
      hs.hTck_nonneg, htdi, hst⟩

theorem inv_setupIo (h : Inv s) (a : Grants) : Inv (setupIo s a).2 :=
  (setupIo_spec h a).elim (·.2) (·.2.1)

theorem freed_neg (x : Int) : (if 0 ≤ x then -1 else x) < 0 := by split_ifs <;> omega

theorem inv_closeIo (h : Inv s) : Inv (closeIo s) :=
  inv_of_closed h.fresh.freeIfHeld.freeIfHeld.freeIfHeld.freeIfHeld (freed_neg _) (freed_neg _)
    (freed_neg _) (freed_neg _)

theorem inv_resetClk (h : Inv s) : Inv (resetClk s) :=
  h.of_levels (by simp [resetClk, gpioClrLine]) (by simp [resetClk, gpioClrLine]) fun hk => by
    simp only [resetClk, gpioClrLine, Gpio.lgGpioWrite_of_line (h.session hk).tck]
    exact ⟨rfl, (h.session hk).cached⟩

theorem invChain {noTms : Jtag → Int → Jtag} (hn : ∀ s i, Inv s → Inv (noTms s i)) :
    Chain (fun s s' => Inv s → Inv s') noTms where
  refl _ h := h
  trans h₁ h₂ h := h₂ (h₁ h)
  cmd _ _ _ h := inv_sendCmd _ _ h
  cmdNoTms _ _ h := hn _ _ h
  tick _ h := inv_tickClk h
  reset _ h := inv_resetClk h

theorem inv_call {noTms : Jtag → Int → Jtag} (hn : ∀ s i, Inv s → Inv (noTms s i)) {c : Call}
    {r : Reply × Jtag} (h : Inv s) (he : call noTms c s = some r) : Inv r.2 := by
  cases c with
  | setupIo a => cases he; exact inv_setupIo h a
  | closeIo => cases he; exact inv_closeIo h
  | _ => exact (invChain hn).of_call (by trivial) he h

theorem exec_eq_execAlways (h : Inv s) (c : Call) : exec c s = execAlways c s := by
  cases c with
  | sendCmdNoTms iTDI => simp only [exec, execAlways, call, sendCmdNoTms_eq_always _ h]
  | sendByteNoTms byte =>
    simp only [exec, execAlways, call, sendByteNoTmsVia,
      foldl_congr_inv (fun _ _ h => inv_sendCmdNoTms _ h) (fun _ _ h => sendCmdNoTms_eq_always _ h)
        _ h]
  | _ => rfl

theorem run_exec_eq : ∀ (cs : List Call) {s : Jtag}, Inv s → run exec cs s = run execAlways cs s
  | [], _, _ => rfl
  | c :: cs, s, h => by
    rw [run, run, ← exec_eq_execAlways h c]
    cases he : exec c s with
    | none => rfl
    | some r =>
      rw [Option.some_bind, Option.some_bind,
        run_exec_eq cs (inv_call (fun _ _ h => inv_sendCmdNoTms _ h) h he)]

theorem inv_run : ∀ {cs : List Call} {s : Jtag} {r}, Inv s → run exec cs s = some r → Inv r.2
  | [], _, _, h, he => by cases he; exact h
  | c :: cs, s, _, h, he => by
    obtain ⟨⟨r, t⟩, ht, he⟩ := Option.bind_eq_some.mp he
    obtain ⟨_, hu, rfl⟩ := Option.map_eq_some'.mp he
    exact (inv_run (inv_call (fun _ _ h => inv_sendCmdNoTms _ h) h ht) hu :)

end Calls

/-- The cache is faithful: the driver that skips TDI writes runs as one that writes TDI every call,
and keeps the invariant. -/
structure TdiFaithful (g : Gpio) : Prop where
  sameRun : ∀ cs, run exec cs ⟨Globals.init, g⟩ = run execAlways cs ⟨Globals.init, g⟩
  reachable : ∀ cs r, run exec cs ⟨Globals.init, g⟩ = some r → Inv r.2
  clocks : ∀ s, Inv s → ∀ iTDI iTMS,
    (sendCmdNoTms s iTDI).gpio.edges =
      s.gpio.edges ++ (if 0 ≤ s.io.hTck then [(s.gpio.tms, decide (iTDI ≠ 0))] else []) ∧
    (sendCmd s iTDI iTMS).gpio.edges =
      s.gpio.edges ++ (if 0 ≤ s.io.hTck then [(decide (iTMS = 1), decide (iTDI = 1))] else []) ∧
    Inv (sendCmdNoTms s iTDI) ∧ Inv (sendCmd s iTDI iTMS)
  opens : ∀ s a, Inv s → (setupIo s a).1 = 0 →
    0 ≤ (setupIo s a).2.io.hTck ∧ (setupIo s a).2.gpio.tdi = false
  closes : ∀ s, (closeIo s).io.hTck < 0

theorem tdiFaithful {g : Gpio} (hg : g.Fresh) : TdiFaithful g where
  sameRun cs := run_exec_eq cs (inv_init hg)
  reachable _ _ he := inv_run (inv_init hg) he
  clocks _ h iTDI iTMS := ⟨sendCmdNoTms_edges iTDI h, sendCmd_edges iTDI iTMS h,
    inv_sendCmdNoTms iTDI h, inv_sendCmd iTDI iTMS h⟩
  opens s a h h0 := (setupIo_spec h a).elim (fun h1 => absurd (h1.1.symm.trans h0) (by decide))
    fun h1 => ⟨h1.2.2.1, h1.2.2.2.1⟩
  closes _ := freed_neg _

theorem tdiFaithful_idle : Gpio.idle.Fresh ∧ TdiFaithful Gpio.idle :=
  ⟨fun _ _ => rfl, tdiFaithful fun _ _ => rfl⟩

end Rpjtag
