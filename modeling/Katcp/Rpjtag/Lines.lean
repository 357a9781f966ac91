import Katcp.Rpjtag.Tdi

/-! Which lines lgpio holds for the driver, over whole runs. -/
namespace Rpjtag

/-- Every handle lgpio holds live is one the driver holds. -/
def Accounted (s : Jtag) : Prop := ∀ n : Nat, s.gpio.owner n ≠ none → (n : Int) ∈ s.io.handles

/-- A step that keeps the driver's handles and lgpio's live handles. -/
def Keeps (s s' : Jtag) : Prop := s'.io.handles = s.io.handles ∧ s'.gpio.owner = s.gpio.owner

/-- lgpio holds the line `p` through the handle `n`, which the driver does not hold. -/
def Leaked (n : Nat) (p : Pin) (s : Jtag) : Prop :=
  s.gpio.owner n = some p ∧ (n : Int) ∉ s.io.handles

variable {s : Jtag} {g : Gpio} {h : Int} {n : Nat}

theorem Accounted.of_keeps {t : Jtag} (ha : Accounted s) (hk : Keeps s t) : Accounted t :=
  fun n hn => hk.1 ▸ ha n (hk.2 ▸ hn)

@[simp] theorem tickClk_owner : (tickClk s).gpio.owner = s.gpio.owner := by
  simp [tickClk, gpioSetLine, gpioClrLine]

@[simp] theorem setTdi_owner (v : Bool) : (setTdi s v).gpio.owner = s.gpio.owner := by
  simp [setTdi]

theorem keepsChain : Chain Keeps sendCmdNoTms where
  refl _ := ⟨rfl, rfl⟩
  trans h₁ h₂ := ⟨h₂.1.trans h₁.1, h₂.2.trans h₁.2⟩
  cmd _ _ _ := by rw [sendCmd_eq]; exact ⟨rfl, by simp⟩
  cmdNoTms _ _ := by unfold sendCmdNoTms; split_ifs <;> exact ⟨rfl, by simp⟩
  tick _ := ⟨rfl, by simp⟩
  reset _ := ⟨rfl, by simp [resetClk, gpioClrLine]⟩

theorem freeIfHeld_owner_of_none (hn : g.owner n = none) : (freeIfHeld h g).owner n = none := by
  unfold freeIfHeld Gpio.lgGpioFreeLine
  split_ifs
  · split
    · simp [Function.update_apply, hn]
    · exact hn
  · exact hn

theorem freeIfHeld_owner_self (e : (n : Int) = h) : (freeIfHeld h g).owner n = none := by
  subst e
  unfold freeIfHeld Gpio.lgGpioFreeLine
  rw [if_pos (Int.ofNat_nonneg n)]
  split
  · simp
  · rwa [← Gpio.line_natCast]

theorem freeIfHeld_owner_of_ne (hne : h ≠ n) : (freeIfHeld h g).owner n = g.owner n := by
  unfold freeIfHeld Gpio.lgGpioFreeLine
  split_ifs
  · split
    · exact Function.update_noteq (by omega) _ _
    · rfl
  · rfl

theorem freeHandles_owner_of_not_mem {io : Globals} (hn : (n : Int) ∉ io.handles) :
    (freeIfHeld io.hTdo <| freeIfHeld io.hTdi <| freeIfHeld io.hTms <|
      freeIfHeld io.hTck g).owner n = g.owner n := by
  simp only [Globals.handles, List.mem_cons, List.not_mem_nil, or_false, not_or] at hn
  rw [freeIfHeld_owner_of_ne (Ne.symm hn.2.2.2), freeIfHeld_owner_of_ne (Ne.symm hn.2.2.1),
    freeIfHeld_owner_of_ne (Ne.symm hn.2.1), freeIfHeld_owner_of_ne (Ne.symm hn.1)]

/-- After `close_io`, or the `fail:` path of `setup_io`, no line the driver held is live. -/
theorem closeIo_owner (ha : Accounted s) (n : Nat) : (closeIo s).gpio.owner n = none := by
  have of_none := @freeIfHeld_owner_of_none
  by_cases hn : s.gpio.owner n = none
  · exact of_none (of_none (of_none (of_none hn)))
  · have hm := ha n hn
    simp only [Globals.handles, List.mem_cons, List.mem_singleton, List.not_mem_nil,
      or_false] at hm
    rcases hm with e | e | e | e
    · exact of_none (of_none (of_none (freeIfHeld_owner_self e)))
    · exact of_none (of_none (freeIfHeld_owner_self e))
    · exact of_none (freeIfHeld_owner_self e)
    · exact freeIfHeld_owner_self e

theorem accounted_setupIoFail {t : Jtag} (ha : Accounted t) : Accounted (setupIoFail t).2 :=
  fun n hn => absurd (closeIo_owner ha n) hn

theorem Accounted.owner_none (ha : Accounted s) (h : Inv s) (hk : s.io.hTck < 0) (n : Nat) :
    s.gpio.owner n = none := by
  have hc := h.closed hk
  by_contra hn
  have hm := ha n hn
  simp only [Globals.handles, List.mem_cons, List.mem_singleton, List.not_mem_nil,
    or_false] at hm
  omega

theorem accounted_setupIo (h : Inv s) (hk : s.io.hTck < 0) (ha : Accounted s) (a : Grants) :
    Accounted (setupIo s a).2 := by
  have hrec : ∀ {t}, Claimed s t → Accounted t := fun ht n hn =>
    ht.recorded n (by rwa [ha.owner_none h hk n])
  rcases setupIo_outcome s a with ⟨-, he⟩ | ⟨-, -, t, ht, he⟩ | ⟨-, -, ht, -⟩
  · rw [he]; exact ha
  · rw [he]; exact accounted_setupIoFail (hrec ht)
  · exact hrec ht

theorem setupIo_fail_frees (h : Inv s) (hk : s.io.hTck < 0) (ha : Accounted s) {a : Grants}
    (hf : (setupIo s a).1 = -1) (n : Nat) : (setupIo s a).2.gpio.owner n = none := by
  rcases setupIo_outcome s a with ⟨-, he⟩ | ⟨-, -, t, ht, he⟩ | ⟨-, h0, -⟩
  · rw [he]; exact ha.owner_none h hk n
  · rw [he]; exact closeIo_owner (fun m hm => ht.recorded m (by rwa [ha.owner_none h hk m])) n
  · omega

/-- Every `setup_io` of `cs`, run from `s`, comes while the driver holds no line. -/
def SetupWhenClosed (cs : List Call) (s : Jtag) : Prop :=
  ∀ pre a post r, cs = pre ++ .setupIo a :: post → run exec pre s = some r → r.2.io.hTck < 0

theorem accounted_run :
    ∀ (cs : List Call) {s : Jtag} {r}, Inv s → Accounted s → SetupWhenClosed cs s →
      run exec cs s = some r → Accounted r.2
  | [], _, _, _, ha, _, he => by cases he; exact ha
  | c :: cs, s, _, h, ha, hw, he => by
    obtain ⟨⟨rp, t⟩, ht, he⟩ := Option.bind_eq_some.mp he
    obtain ⟨u, hu, rfl⟩ := Option.map_eq_some'.mp he
    have hat : Accounted t := by
      cases c with
      | setupIo a => cases ht; exact accounted_setupIo h (hw [] a cs ([], s) rfl rfl) ha a
      | closeIo => cases ht; exact fun n hn => absurd (closeIo_owner ha n) hn
      | _ => exact ha.of_keeps (keepsChain.of_call (by trivial) ht)
    exact (accounted_run cs (inv_call (fun _ _ h => inv_sendCmdNoTms _ h) h ht) hat
      (fun pre a post r hcs hr => hw (c :: pre) a post (rp :: r.1, r.2) (by rw [hcs]; rfl)
        (by simp [run, ht, hr])) hu :)

theorem Claimed.not_mem {t : Jtag} (hc : Claimed s t) (hlt : n < s.gpio.next)
    (hn : (n : Int) ∉ [s.io.hTms, s.io.hTdi, s.io.hTdo]) : (n : Int) ∉ t.io.handles := by
  -- each of the driver's handles is an old one, a refused claim or a fresh handle
  have fresh : ∀ x, x < 0 ∨ (s.gpio.next : Int) ≤ x → (n : Int) ≠ x := by omega
  have old : ∀ x y, x = y ∨ x < 0 ∨ (s.gpio.next : Int) ≤ x → (n : Int) ≠ y → (n : Int) ≠ x :=
    fun x y h hy => h.elim (· ▸ hy) (fresh x)
  simp only [Globals.handles, List.mem_cons, List.not_mem_nil, or_false, not_or] at hn ⊢
  exact ⟨fresh _ hc.tck, old _ _ (hc.handles _ _ (by simp [Globals.handles])) hn.1,
    old _ _ (hc.handles _ _ (by simp [Globals.handles])) hn.2.1,
    old _ _ (hc.handles _ _ (by simp [Globals.handles])) hn.2.2⟩

/-- `setup_io` keeps a line held through an old handle that is none of the driver's TMS, TDI and TDO
handles. -/
theorem setupIo_leaked (h : Inv s) {p : Pin} (ho : s.gpio.owner n = some p)
    (hn : (n : Int) ∉ [s.io.hTms, s.io.hTdi, s.io.hTdo]) (a : Grants)
    (hc : a.chip = true ∨ (n : Int) ≠ s.io.hTck) : Leaked n p (setupIo s a).2 := by
  have hlt : n < s.gpio.next := by
    by_contra hge
    rw [h.fresh n (by omega)] at ho
    cases ho
  rcases setupIo_outcome s a with ⟨hc', he⟩ | ⟨-, -, t, ht, he⟩ | ⟨-, -, ht, -⟩
  · rw [he]
    refine ⟨ho, ?_⟩
    simp only [Globals.handles, List.mem_cons, List.not_mem_nil, or_false] at hn ⊢
    rw [hc'] at hc
    simp at hc
    omega
  · rw [he]
    refine ⟨?_, by simp [setupIoFail, Globals.handles]⟩
    rw [setupIoFail, freeHandles_owner_of_not_mem (ht.not_mem hlt hn), ht.outside n (.inl hlt)]
    exact ho
  · exact ⟨(ht.outside n (.inl hlt)).trans ho, ht.not_mem hlt hn⟩

/-- No call frees a line held through a handle the driver does not hold, or takes the handle back. -/
theorem exec_leaked (h : Inv s) {p : Pin} (hl : Leaked n p s) {c : Call} {r : Reply × Jtag}
    (he : exec c s = some r) : Leaked n p r.2 := by
  cases c with
  | setupIo a =>
    cases he
    exact setupIo_leaked h hl.1 (fun hm => hl.2 (List.mem_cons_of_mem _ hm)) a
      (.inr fun e => hl.2 (e ▸ List.mem_cons_self _ _))
  | closeIo =>
    cases he
    refine ⟨(freeHandles_owner_of_not_mem hl.2).trans hl.1, ?_⟩
    simp only [closeIo, Globals.handles, List.mem_cons, List.not_mem_nil, or_false]
    have := freed_neg s.io.hTck
    have := freed_neg s.io.hTms
    have := freed_neg s.io.hTdi
    have := freed_neg s.io.hTdo
    omega
  | _ =>
    have hk := keepsChain.of_call (by trivial) he
    exact ⟨hk.2 ▸ hl.1, hk.1 ▸ hl.2⟩

theorem run_leaked {p : Pin} :
    ∀ {cs : List Call} {s : Jtag} {r}, Inv s → Leaked n p s → run exec cs s = some r →
      Leaked n p r.2
  | [], _, _, _, hl, he => by cases he; exact hl
  | c :: cs, s, _, h, hl, he => by
    obtain ⟨⟨rp, t⟩, ht, he⟩ := Option.bind_eq_some.mp he
    obtain ⟨u, hu, rfl⟩ := Option.map_eq_some'.mp he
    exact (run_leaked (inv_call (fun _ _ h => inv_sendCmdNoTms _ h) h ht)
      (exec_leaked h hl ht) hu :)

/-- lgpio holds lines only for the driver over runs that set up only while closed; `setup_io` in an
open session leaks TCK. -/
theorem run_lines_accounted :
    (∀ g cs r, (∀ n, g.owner n = none) → SetupWhenClosed cs ⟨Globals.init, g⟩ →
      run exec cs ⟨Globals.init, g⟩ = some r →
        Accounted r.2 ∧ ∀ n, (closeIo r.2).gpio.owner n = none) ∧
    (∀ s c r, c.Drives → exec c s = some r → Keeps s r.2) ∧
    (∀ s a, Inv s → s.io.hTck < 0 → Accounted s → (setupIo s a).1 = -1 →
      ∀ n, (setupIo s a).2.gpio.owner n = none) ∧
    (∀ s a (n : Nat), Inv s → s.io.hTck = n → a.chip = true →
      ∀ cs r, run exec cs (setupIo s a).2 = some r → Leaked n .tck r.2) := by
  refine ⟨fun g cs r hg hw he => ?_, fun _ _ _ hc he => keepsChain.of_call hc he,
    fun _ _ h hk ha hf => setupIo_fail_frees h hk ha hf, fun s a n h hn hc cs r he => ?_⟩
  · have ha := accounted_run cs (inv_init fun n _ => hg n) (fun n hn => absurd (hg n) hn) hw he
    exact ⟨ha, closeIo_owner ha⟩
  · have hs := h.session (by omega)
    have ho : s.gpio.owner n = some .tck := by rw [← Gpio.line_natCast, ← hn]; exact hs.tck
    have hne : ∀ {x : Int} {p : Pin}, s.gpio.line x = some p → p ≠ .tck → x ≠ n := by
      rintro x p hl hp rfl
      rw [Gpio.line_natCast, ho] at hl
      exact hp (Option.some.inj hl).symm
    have htail : (n : Int) ∉ [s.io.hTms, s.io.hTdi, s.io.hTdo] := by
      simp only [List.mem_cons, List.not_mem_nil, or_false, not_or]
      exact ⟨(hne hs.tms (by decide)).symm, (hne hs.tdi (by decide)).symm,
        (hne hs.tdo (by decide)).symm⟩
    exact run_leaked (inv_setupIo h a) (setupIo_leaked h ho htail a (.inl hc)) he

theorem run_lines_accounted_session :
    ∃ r, run exec [.setupIo ⟨true, true, true, true, true⟩, .sendByte 0xA5 1, .closeIo,
        .setupIo ⟨true, true, false, true, true⟩] ⟨Globals.init, .idle⟩ = some r ∧
      Accounted r.2 ∧ ∀ n, (closeIo r.2).gpio.owner n = none := by
  have hw : SetupWhenClosed [.setupIo ⟨true, true, true, true, true⟩, .sendByte 0xA5 1, .closeIo,
      .setupIo ⟨true, true, false, true, true⟩] ⟨Globals.init, .idle⟩ := by
    intro pre a post r hcs hr
    rcases pre with _ | ⟨x, _ | ⟨y, _ | ⟨z, _ | ⟨w, pre⟩⟩⟩⟩
    · cases hr; decide
    · simp at hcs
    · simp at hcs
    · simp only [List.cons_append, List.nil_append, List.cons.injEq] at hcs
      obtain ⟨rfl, rfl, rfl, -⟩ := hcs
      cases hr; decide
    · simp at hcs
  obtain ⟨r, hr⟩ : ∃ r, run exec [.setupIo ⟨true, true, true, true, true⟩, .sendByte 0xA5 1,
      .closeIo, .setupIo ⟨true, true, false, true, true⟩] ⟨Globals.init, .idle⟩ = some r :=
    ⟨_, rfl⟩
  exact ⟨r, hr, run_lines_accounted.1 .idle _ r (fun _ => rfl) hw hr⟩

end Rpjtag
