import Katcp.Rpjtag.Wave

/-! The driver across sessions, as the device sees it. -/
namespace Rpjtag

/-- What a call leaves of the session as the device sees it: whether one is open, and where TMS and
TDI stand. -/
def Call.next : Call → Bool × (Bool × Bool) → Bool × (Bool × Bool)
  | .setupIo a, _ => (a.all, (false, false))
  | .closeIo, q => (false, q.2)
  | c, q => (q.1, lastLevels q.2 (c.wave q.2))

/-- What the device sees of a run from the session view `q`: the waveform of each call made in a
session. -/
def sessionWave : Bool × (Bool × Bool) → List Call → List (Bool × Bool)
  | _, [] => []
  | q, c :: cs => (if q.1 then c.wave q.2 else []) ++ sessionWave (c.next q) cs

def sessionAfter (q : Bool × (Bool × Bool)) (cs : List Call) : Bool × (Bool × Bool) :=
  cs.foldl (fun q c => c.next q) q

/-- `q` is what the device sees of `s`: a session is open exactly when the driver holds TCK, TMS and
TDI at `q.2`. -/
structure Observed (q : Bool × (Bool × Bool)) (s : Jtag) : Prop where
  inv : Inv s
  open_iff : q.1 = true ↔ 0 ≤ s.io.hTck
  levels : q.1 = true → q.2 = (s.gpio.tms, s.gpio.tdi)

variable {s : Jtag} {g : Gpio} {h : Int} {p : Pin} {v : Bool}

@[simp] theorem freeIfHeld_edges : (freeIfHeld h g).edges = g.edges := by
  unfold freeIfHeld Gpio.lgGpioFreeLine
  split_ifs <;> [split <;> rfl; rfl]

@[simp] theorem freeIfHeld_device : (freeIfHeld h g).device = g.device := by
  unfold freeIfHeld Gpio.lgGpioFreeLine
  split_ifs <;> [split <;> rfl; rfl]

/-- `setup_io` from a closed driver clocks nothing and opens a session, TMS and TDI low, only when
granted in full. -/
theorem setupIo_device (hk : s.io.hTck < 0) (a : Grants) :
    (setupIo s a).2.gpio.edges = s.gpio.edges ∧ (setupIo s a).2.gpio.device = s.gpio.device ∧
      (a.all = true ↔ 0 ≤ (setupIo s a).2.io.hTck) ∧
      (a.all = true → (setupIo s a).2.gpio.tms = false ∧ (setupIo s a).2.gpio.tdi = false) := by
  rcases setupIo_outcome s a with
    ⟨hc, he⟩ | ⟨-, hall, t, ht, he⟩ | ⟨hall, -, ht, hs, htms, htdi, -⟩
  · rw [he]
    simp [Grants.all, hc, hk]
  · rw [he]
    simp [setupIoFail, ht.edges, ht.device, hall]
  · exact ⟨ht.edges, ht.device, ⟨fun _ => hs.hTck_nonneg, fun _ => hall⟩, fun _ => ⟨htms, htdi⟩⟩

theorem closeIo_device : (closeIo s).gpio.edges = s.gpio.edges ∧
    (closeIo s).gpio.device = s.gpio.device ∧ (closeIo s).io.hTck < 0 :=
  ⟨by simp [closeIo], by simp [closeIo], freed_neg _⟩

/-- Inside a session the device sees a call's waveform, outside it nothing; `read_jtag_tdo` answers
what it presents. -/
theorem exec_session_drives {c : Call} {r : Reply × Jtag} {q : Bool × (Bool × Bool)}
    (hc : c.Drives) (ho : Observed q s) (he : exec c s = some r) :
    Observed (c.next q) r.2 ∧ r.2.gpio.edges = s.gpio.edges ++ (if q.1 then c.wave q.2 else []) ∧
      r.2.gpio.device = s.gpio.device ∧
      (c = .readJtagTdo → r.1 = .int (if q.1 then
        (if s.gpio.device s.gpio.edges.length then 1 else 0) else 1)) := by
  have hn : c.next q = (q.1, lastLevels q.2 (c.wave q.2)) := by
    cases c <;> first | rfl | exact hc.elim
  have hi := inv_call (fun _ _ h => inv_sendCmdNoTms _ h) ho.inv he
  rw [hn]
  rcases q with ⟨_ | _, l⟩
  · have hk : s.io.hTck < 0 := not_le.mp fun hk => by simpa using ho.open_iff.mpr hk
    have hq := quietChain.of_call hc he
    have hcl := ho.inv.closed hk
    have ekt : r.2.io.hTck = s.io.hTck := by
      simpa [Globals.handles] using congrArg List.head? hq.handles
    refine ⟨⟨hi, by simp [ekt, hk], fun h => by cases h⟩, ?_, ?_, fun hr => ?_⟩
    · simp [hq.gpio hk hcl.1 hcl.2.1]
    · rw [hq.gpio hk hcl.1 hcl.2.1]
    · subst hr; cases he
      simp [readJtagTdo_of_neg hcl.2.2]
  · have hk : 0 ≤ s.io.hTck := ho.open_iff.mp rfl
    obtain rfl : l = (s.gpio.tms, s.gpio.tdi) := ho.levels rfl
    have hw := exec_wired hc ho.inv hk he
    refine ⟨⟨hi, by simp [hw.hTck, hk], fun _ => hw.levels.symm⟩, hw.edges, hw.device,
      fun hr => ?_⟩
    subst hr; cases he
    simp [(ho.inv.session hk).readJtagTdo_eq]

theorem exec_session {c : Call} {r : Reply × Jtag} {q : Bool × (Bool × Bool)} (ho : Observed q s)
    (hw : ∀ a, c = .setupIo a → s.io.hTck < 0) (he : exec c s = some r) :
    Observed (c.next q) r.2 ∧ r.2.gpio.edges = s.gpio.edges ++ (if q.1 then c.wave q.2 else []) ∧
      r.2.gpio.device = s.gpio.device ∧
      (c = .readJtagTdo → r.1 = .int (if q.1 then
        (if s.gpio.device s.gpio.edges.length then 1 else 0) else 1)) := by
  cases c with
  | setupIo a =>
    cases he
    obtain ⟨hE, hD, hopen, hlev⟩ := setupIo_device (hw a rfl) a
    refine ⟨⟨inv_setupIo ho.inv a, hopen, fun ha => ?_⟩, by simp [hE, Call.wave], hD,
      fun h => by cases h⟩
    rw [(hlev ha).1, (hlev ha).2]
    rfl
  | closeIo =>
    cases he
    obtain ⟨hE, hD, hk⟩ := closeIo_device (s := s)
    exact ⟨⟨inv_closeIo ho.inv, by simp [Call.next, hk], fun h => by cases h⟩,
      by simp [hE, Call.wave], hD, fun h => by cases h⟩
  | _ => exact exec_session_drives (by trivial) ho he

/-- Over a run that sets up only while closed, the session view follows the state and the device
sees `sessionWave`. -/
theorem run_session : ∀ {cs : List Call} {s : Jtag} {r : List Reply × Jtag}
    {q : Bool × (Bool × Bool)}, Observed q s → SetupWhenClosed cs s → run exec cs s = some r →
      Observed (sessionAfter q cs) r.2 ∧ r.2.gpio.edges = s.gpio.edges ++ sessionWave q cs ∧
      r.2.gpio.device = s.gpio.device ∧
      ∀ i : Nat, cs[i]? = some .readJtagTdo → r.1[i]? = some (.int
        (if (sessionAfter q (cs.take i)).1 then
          (if s.gpio.device (s.gpio.edges.length + (sessionWave q (cs.take i)).length) then 1
          else 0) else 1))
  | [], _, _, _, ho, _, he => by
    cases he
    exact ⟨ho, by simp [sessionWave], rfl, fun i hi => by simp at hi⟩
  | c :: cs, s, _, q, ho, hw, he => by
    obtain ⟨⟨rp, t⟩, ht, he⟩ := Option.bind_eq_some.mp he
    obtain ⟨u, hu, rfl⟩ := Option.map_eq_some'.mp he
    obtain ⟨ho₁, he₁, hd₁, hr₁⟩ :=
      exec_session ho (fun a hc => hw [] a cs ([], s) (by rw [hc]; rfl) rfl) ht
    obtain ⟨ho₂, he₂, hd₂, hr₂⟩ := run_session ho₁
      (fun pre a post r hcs hr => hw (c :: pre) a post (rp :: r.1, r.2) (by rw [hcs]; rfl)
        (by simp [run, ht, hr])) hu
    refine ⟨ho₂, by rw [he₂, he₁, sessionWave, List.append_assoc], hd₂.trans hd₁, fun i hi => ?_⟩
    cases i with
    | zero =>
      obtain rfl : c = .readJtagTdo := by simpa using hi
      simpa [sessionAfter, sessionWave] using hr₁ rfl
    | succ i =>
      rw [List.getElem?_cons_succ] at hi
      rw [List.getElem?_cons_succ, hr₂ i hi, hd₁, he₁, List.take_succ_cons, sessionWave,
        List.length_append, List.length_append, Nat.add_assoc]
      rfl

/-- Over runs that set up only while closed, the device sees the waveforms of the calls made in
sessions and nothing else. -/
theorem run_sessions {cs : List Call} {r : List Reply × Jtag} (h : Inv s) (hk : s.io.hTck < 0)
    (hw : SetupWhenClosed cs s) (he : run exec cs s = some r) :
    ((sessionAfter (false, (false, false)) cs).1 = true ↔ 0 ≤ r.2.io.hTck) ∧
    r.2.gpio.edges = s.gpio.edges ++ sessionWave (false, (false, false)) cs ∧
    r.2.gpio.device = s.gpio.device ∧
    ∀ i : Nat, cs[i]? = some .readJtagTdo → r.1[i]? = some (.int
      (if (sessionAfter (false, (false, false)) (cs.take i)).1 then
        (if s.gpio.device (s.gpio.edges.length +
          (sessionWave (false, (false, false)) (cs.take i)).length) then 1 else 0) else 1)) :=
  have ho : Observed (false, (false, false)) s :=
    ⟨h, by simpa using hk, fun h => by cases h⟩
  let ⟨ho', hE, hD, hR⟩ := run_session ho hw he
  ⟨ho'.open_iff, hE, hD, hR⟩

theorem run_sessions_closed :
    Inv ⟨Globals.init, .idle⟩ ∧ (⟨Globals.init, .idle⟩ : Jtag).io.hTck < 0 ∧
    SetupWhenClosed [.setupIo ⟨true, true, true, true, true⟩, .sendByte 0xA5 1, .readJtagTdo, .closeIo, .sendCmd 1 1] ⟨Globals.init, .idle⟩ ∧
    ∃ r, run exec [.setupIo ⟨true, true, true, true, true⟩, .sendByte 0xA5 1, .readJtagTdo, .closeIo, .sendCmd 1 1] ⟨Globals.init, .idle⟩ = some r ∧
      ((sessionAfter (false, (false, false)) [.setupIo ⟨true, true, true, true, true⟩, .sendByte 0xA5 1, .readJtagTdo, .closeIo, .sendCmd 1 1]).1 = true ↔ 0 ≤ r.2.io.hTck) ∧
      r.2.gpio.edges = Gpio.idle.edges ++ sessionWave (false, (false, false)) [.setupIo ⟨true, true, true, true, true⟩, .sendByte 0xA5 1, .readJtagTdo, .closeIo, .sendCmd 1 1] ∧
      r.2.gpio.device = Gpio.idle.device ∧
      ∀ i : Nat, ([.setupIo ⟨true, true, true, true, true⟩, .sendByte 0xA5 1, .readJtagTdo, .closeIo, .sendCmd 1 1] : List Call)[i]? = some .readJtagTdo → r.1[i]? = some (.int
        (if (sessionAfter (false, (false, false)) (([.setupIo ⟨true, true, true, true, true⟩, .sendByte 0xA5 1, .readJtagTdo, .closeIo, .sendCmd 1 1] : List Call).take i)).1 then
          (if Gpio.idle.device (Gpio.idle.edges.length +
            (sessionWave (false, (false, false)) (([.setupIo ⟨true, true, true, true, true⟩, .sendByte 0xA5 1, .readJtagTdo, .closeIo, .sendCmd 1 1] : List Call).take i)).length) then 1
          else 0) else 1)) := by
  have h : Inv ⟨Globals.init, .idle⟩ := inv_init fun _ _ => rfl
  have hw : SetupWhenClosed [.setupIo ⟨true, true, true, true, true⟩, .sendByte 0xA5 1, .readJtagTdo, .closeIo, .sendCmd 1 1] ⟨Globals.init, .idle⟩ := by
    intro pre a post r hcs hr
    rcases pre with _ | ⟨x, pre⟩
    · cases hr; decide
    · obtain ⟨-, htl⟩ := List.cons_eq_cons.mp hcs
      have hmem : Call.setupIo a ∈ ([.sendByte 0xA5 1, .readJtagTdo, .closeIo, .sendCmd 1 1] :
          List Call) := htl ▸ List.mem_append_right _ (List.mem_cons_self _ _)
      simp at hmem
  obtain ⟨r, hr⟩ : ∃ r, run exec [.setupIo ⟨true, true, true, true, true⟩, .sendByte 0xA5 1, .readJtagTdo, .closeIo, .sendCmd 1 1] ⟨Globals.init, .idle⟩ = some r := ⟨_, rfl⟩
  exact ⟨h, by decide, hw, r, hr, run_sessions h (by decide) hw hr⟩

end Rpjtag
