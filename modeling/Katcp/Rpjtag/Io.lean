import Mathlib.Logic.Function.Basic

/-! `rpjtag_io.c`: JTAG driven by toggling four GPIO lines through lgpio. -/
namespace Rpjtag

/-- `JTAG_TCK` (BCM 24), `JTAG_TMS` (27), `JTAG_TDI` (22) and `JTAG_TDO` (23). -/
inductive Pin
  | tck | tms | tdi | tdo
  deriving DecidableEq, Repr

/-- lgpio, modelled from the driver's use of it: a claim fails with a negative code or hands out a
fresh handle, and a write, read or free through a dead handle fails. -/
structure Gpio where
  /-- The next handle lgpio hands out. -/
  next : Nat
  /-- The line a live handle claims. -/
  owner : Nat → Option Pin
  tck : Bool
  tms : Bool
  tdi : Bool
  /-- TMS and TDI as the device samples them, at each rising edge of TCK. -/
  edges : List (Bool × Bool)
  /-- The TDO level the device presents after `n` clock cycles. -/
  device : Nat → Bool

namespace Gpio

variable (g : Gpio)

/-- The line behind a handle, if it is live. -/
def line (h : Int) : Option Pin :=
  if 0 ≤ h then g.owner h.toNat else none

def level : Pin → Bool
  | .tck => g.tck
  | .tms => g.tms
  | .tdi => g.tdi
  | .tdo => g.device g.edges.length

/-- Drive an output; TDO is an input and takes no level. -/
def setLevel : Pin → Bool → Gpio
  | .tck, v =>
    { g with tck := v, edges := if !g.tck && v then g.edges ++ [(g.tms, g.tdi)] else g.edges }
  | .tms, v => { g with tms := v }
  | .tdi, v => { g with tdi := v }
  | .tdo, _ => g

def lgGpioWrite (h : Int) (v : Bool) : Gpio :=
  match g.line h with
  | some p => g.setLevel p v
  | none => g

/-- `lgGpioRead`: the level as `1` or `0`, or a negative code through a dead handle. -/
def lgGpioRead (h : Int) : Int :=
  match g.line h with
  | some p => if g.level p then 1 else 0
  | none => -1

def grant (p : Pin) : Gpio :=
  { g with next := g.next + 1, owner := Function.update g.owner g.next (some p) }

/-- `lgGpiochipOpen(0)`, where `ok` is whether lgpio grants it. -/
def lgGpiochipOpen (ok : Bool) : Int × Gpio :=
  if ok then (g.next, { g with next := g.next + 1 }) else (-1, g)

/-- `lgGpioClaimOutput(chip, 0, p, level)`, where `ok` is whether lgpio grants it. -/
def lgGpioClaimOutput (ok : Bool) (p : Pin) (level : Bool) : Int × Gpio :=
  if ok then (g.next, (g.grant p).setLevel p level) else (-1, g)

def lgGpioClaimInput (ok : Bool) (p : Pin) : Int × Gpio :=
  if ok then (g.next, g.grant p) else (-1, g)

def lgGpioFreeLine (h : Int) : Gpio :=
  match g.line h with
  | some _ => { g with owner := Function.update g.owner h.toNat none }
  | none => g

/-- lgpio before the driver claims anything, with a device that holds TDO low. -/
def idle : Gpio := ⟨0, fun _ => none, false, false, false, [], fun _ => false⟩

end Gpio

/-- The statics of `rpjtag_io.c`. -/
structure Globals where
  chip : Int
  hTck : Int
  hTms : Int
  hTdi : Int
  hTdo : Int
  tdiState : Int
  deriving DecidableEq, Repr

/-- Their initialisers: no chip, no handles, TDI not yet driven. -/
def Globals.init : Globals := ⟨-1, -1, -1, -1, -1, -1⟩

structure Jtag where
  io : Globals
  gpio : Gpio

/-- lgpio's answers to the chip open and the four claims of one `setup_io`. -/
structure Grants where
  chip : Bool
  tck : Bool
  tms : Bool
  tdi : Bool
  tdo : Bool
  deriving DecidableEq, Repr

section Driver

variable (s : Jtag)

def gpioSetLine (h : Int) : Jtag := ⟨s.io, s.gpio.lgGpioWrite h true⟩

def gpioClrLine (h : Int) : Jtag := ⟨s.io, s.gpio.lgGpioWrite h false⟩

def gpioReadLine (h : Int) : Int := s.gpio.lgGpioRead h

def tickClk : Jtag := gpioClrLine (gpioSetLine s s.io.hTck) s.io.hTck

/-- `if (h >= 0) lgGpioFreeLine(h)`. -/
def freeIfHeld (h : Int) (g : Gpio) : Gpio :=
  if 0 ≤ h then g.lgGpioFreeLine h else g

/-- The `fail:` path of `setup_io`: each held line is freed before the chip is closed. -/
def setupIoFail : Int × Jtag :=
  (-1, ⟨{ s.io with chip := -1, hTck := -1, hTms := -1, hTdi := -1, hTdo := -1 },
    freeIfHeld s.io.hTdo <| freeIfHeld s.io.hTdi <| freeIfHeld s.io.hTms <|
      freeIfHeld s.io.hTck s.gpio⟩)

def setupIo (a : Grants) : Int × Jtag :=
  let r := s.gpio.lgGpiochipOpen a.chip
  let s : Jtag := ⟨{ s.io with chip := r.1 }, r.2⟩
  if r.1 < 0 then (-1, s) else
  let r := s.gpio.lgGpioClaimOutput a.tck .tck false
  let s : Jtag := ⟨{ s.io with hTck := r.1 }, r.2⟩
  if r.1 < 0 then setupIoFail s else
  let r := s.gpio.lgGpioClaimOutput a.tms .tms false
  let s : Jtag := ⟨{ s.io with hTms := r.1 }, r.2⟩
  if r.1 < 0 then setupIoFail s else
  let r := s.gpio.lgGpioClaimOutput a.tdi .tdi false
  let s : Jtag := ⟨{ s.io with hTdi := r.1 }, r.2⟩
  if r.1 < 0 then setupIoFail s else
  let r := s.gpio.lgGpioClaimInput a.tdo .tdo
  let s : Jtag := ⟨{ s.io with hTdo := r.1 }, r.2⟩
  if r.1 < 0 then setupIoFail s else
  (0, ⟨{ s.io with tdiState := -1 }, s.gpio⟩)

def closeIo : Jtag :=
  ⟨{ s.io with
      hTck := if 0 ≤ s.io.hTck then -1 else s.io.hTck
      hTms := if 0 ≤ s.io.hTms then -1 else s.io.hTms
      hTdi := if 0 ≤ s.io.hTdi then -1 else s.io.hTdi
      hTdo := if 0 ≤ s.io.hTdo then -1 else s.io.hTdo
      chip := if 0 ≤ s.io.chip then -1 else s.io.chip },
    freeIfHeld s.io.hTdo <| freeIfHeld s.io.hTdi <| freeIfHeld s.io.hTms <|
      freeIfHeld s.io.hTck s.gpio⟩

def readJtagTdo : Int := if gpioReadLine s s.io.hTdo ≠ 0 then 1 else 0

/-- Write TDI and note the level in `tdi_state`, as both senders do. -/
def setTdi (v : Bool) : Jtag :=
  ⟨{ s.io with tdiState := if v then 1 else 0 }, s.gpio.lgGpioWrite s.io.hTdi v⟩

/-- Its toggle of TCK is the body of `tick_clk`. -/
def sendCmdNoTms (iTDI : Int) : Jtag :=
  tickClk <|
    if iTDI = 0 then if s.io.tdiState ≠ 0 then setTdi s false else s
    else if s.io.tdiState ≠ 1 then setTdi s true else s

def sendCmd (iTDI iTMS : Int) : Jtag :=
  let s := setTdi s (iTDI = 1)
  tickClk (if iTMS = 1 then gpioSetLine s s.io.hTms else gpioClrLine s s.io.hTms)

/-- The message it prints to stderr is not modelled. -/
def resetClk : Jtag := gpioClrLine s s.io.hTck

/-- One pass of the word senders' loops: clock bit `b` of `cmd`, TMS up when `last`; too wide a
shift is undefined. -/
def sendCmdBit (cmd : BitVec 32) (b : Nat) (last : Bool) : Option Jtag :=
  if 32 ≤ b then none else some (sendCmd s ((cmd >>> b) &&& 1).toNat (if last then 1 else 0))

/-- `while (bitoffset--)` from a negative count shifts by a negative amount at once. -/
def sendCmdWordMsbFirst (cmd : BitVec 32) (lastBit bitoffset : Int) : Option Jtag :=
  if bitoffset < 0 then none
  else (List.range bitoffset.toNat).reverse.foldlM
    (fun s b => sendCmdBit s cmd b (lastBit = 1 ∧ b = 0)) s

def sendCmdWordMsbLast (cmd : BitVec 32) (lastBit bitoffset : Int) : Option Jtag :=
  (List.range bitoffset.toNat).foldlM
    (fun s i => sendCmdBit s cmd i (lastBit = 1 ∧ bitoffset = i + 1)) s

def sendByte (byte : BitVec 8) (lastbyte : Int) : Jtag :=
  [7, 6, 5, 4, 3, 2, 1, 0].foldl
    (fun s x => sendCmd s ((byte >>> x) &&& 1).toNat (if x = 0 ∧ lastbyte = 1 then 1 else 0)) s

/-- `send_byte_no_tms`, over the `send_cmd_no_tms` it calls. -/
def sendByteNoTmsVia (noTms : Jtag → Int → Jtag) (byte : BitVec 8) : Jtag :=
  [0x80, 0x40, 0x20, 0x10, 0x08, 0x04, 0x02, 0x01].foldl
    (fun s m => noTms s (byte &&& m).toNat) s

def sendByteNoTms (byte : BitVec 8) : Jtag := sendByteNoTmsVia s sendCmdNoTms byte

/-- `data[j] |= b`; past the end of the buffer it is undefined. -/
def orByte (data : List (BitVec 8)) (j : Nat) (b : BitVec 8) : Option (List (BitVec 8)) :=
  data[j]?.map fun x => data.set j (x ||| b)

/-- The loop of `jtag_read_data` over `i = n, …, 1`: sample TDO, clock a zero, and put the
sample at bit `i & 7` of `data[i / 8]`. -/
def readBits : Nat → List (BitVec 8) → Jtag → Option (List (BitVec 8) × Jtag)
  | 0, data, s => some (data, s)
  | i + 1, data, s =>
    (orByte data ((i + 1) / 8) (BitVec.ofInt 8 (readJtagTdo s) <<< ((i + 1) % 8))).bind
      fun data => readBits i data (sendCmd s 0 0)

/-- `iSize + 7` past `INT_MAX` overflows, and `memset` of a negative size is a huge one. -/
def jtagReadData (data : List (BitVec 8)) (iSize : Int) : Option (List (BitVec 8) × Jtag) :=
  if iSize = 0 then some (data, s) else
  if 2147483648 ≤ iSize + 7 then none else
  let n := (iSize + 7).tdiv 8
  if n < 0 ∨ (data.length : Int) < n then none else
  (readBits (iSize - 1).toNat (List.replicate n.toNat 0 ++ data.drop n.toNat) s).bind
    fun (data, s) =>
      (orByte data 0 (BitVec.ofInt 8 (readJtagTdo s))).map fun data => (data, sendCmd s 0 1)

end Driver

inductive Reply
  | unit
  | int (v : Int)
  | data (bytes : List (BitVec 8))
  deriving DecidableEq, Repr

/-- The driver's entry points, `setup_io` with lgpio's answers to its claims. -/
inductive Call
  | setupIo (a : Grants)
  | closeIo
  | tickClk
  | resetClk
  | readJtagTdo
  | sendCmdNoTms (iTDI : Int)
  | sendCmd (iTDI iTMS : Int)
  | sendCmdWordMsbFirst (cmd : BitVec 32) (lastBit bitoffset : Int)
  | sendCmdWordMsbLast (cmd : BitVec 32) (lastBit bitoffset : Int)
  | sendByte (byte : BitVec 8) (lastbyte : Int)
  | sendByteNoTms (byte : BitVec 8)
  | jtagReadData (data : List (BitVec 8)) (iSize : Int)
  deriving DecidableEq, Repr

/-- One call, with `noTms` for `send_cmd_no_tms`; `none` is undefined behaviour. -/
def call (noTms : Jtag → Int → Jtag) : Call → Jtag → Option (Reply × Jtag)
  | .setupIo a, s => some (.int (setupIo s a).1, (setupIo s a).2)
  | .closeIo, s => some (.unit, closeIo s)
  | .tickClk, s => some (.unit, tickClk s)
  | .resetClk, s => some (.unit, resetClk s)
  | .readJtagTdo, s => some (.int (readJtagTdo s), s)
  | .sendCmdNoTms iTDI, s => some (.unit, noTms s iTDI)
  | .sendCmd iTDI iTMS, s => some (.unit, sendCmd s iTDI iTMS)
  | .sendCmdWordMsbFirst cmd lastBit n, s =>
    (sendCmdWordMsbFirst s cmd lastBit n).map (.unit, ·)
  | .sendCmdWordMsbLast cmd lastBit n, s => (sendCmdWordMsbLast s cmd lastBit n).map (.unit, ·)
  | .sendByte byte lastbyte, s => some (.unit, sendByte s byte lastbyte)
  | .sendByteNoTms byte, s => some (.unit, sendByteNoTmsVia s noTms byte)
  | .jtagReadData data iSize, s =>
    (jtagReadData s data iSize).map fun r => (.data r.1, r.2)

/-- The driver as the source has it. -/
def exec : Call → Jtag → Option (Reply × Jtag) := call sendCmdNoTms

def run (f : Call → Jtag → Option (Reply × Jtag)) : List Call → Jtag → Option (List Reply × Jtag)
  | [], s => some ([], s)
  | c :: cs, s =>
    (f c s).bind fun r => (run f cs r.2).map fun rs => (r.1 :: rs.1, rs.2)

end Rpjtag
