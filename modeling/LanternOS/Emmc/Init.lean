/-
# `LanternOS.Emmc.Init` — bringing the SD card up

`emmc_init_card` resets the host controller, sets the SD clock to the
400 kHz setup frequency, and walks the card through the SD start-up
sequence: `GO_IDLE_STATE`, `SEND_IF_COND`, `APP_SEND_OP_COND` until the card
has powered up, `ALL_SEND_CID`, `SEND_REL_ADDR` (which gives the card its
RCA), `SEND_CSD`, the 25 MHz clock, `CARD_SELECT`, the SCR, the bus width
and the block length.  This module models that sequence and the functions
it calls: `emmc_get_clock_divider2`, `emmc_set_clock2`, `emmc_reset_card`,
`emmc_app_send_op_cond` and `emmc_read_scr`.

## The clock

The controller divides its 50 MHz base clock by twice a 10-bit divisor,
which `CONTROL1` holds in two pieces: the low 8 bits at 15:8 and the high
2 bits at 7:6, as `emmc_get_clock_divider2` packs it.  `emmc_set_clock2`
picks the divisor: the SD clock it gives is never above the frequency asked
for, and a frequency above half the base clock divides by zero
(`clockDivisor_spec`).

It then builds `CONTROL1` with `DTO << CONTROL1::DATA_TOUNIT.val(0xf).value`.
A field value in tock-registers is already in place, so the shift amount is
`0xf << 16`, far beyond 31: with the debug profile's overflow checks the
shift panics, whatever the frequency.  `emmc_reset_card` sets the clock
before it sends any command, so `emmc_init_card` sends none on any
controller.  It panics once the controller has cleared `SRST_HC`.  If the
controller never does, the loop on `SRST_HC` spins for ever on a counter
below 1 GHz, and returns `EMMC_ERROR_RESET` only on a faster one
(`emmcInitCard_run`).  In the release profile the shift amount is taken
modulo 32, the shift is by 0, and the data timeout unit field is left at 0.

## Polling loops

`emmc_app_send_op_cond` repeats `APP_SEND_OP_COND` while the card reports
that it is still powering up, six more times at most; it returns OK only
when the card's last OCR has the power-up bit and a 3.3 V window
(`emmcAppSendOpCond_ok`).  `emmc_read_scr` polls `READ_TRANSFER` for the two
words of the SCR and assembles it low word first (`emmcReadScr_ok`).
-/
import LanternOS.Emmc.Command
import LanternOS.Lib.Bitfield

namespace LanternOS

namespace Emmc

/-! ## The clock -/

def freqSetup : Nat := 400000
def freqNormal : Nat := 25000000
def baseClock : Nat := 50000000

/-- `DTO`, the data timeout exponent. -/
def dto : Nat := 14

/-- `CONTROL1::DATA_TOUNIT.val(0xf).value`: the field's value in place, at
bits 19:16. -/
def dataTounitField : Nat := 0xf <<< 16

/-- `CONTROL1::CLK_EN.val(1).value` and `CONTROL1::CLK_INTLEN.val(1).value`. -/
def clkEn : Nat := 1 <<< 2
def clkIntlen : Nat := 1

/-- `emmc_get_clock_divider2`: the divisor's 8 low bits at 15:8, its 2 high
bits at 7:6.  A divisor of 10 bits or more fails the assertion. -/
def emmcGetClockDivider2 (div : Nat) : Option Nat :=
  if div < 1 <<< 10 then
    -- `div << 8` cannot leave the `u32` once `div` has 10 bits
    some (((div <<< 8) &&& 0xFF00) ||| (((div >>> 8) <<< 6) &&& 0xC0))
  else none

/-- The divisor `emmc_set_clock2` chooses for `freq`: the base clock over
twice the frequency, one more when that would still run faster than `freq`.
The assertion `freq < BASE_CLOCK` and both divisions can panic; under the
assertion neither `freq << 1` nor `div << 1` leaves the `u32`. -/
def clockDivisor (freq : Nat) : Option Nat :=
  if freq < baseClock then do
    let div ← Checked.div baseClock (freq <<< 1)
    let half ← Checked.div baseClock (div <<< 1)
    if half > freq then Checked.add 32 div 1 else pure div
  else none

variable (hw : Hw)

/-- `emmc_set_clock2`: the divisor, `CONTROL1`, and the wait for
`CLK_STABLE`. -/
def emmcSetClock2 (freq : Nat) : DriverM SdResult := do
  let div ← liftM (clockDivisor freq)
  let bits ← liftM (emmcGetClockDivider2 div)
  let tounit ← liftM (Checked.shl 32 dto dataTounitField)
  -- the value written to `CONTROL1`; register writes are not in the transcript
  let _control1 := bits ||| tounit ||| clkEn ||| clkIntlen
  if ¬ (← waitLoop hw .clkStable).ready then return .emmcErrorClock
  return .emmcOk

/-- `emmc_reset_card`: reset the host circuit, set the setup clock, forget
the card, and send `GO_IDLE_STATE`. -/
def emmcResetCard : DriverM SdResult := do
  if ¬ (← waitLoop hw .srstHc).ready then return .emmcErrorReset
  let resp ← emmcSetClock2 hw freqSetup
  if resp ≠ .emmcOk then return resp
  setCard fun c => { c with rca := 0, ocr := 0, status := 0, emmcCardType := .emmcTypeUnknown }
  emmcSendCommand hw .goIdleState

/-! ## `APP_SEND_OP_COND` -/

/-- Bits of the OCR: power-up done, high capacity, and the windows 3.2–3.3 V
and 3.3–3.4 V. -/
def ocrPowerUpBusy : Nat := 31
def ocrCardCapacity : Nat := 30
def ocrVoltage3v2to3v3 : Nat := 20
def ocrVoltage3v3to3v4 : Nat := 21

def acmd41ArgHc : Nat := 0x40000000 ||| 0x10000000 ||| 0x00ff8000
def acmd41ArgSc : Nat := 0x00ff8000

/-- The retry loop of `emmc_app_send_op_cond`: while the card has not
powered up and `count` is not 0, another `APP_SEND_OP_COND`.  A result other
than OK or a timeout ends the call with it. -/
def opCondLoop (arg : Nat) : Nat → DriverM (Option SdResult)
  | 0 => pure none
  | count + 1 => do
      if Bitfield.bit (← card).ocr ocrPowerUpBusy then return none
      let resp ← emmcSendCommandA hw .appSendOpCond arg
      if resp ≠ .emmcOk ∧ resp ≠ .emmcTimeout then return some resp
      opCondLoop arg count

/-- `emmc_app_send_op_cond`: one `APP_SEND_OP_COND`, six more retries at
most, and the OCR checked. -/
def emmcAppSendOpCond (arg : Nat) : DriverM SdResult := do
  let resp ← emmcSendCommandA hw .appSendOpCond arg
  if resp ≠ .emmcOk ∧ resp ≠ .emmcTimeout then return resp
  match ← opCondLoop hw arg 6 with
  | some resp => return resp
  | none =>
    let ocr := (← card).ocr
    if ¬ Bitfield.bit ocr ocrPowerUpBusy then return .emmcTimeout
    if ¬ Bitfield.bit ocr ocrVoltage3v2to3v3 ∧ ¬ Bitfield.bit ocr ocrVoltage3v3to3v4 then
      return .emmcErrorVoltage
    return .emmcOk

/-! ## The SCR -/

/-- The polling loop of `emmc_read_scr`: `READ_TRANSFER` up means a word of
the SCR is in `DATA`, the first the low word; `count` polls without one
give up.  Returns how many words were read, and the two words. -/
def scrLoop (numRead count scrLo scrHi : Nat) : DriverM (Nat × Nat × Nat) :=
  if h : numRead < 2 then do
    if (← observe hw .readTransfer).ready then
      let d := (← observe hw .data).value
      if numRead = 0 then scrLoop (numRead + 1) count d scrHi
      else scrLoop (numRead + 1) count scrLo d
    else if hc : count - 1 = 0 then return (numRead, scrLo, scrHi)
    else scrLoop numRead (count - 1) scrLo scrHi
  else return (numRead, scrLo, scrHi)
termination_by (2 - numRead, count)

/-- `emmc_read_scr`: `SEND_SCR` for one block of 8 bytes, then its two
words. -/
def emmcReadScr : DriverM SdResult := do
  if (← emmcWaitForData hw) ≠ .emmcOk then return .emmcTimeout
  let resp ← emmcSendCommand hw .sendScr
  if resp ≠ .emmcOk then return emmcDebugResponse resp
  let resp ← emmcWaitForInterrupt hw intReadRdy
  if resp ≠ .emmcOk then return emmcDebugResponse resp
  let (numRead, scrLo, scrHi) ← scrLoop hw 0 100000 0 0
  if numRead ≠ 2 then return .emmcTimeout
  setCard fun c => { c with scr := scrLo ||| scrHi <<< 32 }
  return .emmcOk

/-! ## The start-up sequence -/

/-- `SCR::BUS_WIDTH::BUS_WIDTH_1_4`: the card takes a 1- or a 4-bit bus. -/
def busWidth14 : Nat := 5

/-- `emmc_init_card`. -/
def emmcInitCard : DriverM SdResult := do
  let resp ← emmcResetCard hw
  if resp ≠ .emmcOk then return resp
  let resp ← emmcSendCommandA hw .sendIfCond 0x000001AA
  if resp = .emmcOk then
    let resp ← emmcAppSendOpCond hw acmd41ArgHc
    if resp ≠ .emmcOk then return emmcDebugResponse resp
    setCard fun c =>
      { c with emmcCardType := if Bitfield.bit c.ocr ocrCardCapacity then .emmcType2Hc else .emmcType2Sc }
  else if resp = .emmcBusy then return resp
  else
    let resp ← emmcResetCard hw
    if (← observe hw .cmdInhibitFlag).ready ∧ resp ≠ .emmcOk then return resp
    let resp ← emmcAppSendOpCond hw acmd41ArgSc
    if resp ≠ .emmcOk then return emmcDebugResponse resp
    setCard fun c => { c with emmcCardType := .emmcType1 }
  let resp ← emmcSendCommand hw .allSendCid
  if resp ≠ .emmcOk then return emmcDebugResponse resp
  let resp ← emmcSendCommand hw .sendRelAddr
  if resp ≠ .emmcOk then return emmcDebugResponse resp
  let resp ← emmcSendCommand hw .sendCsd
  if resp ≠ .emmcOk then return emmcDebugResponse resp
  let resp ← emmcSetClock2 hw freqNormal
  if resp ≠ .emmcOk then return emmcDebugResponse resp
  let resp ← emmcSendCommand hw .cardSelect
  if resp ≠ .emmcOk then return emmcDebugResponse resp
  let resp ← emmcReadScr hw
  if resp ≠ .emmcOk then return emmcDebugResponse resp
  if Bitfield.bitRange (← card).scr 11 8 = busWidth14 then
    let resp ← emmcSendCommandA hw .setBusWidth ((← card).rca ||| 2)
    if resp ≠ .emmcOk then return emmcDebugResponse resp
  let resp ← emmcSendCommandA hw .setBlocklen 512
  if resp ≠ .emmcOk then return emmcDebugResponse resp
  return .emmcOk

/-! ## The divisor -/

theorem shiftLeft_one_eq (n : Nat) : n <<< 1 = 2 * n := by
  rw [Nat.shiftLeft_eq, pow_one, Nat.mul_comm]

/-- A divisor is chosen only for a frequency that is not zero and at most
half the base clock; otherwise one of the two divisions is by zero. -/
theorem clockDivisor_dom {freq d : Nat} (h : clockDivisor freq = some d) :
    0 < freq ∧ 2 * freq ≤ baseClock := by
  unfold clockDivisor at h
  split at h
  · simp only [shiftLeft_one_eq, Option.bind_eq_bind, Option.bind_eq_some_iff, Checked.div] at h
    obtain ⟨q, hq, half, hhalf, -⟩ := h
    split at hq
    · cases hq
    split at hhalf
    · cases hhalf
    rw [Option.some.injEq] at hq
    -- the quotient `q` is not zero, so the frequency is at most half the base clock
    have hq0 : q ≠ 0 := by omega
    refine ⟨by omega, ?_⟩
    subst hq
    by_contra hgt
    exact hq0 (Nat.div_eq_of_lt (by omega))
  · cases h

/-- Within that range, the divisor is the quotient, or one more when the
quotient still gives a clock above `freq`. -/
theorem clockDivisor_of_pos {freq : Nat} (h0 : 0 < freq) (h2 : 2 * freq ≤ baseClock) :
    clockDivisor freq =
      some (if freq < baseClock / (2 * (baseClock / (2 * freq))) then baseClock / (2 * freq) + 1
        else baseClock / (2 * freq)) := by
  have hq : 0 < baseClock / (2 * freq) := Nat.div_pos h2 (by omega)
  have hadd : baseClock / (2 * freq) + 1 < 2 ^ 32 := by
    have := Nat.div_le_self baseClock (2 * freq)
    have hB : baseClock = 50000000 := rfl
    omega
  rw [clockDivisor, if_pos (by omega)]
  simp only [shiftLeft_one_eq, Checked.div_of_ne_zero (show 2 * freq ≠ 0 by omega), Option.bind_eq_bind,
    Option.bind_some, Checked.div_of_ne_zero (show 2 * (baseClock / (2 * freq)) ≠ 0 by omega)]
  split_ifs
  · exact Checked.add_of_lt hadd
  · rfl

/-- `emmc_set_clock2`'s divisor exists exactly for the frequencies from 1
to half the base clock, and the SD clock it gives, the base clock over twice
the divisor, is never above the frequency asked for. -/
theorem clockDivisor_spec (freq : Nat) :
    ((∃ d, clockDivisor freq = some d) ↔ 0 < freq ∧ 2 * freq ≤ baseClock) ∧
      ∀ d, clockDivisor freq = some d → 0 < d ∧ baseClock / (2 * d) ≤ freq := by
  refine ⟨⟨fun ⟨_, hd⟩ => clockDivisor_dom hd, fun ⟨h0, h2⟩ => ⟨_, clockDivisor_of_pos h0 h2⟩⟩,
    fun d hd => ?_⟩
  obtain ⟨h0, h2⟩ := clockDivisor_dom hd
  rw [clockDivisor_of_pos h0 h2, Option.some.injEq] at hd
  subst hd
  split_ifs with hfast
  · -- one more than the quotient `q`: the base clock is below `2 freq (q + 1)`
    refine ⟨Nat.succ_pos _, Nat.div_le_of_le_mul ?_⟩
    have hlt := Nat.lt_mul_div_succ baseClock (show 0 < 2 * freq by omega)
    calc baseClock ≤ 2 * freq * (baseClock / (2 * freq) + 1) := hlt.le
      _ = 2 * (baseClock / (2 * freq) + 1) * freq := by ring
  · exact ⟨Nat.div_pos h2 (by omega), Nat.not_lt.1 hfast⟩

/-! ## The data timeout shift -/

/-- `DTO << CONTROL1::DATA_TOUNIT.val(0xf).value` shifts a `u32` by
`0xF0000`. -/
theorem dto_shift_panics : Checked.shl 32 dto dataTounitField = none :=
  Checked.shl_eq_none (by decide)

/-- `emmc_set_clock2` panics for every frequency: when the divisor does
not already, the shift does. -/
theorem emmcSetClock2_panics (freq : Nat) (s : Driver) : (emmcSetClock2 hw freq).run s = none := by
  rw [Option.eq_none_iff_forall_ne_some]
  rintro ⟨r, s'⟩ h
  simp [emmcSetClock2, dto_shift_panics] at h

/-- `emmc_reset_card` returns only when the host reset did not finish and
the loop timed out, with `EMMC_ERROR_RESET`; otherwise it spins on
`SRST_HC`, or reaches the clock and panics. -/
theorem emmcResetCard_run (s : Driver) :
    (emmcResetCard hw).run s =
      if (hw s.trace .srstHc).ready = false ∧
          tickDifferenceMoves (hw (s.afterRead hw .srstHc).trace .timerFreq).value = true then
        some (.emmcErrorReset, (s.afterRead hw .srstHc).afterRead hw .timerFreq)
      else none := by
  unfold emmcResetCard
  rw [StateT.run_bind, run_waitLoop]
  cases hready : (hw s.trace .srstHc).ready
  case true =>
    simp [hready, StateOption.run_bind_of_none (emmcSetClock2_panics hw freqSetup _)]
  case false =>
    simp only [Bool.false_eq_true, if_false, true_and]
    split <;> simp [hready]

/-- `emmc_init_card` never brings a card up.  On every controller it
returns only `EMMC_ERROR_RESET`, without a command sent, when the host reset
never finishes and `tick_difference` moves, on a counter of 1 GHz or more;
otherwise it spins in the reset or panics in the first clock set-up. -/
theorem emmcInitCard_run (s : Driver) :
    (emmcInitCard hw).run s =
      if (hw s.trace .srstHc).ready = false ∧
          tickDifferenceMoves (hw (s.afterRead hw .srstHc).trace .timerFreq).value = true then
        some (.emmcErrorReset, (s.afterRead hw .srstHc).afterRead hw .timerFreq)
      else none := by
  unfold emmcInitCard
  rw [StateT.run_bind, emmcResetCard_run]
  split <;> simp

/-! ## The retry loop of `APP_SEND_OP_COND` -/

/-- The code `get_cmd` gives `APP_SEND_OP_COND`. -/
def appSendOpCondCode : Cmdtm := ⟨0x29, .cmd48bitResp, false, false, false, false⟩

theorem opCond_code_ne : appSendOpCondCode ≠ appCmdCode ∧ appSendOpCondCode ≠ appCmdRcaCode := by
  decide

/-- One round of the loop sends one `APP_SEND_OP_COND` at most, so the loop
sends no more than its count; it stops early only with a result that is
neither OK nor a timeout. -/
theorem opCondLoop_count (arg count : Nat) {s : Driver} {r : Option SdResult} {s' : Driver}
    (h : (opCondLoop hw arg count).run s = some (r, s')) :
    ∃ t, s'.trace = s.trace ++ t ∧ (commands t).countP (fun p => p.1 = appSendOpCondCode) ≤ count ∧
      ∀ resp, r = some resp → resp ≠ .emmcOk := by
  induction count generalizing s with
  | zero =>
    rw [opCondLoop, StateOption.run_pure_some, Option.some.injEq, Prod.mk.injEq] at h
    obtain ⟨rfl, rfl⟩ := h
    exact ⟨[], by simp, by simp, by simp⟩
  | succ count ih =>
    rw [opCondLoop, StateOption.run_bind_eq_some] at h
    obtain ⟨c, s₀, hc, h⟩ := h
    rw [run_card, Option.some.injEq, Prod.mk.injEq] at hc
    obtain ⟨rfl, rfl⟩ := hc
    split at h
    · rw [StateOption.run_pure_some, Option.some.injEq, Prod.mk.injEq] at h
      obtain ⟨rfl, rfl⟩ := h
      exact ⟨[], by simp, by simp, by simp⟩
    rw [StateOption.run_bind_eq_some] at h
    obtain ⟨resp, s₁, hsend, h⟩ := h
    obtain ⟨t, ht, hcount⟩ := sendCommandWith_count_le_one opCond_code_ne hsend
    split at h
    · rename_i hbad
      rw [StateOption.run_pure_some, Option.some.injEq, Prod.mk.injEq] at h
      obtain ⟨rfl, rfl⟩ := h
      exact ⟨t, ht, by omega, fun _ hr => Option.some.inj hr ▸ hbad.1⟩
    · obtain ⟨u, hu, hucount, hres⟩ := ih h
      refine ⟨t ++ u, by rw [hu, ht, List.append_assoc], ?_, hres⟩
      rw [commands_append, List.countP_append]
      omega

/-- `emmc_app_send_op_cond` sends `APP_SEND_OP_COND` seven times at
most, and returns OK only when the OCR it holds at the end says the card
has powered up and takes 3.3 V. -/
theorem emmcAppSendOpCond_ok {arg : Nat} {r : SdResult} {s' : Driver}
    (h : (emmcAppSendOpCond hw arg).run s = some (r, s')) :
    ∃ t, s'.trace = s.trace ++ t ∧ (commands t).countP (fun p => p.1 = appSendOpCondCode) ≤ 7 ∧
      (r = .emmcOk → Bitfield.bit s'.card.ocr ocrPowerUpBusy ∧
        (Bitfield.bit s'.card.ocr ocrVoltage3v2to3v3 ∨ Bitfield.bit s'.card.ocr ocrVoltage3v3to3v4)) := by
  rw [emmcAppSendOpCond, StateOption.run_bind_eq_some] at h
  obtain ⟨resp, s₁, hsend, h⟩ := h
  obtain ⟨t, ht, hcount⟩ := sendCommandWith_count_le_one opCond_code_ne hsend
  split at h
  · rename_i hbad
    rw [StateOption.run_pure_some, Option.some.injEq, Prod.mk.injEq] at h
    obtain ⟨rfl, rfl⟩ := h
    exact ⟨t, ht, by omega, fun hr => absurd hr hbad.1⟩
  rw [StateOption.run_bind_eq_some] at h
  obtain ⟨res, s₂, hloop, h⟩ := h
  obtain ⟨u, hu, hucount, hres⟩ := opCondLoop_count hw arg 6 hloop
  have hend : s' = s₂ ∧ (r = .emmcOk → Bitfield.bit s₂.card.ocr ocrPowerUpBusy ∧
      (Bitfield.bit s₂.card.ocr ocrVoltage3v2to3v3 ∨ Bitfield.bit s₂.card.ocr ocrVoltage3v3to3v4)) := by
    cases res with
    | some x =>
      rw [StateOption.run_pure_some, Option.some.injEq, Prod.mk.injEq] at h
      obtain ⟨rfl, rfl⟩ := h
      exact ⟨rfl, fun hr => absurd hr (hres _ rfl)⟩
    | none =>
      rw [StateOption.run_bind_eq_some] at h
      obtain ⟨c, s₃, hc, h⟩ := h
      rw [run_card, Option.some.injEq, Prod.mk.injEq] at hc
      obtain ⟨rfl, rfl⟩ := hc
      dsimp only at h
      split_ifs at h <;>
        rw [StateOption.run_pure_some, Option.some.injEq, Prod.mk.injEq] at h <;>
        obtain ⟨rfl, rfl⟩ := h <;>
        exact ⟨rfl, fun hr => by simp_all [or_iff_not_and_not]⟩
  obtain ⟨rfl, hok⟩ := hend
  refine ⟨t ++ u, by rw [hu, ht, List.append_assoc], ?_, hok⟩
  rw [commands_append, List.countP_append]
  omega

/-! ## Reading the SCR -/

/-- A card at power-up, before it has an RCA, that answers every command at
once with the OCR `0x80ff8000`: powered up, all voltages. -/
theorem emmcAppSendOpCond_ok_powered_up :
    ∃ r s', (emmcAppSendOpCond (fun _ q => if q = .resp0 then ⟨true, 0x80ff8000, by decide⟩
          else ⟨true, 0, by decide⟩) acmd41ArgHc).run ⟨⟨0, .emmcTypeUnknown, 0, 0, 0⟩, []⟩ = some (r, s') ∧
      ∃ t, s'.trace = [] ++ t ∧ (commands t).countP (fun p => p.1 = appSendOpCondCode) ≤ 7 ∧
        (r = .emmcOk → Bitfield.bit s'.card.ocr ocrPowerUpBusy ∧
          (Bitfield.bit s'.card.ocr ocrVoltage3v2to3v3 ∨ Bitfield.bit s'.card.ocr ocrVoltage3v3to3v4)) := by
  have hrun : (emmcAppSendOpCond (fun _ q => if q = .resp0 then ⟨true, 0x80ff8000, by decide⟩
      else ⟨true, 0, by decide⟩) acmd41ArgHc).run ⟨⟨0, .emmcTypeUnknown, 0, 0, 0⟩, []⟩ = some (_, _) := rfl
  exact ⟨_, _, hrun, emmcAppSendOpCond_ok _ hrun⟩

/-- The polling loop reads words into `scrLo`, then `scrHi`: the words it
holds when it stops are those it held at the start followed by the `DATA`
words read on the way, and it stops with at most two. -/
theorem scrLoop_spec (numRead count lo hi : Nat) {s : Driver} {r : Nat × Nat × Nat} {s' : Driver}
    (h : (scrLoop hw numRead count lo hi).run s = some (r, s')) :
    ∃ t, s'.trace = s.trace ++ t ∧ [r.2.1, r.2.2].take r.1 = [lo, hi].take numRead ++ dataReads t ∧
      (numRead ≤ 2 → r.1 ≤ 2) := by
  induction numRead, count, lo, hi using scrLoop.induct generalizing s with
  | case1 numRead count lo hi hlt ihLo ihHi ihWait =>
    rw [scrLoop, dif_pos hlt, StateOption.run_bind_eq_some] at h
    obtain ⟨a, s₁, ha, h⟩ := h
    rw [run_observe, Option.some.injEq, Prod.mk.injEq] at ha
    obtain ⟨rfl, rfl⟩ := ha
    split at h
    · rw [StateOption.run_bind_eq_some] at h
      obtain ⟨b, s₂, hb, h⟩ := h
      rw [run_observe, Option.some.injEq, Prod.mk.injEq] at hb
      obtain ⟨rfl, rfl⟩ := hb
      split at h
      · rename_i h0
        subst h0
        obtain ⟨u, hu, hwords, hle⟩ := ihLo _ rfl h
        rw [afterRead_trace_append, afterRead_trace_append] at hu
        exact ⟨_, hu, by simp [hwords, dataReads], fun _ => hle (by omega)⟩
      · obtain ⟨u, hu, hwords, hle⟩ := ihHi _ h
        have h1 : numRead = 1 := by omega
        subst h1
        rw [afterRead_trace_append, afterRead_trace_append] at hu
        exact ⟨_, hu, by simp [hwords, dataReads], fun _ => hle (by omega)⟩
    · split at h
      · rw [StateOption.run_pure_some, Option.some.injEq, Prod.mk.injEq] at h
        obtain ⟨rfl, rfl⟩ := h
        exact ⟨_, afterRead_trace s hw _, by simp [dataReads], fun _ => by omega⟩
      · obtain ⟨u, hu, hwords, hle⟩ := ihWait ‹_› h
        rw [afterRead_trace_append] at hu
        exact ⟨_, hu, by simp [hwords, dataReads], hle⟩
  | case2 numRead count lo hi hge =>
    rw [scrLoop, dif_neg hge, StateOption.run_pure_some, Option.some.injEq, Prod.mk.injEq] at h
    obtain ⟨rfl, rfl⟩ := h
    exact ⟨[], by simp, by simp [dataReads], fun h => h⟩

/-- A round of the polling loop that finds `READ_TRANSFER` up reads a word
into `scrLo` or `scrHi` and goes on. -/
theorem run_scrLoop_of_ready {numRead count lo hi : Nat} {s : Driver} (h : numRead < 2)
    (hr : (hw s.trace .readTransfer).ready = true) :
    (scrLoop hw numRead count lo hi).run s =
      (scrLoop hw (numRead + 1) count
        (if numRead = 0 then (hw (s.afterRead hw .readTransfer).trace .data).value else lo)
        (if numRead = 0 then hi else (hw (s.afterRead hw .readTransfer).trace .data).value)).run
        ((s.afterRead hw .readTransfer).afterRead hw .data) := by
  rw [scrLoop, dif_pos h, StateOption.run_bind_of_some (run_observe hw _ s), if_pos hr,
    StateOption.run_bind_of_some (run_observe hw _ _)]
  split <;> simp_all

/-- With both words read the loop stops. -/
theorem run_scrLoop_of_two {count lo hi : Nat} (s : Driver) :
    (scrLoop hw 2 count lo hi).run s = some ((2, lo, hi), s) := by
  rw [scrLoop, dif_neg (by decide)]
  rfl

/-- `emmc_read_scr` returns OK only after reading exactly two words from
`DATA`, and the SCR it stores is those two words, the first the low one. -/
theorem emmcReadScr_ok {s' : Driver} (h : (emmcReadScr hw).run s = some (.emmcOk, s')) :
    ∃ t lo hi, s'.trace = s.trace ++ t ∧ dataReads t = [lo, hi] ∧ s'.card.scr = lo + 2 ^ 32 * hi := by
  rw [emmcReadScr] at h
  replace h := (run_waitForData_bind (by decide) h).2
  rw [StateOption.run_bind_eq_some] at h
  obtain ⟨resp, s₂, hsend, h⟩ := h
  obtain ⟨t₂, ht₂, hctl⟩ := sendCommandWith_control _ _ _ _ _ hsend
  split at h
  · simp_all
  rw [StateOption.run_bind_eq_some] at h
  obtain ⟨resp', s₃, hint, h⟩ := h
  obtain ⟨-, hs₃, -⟩ := waitForInterrupt_eq_some hint
  split at h
  · simp_all
  obtain rfl := hs₃ (not_not.1 ‹_›)
  rw [StateOption.run_bind_eq_some] at h
  obtain ⟨⟨numRead, lo, hi⟩, s₄, hloop, h⟩ := h
  obtain ⟨u, hu, hwords, -⟩ := scrLoop_spec hw 0 100000 0 0 hloop
  dsimp only at h
  split at h
  · simp at h
  rename_i h2
  have hn : numRead = 2 := by simpa using h2
  subst hn
  rw [StateOption.run_bind_eq_some] at h
  obtain ⟨_, s₅, hset, hret⟩ := h
  rw [run_setCard, Option.some.injEq, Prod.mk.injEq] at hset
  obtain ⟨-, rfl⟩ := hset
  rw [StateOption.run_pure_some, Option.some.injEq, Prod.mk.injEq] at hret
  obtain ⟨-, rfl⟩ := hret
  have hlohi : dataReads u = [lo, hi] := by simpa using hwords.symm
  have hlo : lo < 2 ^ 32 := lt_of_mem_dataReads (hlohi ▸ List.mem_cons_self)
  have htrace : s₄.trace = s.trace ++ (.read .datInhibit (hw s.trace .datInhibit) :: t₂ ++
      .read (.interrupt intReadRdy) (hw s₂.trace (.interrupt intReadRdy)) :: u) := by
    rw [hu, afterRead_trace_append, ht₂, afterRead_trace_append, List.append_assoc]
  refine ⟨_, lo, hi, htrace, ?_, ?_⟩
  · rw [dataReads_append]
    show dataReads t₂ ++ dataReads u = [lo, hi]
    rw [dataReads_eq_nil hctl, hlohi, List.nil_append]
  · show lo ||| hi <<< 32 = lo + 2 ^ 32 * hi
    rw [Nat.lor_comm, Nat.shiftLeft_eq, Nat.mul_comm, ← Nat.two_pow_add_eq_or_of_lt hlo, Nat.add_comm]

/-- A controller that answers every read at once with the status
`APP_CMD`: the SCR is read, both its words that value. -/
theorem emmcReadScr_ok_app_cmd_status :
    ∃ s', (emmcReadScr fun _ _ => ⟨true, stAppCmd, by decide⟩).run ⟨⟨0, .emmcType2Hc, 0x12340000, 0, 0⟩, []⟩ =
        some (.emmcOk, s') ∧
      ∃ t lo hi, s'.trace = [] ++ t ∧ dataReads t = [lo, hi] ∧ s'.card.scr = lo + 2 ^ 32 * hi := by
  have hloop : scrLoop (fun _ _ => ⟨true, stAppCmd, by decide⟩) 0 100000 0 0 = fun s =>
      some ((2, stAppCmd, stAppCmd), (((s.afterRead (fun _ _ => ⟨true, stAppCmd, by decide⟩) .readTransfer).afterRead
        (fun _ _ => ⟨true, stAppCmd, by decide⟩) .data).afterRead (fun _ _ => ⟨true, stAppCmd, by decide⟩)
        .readTransfer).afterRead (fun _ _ => ⟨true, stAppCmd, by decide⟩) .data) := by
    funext s
    refine (run_scrLoop_of_ready _ (by decide) rfl).trans ?_
    refine (run_scrLoop_of_ready _ (by decide) rfl).trans ?_
    exact run_scrLoop_of_two _ _
  obtain ⟨s', hrun⟩ : ∃ s', (emmcReadScr fun _ _ => ⟨true, stAppCmd, by decide⟩).run
      ⟨⟨0, .emmcType2Hc, 0x12340000, 0, 0⟩, []⟩ = some (.emmcOk, s') := by
    apply Exists.intro
    simp only [emmcReadScr, hloop]
    rfl
  exact ⟨s', hrun, emmcReadScr_ok _ hrun⟩

end Emmc

end LanternOS
