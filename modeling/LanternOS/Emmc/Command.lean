/-
# `LanternOS.Emmc.Command` — sending a command to the SD card

`emmc.rs` drives the EMMC controller that connects the Raspberry Pi to its
SD card.  Every operation of the driver is a sequence of commands: it waits
until the command line is free, writes the argument to `ARG1` and the
command to `CMDTM`, waits for `CMD_DONE`, and reads the card's response
from `RESP0`.  This module models that layer: `emmc_sendcommand_p`, the
application-command prefix `emmc_send_app_command`, and the two entry points
`emmc_send_command` and `emmc_send_command_a`.

## The controller as the driver sees it

What the driver reads depends on the controller and the card behind it,
neither of which is in the repository.  So the controller is `Hw`: the
answer to each register read, given everything the driver did before it.
Every theorem about the driver holds for every `Hw`; a card that stores
blocks is one of them (`LanternOS.Emmc.Card`).

## Polling loops and `tick_difference`

A polling loop is one read: whether the condition it polls came up before
the loop's time-out, and `INTERRUPT` as the code reads it after the loop.
The time-out is `tick_difference` from the loop's first reading of the
counter reaching the loop's limit.  `tick_difference` divides the counter
frequency by `10 ^ 9` before it scales anything, so the time-out can come
only with a counter of 1 GHz or more (`tickDifference_reaches_iff`).  A loop
whose condition never comes up reads that frequency (`waitLoop`): at 1 GHz
or more it times out, and below it spins for ever, and the driver never
returns.  So `emmc_wait_for_command` gives `EMMC_BUSY` on a slower counter
only when `INTERRUPT` has an error flag.

The driver's state is the card record `EMMC_CARD` (the fields its control
flow reads) and the transcript: the commands it writes, the data words it
writes, and every register read with its answer, in order.  The protocol
facts are facts about the transcript.

## Application commands

Commands after `APP_CMD_START` in `SdCardCommands` are application commands
(ACMDs).  The card reads them as such only right after an `APP_CMD` (CMD55).
`emmc_send_app_command` sends that prefix first.  When the card has an RCA,
the prefix carries it and its response is checked; an ACMD then goes out
only right after an `APP_CMD` the card accepted (`acmd_follows_accepted_app_cmd`).
Before the card has an RCA, during initialisation, the prefix's result is
ignored.
-/
import LanternOS.Lib.StateOption
import LanternOS.Lib.Checked

namespace LanternOS

namespace Emmc

open StateOption

/-! ## The driver's types -/

/-- `SdResult`. -/
inductive SdResult where
  | emmcOk
  | emmcError
  | emmcTimeout
  | emmcBusy
  | emmcNoResp
  | emmcErrorReset
  | emmcErrorClock
  | emmcErrorVoltage
  | emmcErrorAppCmd
  | emmcCardAbsent
  | emmcReadError
  | emmcMountFail
  | emmcCardState (status : Nat)
  | none
  deriving DecidableEq, Repr

/-- `SdCardType`. -/
inductive SdCardType where
  | emmcTypeUnknown
  | emmcTypeMmc
  | emmcType1
  | emmcType2Sc
  | emmcType2Hc
  deriving DecidableEq, Repr

/-- `SdCardCommands`, in the source's order: the derived `PartialOrd`
compares positions. -/
inductive SdCardCommands where
  | goIdleState
  | allSendCid
  | sendRelAddr
  | setDsr
  | switchFunc
  | cardSelect
  | sendIfCond
  | sendCsd
  | sendCid
  | voltageSwitch
  | stopTrans
  | sendStatus
  | goInactive
  | setBlocklen
  | readSingle
  | readMulti
  | sendTuning
  | speedClass
  | setBlockcnt
  | writeSingle
  | writeMulti
  | programCsd
  | setWritePr
  | clrWritePr
  | sndWritePr
  | eraseWrSt
  | eraseWrEnd
  | erase
  | lockUnlock
  | appCmd
  | appCmdRca
  | genCmd
  | appCmdStart
  | setBusWidth
  | emmcStatus
  | sendNumWrbl
  | sendNumErs
  | appSendOpCond
  | setClrDet
  | sendScr
  deriving DecidableEq, Repr

/-- `cmd_type >= SdCardCommands::APP_CMD_START`: an application command. -/
def SdCardCommands.IsApp (c : SdCardCommands) : Prop :=
  SdCardCommands.appCmdStart.ctorIdx ≤ c.ctorIdx

instance (c : SdCardCommands) : Decidable c.IsApp :=
  inferInstanceAs (Decidable (_ ≤ _))

/-- `CMD_RSPNS_TYPE` of `CMDTM`. -/
inductive RspnsType where
  | cmdNoResp
  | cmd136bitResp
  | cmd48bitResp
  | cmdBusy48bitResp
  deriving DecidableEq, Repr

/-- The fields of `CMDTM` that a command sets; the others stay zero. -/
structure Cmdtm where
  cmdIndex : Nat
  cmdRspnsType : RspnsType
  cmdIsdata : Bool
  tmDatDir : Bool
  tmBlkcntEn : Bool
  tmMultiBlock : Bool
  deriving DecidableEq, Repr

/-- `EMMCCommand`, without the name it carries for the log. -/
structure EMMCCommand where
  cmdCode : Cmdtm
  useRca : Bool
  delay : Nat
  deriving DecidableEq, Repr

/-- A command that moves no data. -/
def EMMCCommand.plain (index : Nat) (r : RspnsType) (useRca : Bool) (delay : Nat) : EMMCCommand :=
  ⟨⟨index, r, false, false, false, false⟩, useRca, delay⟩

/-- `get_cmd`.  The marker `APP_CMD_START` has no entry: `unimplemented!()`. -/
def SdCardCommands.getCmd : SdCardCommands → Option EMMCCommand
  | .goIdleState => some (.plain 0x00 .cmdNoResp false 0)
  | .allSendCid => some (.plain 0x02 .cmd136bitResp false 0)
  | .sendRelAddr => some (.plain 0x03 .cmd48bitResp false 0)
  | .setDsr => some (.plain 0x04 .cmdNoResp false 0)
  | .switchFunc => some (.plain 0x06 .cmd48bitResp false 0)
  | .cardSelect => some (.plain 0x07 .cmdBusy48bitResp true 0)
  | .sendIfCond => some (.plain 0x08 .cmd48bitResp true 100)
  | .sendCsd => some (.plain 0x09 .cmd136bitResp true 0)
  | .sendCid => some (.plain 0x0a .cmd136bitResp true 0)
  | .voltageSwitch => some (.plain 0x0b .cmd48bitResp false 0)
  | .stopTrans => some (.plain 0x0c .cmdBusy48bitResp false 0)
  | .sendStatus => some (.plain 0x0d .cmd48bitResp true 0)
  | .goInactive => some (.plain 0x0f .cmdNoResp true 0)
  | .setBlocklen => some (.plain 0x10 .cmdNoResp false 0)
  | .readSingle => some ⟨⟨0x11, .cmd48bitResp, true, true, false, false⟩, false, 0⟩
  | .readMulti => some ⟨⟨0x12, .cmd48bitResp, true, true, true, true⟩, false, 0⟩
  | .sendTuning => some (.plain 0x13 .cmd48bitResp false 0)
  | .speedClass => some (.plain 0x14 .cmdBusy48bitResp false 0)
  | .setBlockcnt => some (.plain 0x17 .cmd48bitResp false 0)
  | .writeSingle => some ⟨⟨0x18, .cmd48bitResp, true, false, false, false⟩, false, 0⟩
  | .writeMulti => some ⟨⟨0x19, .cmd48bitResp, true, false, true, true⟩, false, 0⟩
  | .programCsd => some (.plain 0x1b .cmd48bitResp false 0)
  | .setWritePr => some (.plain 0x1c .cmdBusy48bitResp false 0)
  | .clrWritePr => some (.plain 0x1d .cmdBusy48bitResp false 0)
  | .sndWritePr => some (.plain 0x1e .cmd48bitResp false 0)
  | .eraseWrSt => some (.plain 0x20 .cmd48bitResp false 0)
  | .eraseWrEnd => some (.plain 0x21 .cmd48bitResp false 0)
  | .erase => some (.plain 0x26 .cmdBusy48bitResp false 0)
  | .lockUnlock => some (.plain 0x2a .cmd48bitResp false 0)
  | .appCmd => some (.plain 0x37 .cmdNoResp false 100)
  | .appCmdRca => some (.plain 0x37 .cmd48bitResp true 0)
  | .genCmd => some (.plain 0x38 .cmd48bitResp false 0)
  | .appCmdStart => none
  | .setBusWidth => some (.plain 0x06 .cmd48bitResp false 0)
  | .emmcStatus => some (.plain 0x0d .cmd48bitResp true 0)
  | .sendNumWrbl => some (.plain 0x16 .cmd48bitResp false 0)
  | .sendNumErs => some (.plain 0x17 .cmd48bitResp false 0)
  | .appSendOpCond => some (.plain 0x29 .cmd48bitResp false 1000)
  | .setClrDet => some (.plain 0x2a .cmd48bitResp false 0)
  | .sendScr => some ⟨⟨0x33, .cmd48bitResp, true, true, false, false⟩, false, 0⟩

/-- `SdDescriptor`, the record `EMMC_CARD`: the fields the driver's control
flow reads.  The CID, the CSD, the capacity and the last command only feed
the log. -/
structure SdDescriptor where
  scr : Nat
  emmcCardType : SdCardType
  rca : Nat
  ocr : Nat
  status : Nat
  deriving DecidableEq, Repr

/-! ## The controller -/

/-- The reads the driver makes, each a register or a wait loop that polls
one. -/
inductive Query where
  /-- The loop of `emmc_wait_for_command`: did `CMD_INHIBIT` clear or an
  error flag come up before the time-out; and `INTERRUPT` after the loop. -/
  | cmdInhibit
  /-- The loop of `emmc_wait_for_data`, on `DAT_INHIBIT`. -/
  | datInhibit
  /-- The loop of `emmc_wait_for_interrupt`: did a flag of the mask or an
  error flag come up before the time-out; and `INTERRUPT` after the loop. -/
  | interrupt (mask : Nat)
  /-- `RESP0`. -/
  | resp0
  /-- `DATA`. -/
  | data
  /-- One read of `STATUS.READ_TRANSFER`. -/
  | readTransfer
  /-- The loop on `CONTROL1.CLK_STABLE`: did it come up before the time-out? -/
  | clkStable
  /-- The loop on `CONTROL1.SRST_HC`: did it clear before the time-out? -/
  | srstHc
  /-- One read of `STATUS.CMD_INHIBIT`. -/
  | cmdInhibitFlag
  /-- One read of `STATUS.DAT_INHIBIT`. -/
  | datInhibitFlag
  /-- `timer_freq()`: bits 31:0 of `CNTFRQ_EL0`, the counter's frequency. -/
  | timerFreq
  deriving DecidableEq, Repr

/-- An answer: the condition or flag read, and the value of the 32-bit
register. -/
structure Answer where
  ready : Bool
  value : Nat
  value_lt : value < 2 ^ 32
  deriving DecidableEq

/-- What the driver did, in order. -/
inductive Event where
  /-- `ARG1` and then `CMDTM` written: a command sent to the card. -/
  | command (code : Cmdtm) (arg : Nat)
  /-- A word written to `DATA`. -/
  | dataWrite (word : Nat)
  /-- A read and its answer. -/
  | read (q : Query) (a : Answer)
  deriving DecidableEq

/-- The commands of a transcript. -/
def commands : List Event → List (Cmdtm × Nat)
  | [] => []
  | .command code arg :: t => (code, arg) :: commands t
  | _ :: t => commands t

@[simp] theorem commands_nil : commands [] = [] := rfl

@[simp] theorem commands_append (t u : List Event) : commands (t ++ u) = commands t ++ commands u := by
  induction t with
  | nil => rfl
  | cons e t ih =>
      cases e <;> simp [commands, ih]

@[simp] theorem commands_read (q : Query) (a : Answer) (t : List Event) :
    commands (.read q a :: t) = commands t := rfl

@[simp] theorem commands_command (code : Cmdtm) (arg : Nat) (t : List Event) :
    commands (.command code arg :: t) = (code, arg) :: commands t := rfl

@[simp] theorem commands_dataWrite (w : Nat) (t : List Event) :
    commands (.dataWrite w :: t) = commands t := rfl

/-- Whether an event moves a data word. -/
def Event.isData : Event → Bool
  | .dataWrite _ => true
  | .read .data _ => true
  | _ => false

/-- The words read from `DATA`, in order. -/
def dataReads (t : List Event) : List Nat :=
  t.filterMap fun
    | .read .data a => some a.value
    | _ => none

/-- The words written to `DATA`, in order. -/
def dataWrites (t : List Event) : List Nat :=
  t.filterMap fun
    | .dataWrite w => some w
    | _ => none

@[simp] theorem dataReads_append (t u : List Event) : dataReads (t ++ u) = dataReads t ++ dataReads u :=
  List.filterMap_append

@[simp] theorem dataWrites_append (t u : List Event) :
    dataWrites (t ++ u) = dataWrites t ++ dataWrites u :=
  List.filterMap_append

/-- Every word read from `DATA` has 32 bits. -/
theorem lt_of_mem_dataReads {t : List Event} {w : Nat} (h : w ∈ dataReads t) : w < 2 ^ 32 := by
  obtain ⟨e, -, he⟩ := List.mem_filterMap.1 h
  match e, he with
  | .read .data a, he => exact Option.some.inj he ▸ a.value_lt

theorem dataReads_eq_nil {t : List Event} (h : ∀ e ∈ t, e.isData = false) : dataReads t = [] := by
  refine List.filterMap_eq_nil_iff.2 fun e he => ?_
  have := h e he
  cases e with
  | read q a => cases q <;> simp_all [Event.isData]
  | _ => rfl

/-- The controller and the card: the answer to each read, given the
transcript before it. -/
def Hw : Type := List Event → Query → Answer

/-- An `EMMCController` with the record `EMMC_CARD`: the card's state as the
driver knows it, and the transcript. -/
structure Driver where
  card : SdDescriptor
  trace : List Event

/-- The driver's code: it changes its state and can panic. -/
abbrev DriverM := StateT Driver Option

/-- The state after the read `q`. -/
def Driver.afterRead (s : Driver) (hw : Hw) (q : Query) : Driver :=
  { s with trace := s.trace ++ [.read q (hw s.trace q)] }

/-- The state after the command `code` with `arg` went out. -/
def Driver.afterCommand (s : Driver) (code : Cmdtm) (arg : Nat) : Driver :=
  { s with trace := s.trace ++ [.command code arg] }

/-- One read: the controller's answer after what the driver did so far. -/
def observe (hw : Hw) (q : Query) : DriverM Answer := fun s =>
  some (hw s.trace q, s.afterRead hw q)

/-- `ARG1` and then `CMDTM`. -/
def issue (code : Cmdtm) (arg : Nat) : DriverM Unit := fun s =>
  some ((), s.afterCommand code arg)

/-- The state after the word `w` was written to `DATA`. -/
def Driver.afterWrite (s : Driver) (w : Nat) : Driver :=
  { s with trace := s.trace ++ [.dataWrite w] }

/-- `DATA`, written. -/
def writeData (w : Nat) : DriverM Unit := fun s =>
  some ((), s.afterWrite w)

/-- `EMMC_CARD`, read. -/
def card : DriverM SdDescriptor := fun s => some (s.card, s)

/-- `EMMC_CARD`, updated. -/
def setCard (f : SdDescriptor → SdDescriptor) : DriverM Unit := fun s =>
  some ((), { s with card := f s.card })

@[simp] theorem run_observe (hw : Hw) (q : Query) (s : Driver) :
    (observe hw q).run s = some (hw s.trace q, s.afterRead hw q) := rfl

@[simp] theorem run_issue (code : Cmdtm) (arg : Nat) (s : Driver) :
    (issue code arg).run s = some ((), s.afterCommand code arg) := rfl

@[simp] theorem run_writeData (w : Nat) (s : Driver) : (writeData w).run s = some ((), s.afterWrite w) :=
  rfl

@[simp] theorem run_card (s : Driver) : card.run s = some (s.card, s) := rfl

@[simp] theorem run_setCard (f : SdDescriptor → SdDescriptor) (s : Driver) :
    (setCard f).run s = some ((), { s with card := f s.card }) := rfl

@[simp] theorem afterRead_trace (s : Driver) (hw : Hw) (q : Query) :
    (s.afterRead hw q).trace = s.trace ++ [.read q (hw s.trace q)] := rfl

@[simp] theorem afterRead_card (s : Driver) (hw : Hw) (q : Query) : (s.afterRead hw q).card = s.card :=
  rfl

/-- A transcript continued after a read: the read, then the rest. -/
theorem afterRead_trace_append (s : Driver) (hw : Hw) (q : Query) (u : List Event) :
    (s.afterRead hw q).trace ++ u = s.trace ++ (.read q (hw s.trace q) :: u) := by
  simp

@[simp] theorem afterWrite_trace (s : Driver) (w : Nat) : (s.afterWrite w).trace = s.trace ++ [.dataWrite w] :=
  rfl

@[simp] theorem afterCommand_card (s : Driver) (code : Cmdtm) (arg : Nat) :
    (s.afterCommand code arg).card = s.card := rfl

@[simp] theorem afterCommand_trace (s : Driver) (code : Cmdtm) (arg : Nat) :
    (s.afterCommand code arg).trace = s.trace ++ [.command code arg] := rfl

/-! ## Control traffic -/

/-- `s'` follows `s` by the control traffic `t`: no data word moved, the
commands sent were `cs`, and the card's type and SCR stayed as they were. -/
structure ControlRun (s s' : Driver) (t : List Event) (cs : List (Cmdtm × Nat)) : Prop where
  trace_eq : s'.trace = s.trace ++ t
  control : ∀ e ∈ t, e.isData = false
  sent : commands t = cs
  scr_eq : s'.card.scr = s.card.scr
  cardType_eq : s'.card.emmcCardType = s.card.emmcCardType

theorem ControlRun.refl (s : Driver) : ControlRun s s [] [] :=
  ⟨by simp, by simp, rfl, rfl, rfl⟩

theorem ControlRun.trans {s₁ s₂ s₃ : Driver} {t u : List Event} {cs ds : List (Cmdtm × Nat)}
    (h₁ : ControlRun s₁ s₂ t cs) (h₂ : ControlRun s₂ s₃ u ds) : ControlRun s₁ s₃ (t ++ u) (cs ++ ds) := by
  refine ⟨by rw [h₂.trace_eq, h₁.trace_eq, List.append_assoc], fun e he => ?_, by
    rw [commands_append, h₁.sent, h₂.sent], by rw [h₂.scr_eq, h₁.scr_eq], by rw [h₂.cardType_eq, h₁.cardType_eq]⟩
  rcases List.mem_append.1 he with he | he
  · exact h₁.control e he
  · exact h₂.control e he

/-- A read of a register other than `DATA`. -/
theorem ControlRun.read {hw : Hw} (s : Driver) {q : Query} (hq : q ≠ .data) :
    ControlRun s (s.afterRead hw q) [.read q (hw s.trace q)] [] := by
  refine ⟨by simp, ?_, rfl, rfl, rfl⟩
  intro e he
  rw [List.mem_singleton] at he
  subst he
  cases q <;> first | exact absurd rfl hq | rfl

/-! ## Waiting for the controller -/

def intCmdDone : Nat := 0x00000001
def intDataDone : Nat := 0x00000002
def intWriteRdy : Nat := 0x00000010
def intReadRdy : Nat := 0x00000020
def intErr : Nat := 0x00008000
def intCmdTimeout : Nat := 0x00010000
def intCrcError : Nat := 0x00020000
def intEndError : Nat := 0x00040000
def intIndexError : Nat := 0x00080000
def intDataTimeout : Nat := 0x00100000
def intDataCrcErr : Nat := 0x00200000
def intDataEndErr : Nat := 0x00400000
def intAutoError : Nat := 0x01000000

def intErrorMask : Nat :=
  intCrcError ||| intEndError ||| intIndexError ||| intDataTimeout ||| intDataCrcErr |||
    intDataEndErr ||| intErr ||| intAutoError

/-- Whether `tick_difference` ever moves at the counter frequency `freq`:
whether the counter runs at 1 GHz or more. -/
def tickDifferenceMoves (freq : Nat) : Bool := freq / 1000000000 != 0

variable (hw : Hw)

/-- A polling loop of the driver, ended by the controller.  Its answer says
whether the condition the loop polls came up before the time-out.  If it did
not, the loop ran on until `tick_difference` from its first reading of the
counter reached the loop's limit, which a counter that does not move it
never does (`tickDifference_reaches_iff`): then the loop spins for ever. -/
def waitLoop (q : Query) : DriverM Answer := do
  let a ← observe hw q
  if a.ready then return a
  if tickDifferenceMoves (← observe hw .timerFreq).value then return a
  failure

/-- A wait on an inhibit flag found it clear: the loop ended before its
time-out, and `INTERRUPT`, read after it, has no error flag. -/
def inhibitCleared (a : Answer) : Bool :=
  a.ready && a.value &&& intErrorMask == 0

/-- The body `emmc_wait_for_command` and `emmc_wait_for_data` share: the
loop on the inhibit flag `q`, then `EMMC_BUSY` when it timed out or an error
flag is up. -/
def waitForInhibit (q : Query) : DriverM SdResult := do
  let a ← waitLoop hw q
  pure (if inhibitCleared a then .emmcOk else .emmcBusy)

/-- `emmc_wait_for_command`: the loop on `CMD_INHIBIT`, for a second. -/
def emmcWaitForCommand : DriverM SdResult :=
  waitForInhibit hw .cmdInhibit

/-- `emmc_wait_for_data`: the loop on `DAT_INHIBIT`, for half a second. -/
def emmcWaitForData : DriverM SdResult :=
  waitForInhibit hw .datInhibit

/-- How `emmc_wait_for_interrupt` reads `INTERRUPT` after its loop. -/
def interruptResult (ready : Bool) (ival : Nat) : SdResult :=
  if ready = false ∨ ival &&& intCmdTimeout ≠ 0 ∨ ival &&& intDataTimeout ≠ 0 then .emmcTimeout
  else if ival &&& intErrorMask ≠ 0 then .emmcError
  else .emmcOk

/-- `emmc_wait_for_interrupt`: the loop on the flags of `mask` and the
error flags, for a second. -/
def emmcWaitForInterrupt (mask : Nat) : DriverM SdResult := do
  let a ← waitLoop hw (.interrupt mask)
  pure (interruptResult a.ready a.value)

section WaitRuns

variable {hw} {q : Query} {s : Driver}

/-- How a wait loop ends: after the one read when its condition came up;
after reading the counter's frequency when it timed out; and never when
that frequency does not move `tick_difference`. -/
theorem run_waitLoop (q : Query) (s : Driver) :
    (waitLoop hw q).run s =
      if (hw s.trace q).ready = true then some (hw s.trace q, s.afterRead hw q)
      else if tickDifferenceMoves (hw (s.afterRead hw q).trace .timerFreq).value = true then
        some (hw s.trace q, (s.afterRead hw q).afterRead hw .timerFreq)
      else none := by
  unfold waitLoop
  rw [StateOption.run_bind_of_some (run_observe hw q s)]
  cases (hw s.trace q).ready
  case true => simp
  case false =>
    simp only [Bool.false_eq_true, if_false, StateOption.run_bind_of_some (run_observe hw .timerFreq _)]
    split <;> simp

/-- A wait loop whose condition came up returns after the one read. -/
theorem run_waitLoop_of_ready (h : (hw s.trace q).ready = true) :
    (waitLoop hw q).run s = some (hw s.trace q, s.afterRead hw q) := by
  rw [run_waitLoop, if_pos h]

/-- A wait loop that returned hands on the controller's answer, after
reads only: the one of `q`, and, if it timed out, the counter's
frequency. -/
theorem waitLoop_eq_some {a : Answer} {s' : Driver} (h : (waitLoop hw q).run s = some (a, s'))
    (hq : q ≠ .data) :
    a = hw s.trace q ∧ ((hw s.trace q).ready = true → s' = s.afterRead hw q) ∧ s'.card = s.card ∧
      ∃ t, ControlRun s s' t [] := by
  rw [run_waitLoop] at h
  cases hr : (hw s.trace q).ready
  case true =>
    rw [if_pos hr, Option.some.injEq, Prod.mk.injEq] at h
    obtain ⟨rfl, rfl⟩ := h
    exact ⟨rfl, fun _ => rfl, rfl, _, ControlRun.read s hq⟩
  case false =>
    rw [if_neg (by simp [hr])] at h
    split at h
    · rw [Option.some.injEq, Prod.mk.injEq] at h
      obtain ⟨rfl, rfl⟩ := h
      exact ⟨rfl, nofun, rfl, _, (ControlRun.read s hq).trans (ControlRun.read _ nofun)⟩
    · cases h

/-- `emmc_wait_for_command` and `emmc_wait_for_data` return OK exactly when
the flag cleared with no error flag up, after the one read; every way they
return reads registers only. -/
theorem waitForInhibit_eq_some {r : SdResult} {s' : Driver} (h : (waitForInhibit hw q).run s = some (r, s'))
    (hq : q ≠ .data) :
    (r = .emmcOk ↔ inhibitCleared (hw s.trace q) = true) ∧ (r = .emmcOk → s' = s.afterRead hw q) ∧
      s'.card = s.card ∧ ∃ t, ControlRun s s' t [] := by
  rw [waitForInhibit] at h
  obtain ⟨a, hloop, rfl⟩ := StateOption.run_map_eq_some h
  obtain ⟨rfl, hs, hcard, hctl⟩ := waitLoop_eq_some hloop hq
  have hok : (if inhibitCleared (hw s.trace q) then SdResult.emmcOk else .emmcBusy) = .emmcOk ↔
      inhibitCleared (hw s.trace q) = true := by
    split <;> simp_all
  refine ⟨hok, fun h => hs ?_, hcard, hctl⟩
  have hc := hok.1 h
  simp only [inhibitCleared, Bool.and_eq_true] at hc
  exact hc.1

/-- Past `if emmc_wait_for_data() != EMMC_OK { return early }`, a call
that did not return `early` found the data line free at the one read. -/
theorem run_waitForData_bind {α : Type} {early a : α} {k : DriverM α} {s' : Driver} (ha : a ≠ early)
    (h : (emmcWaitForData hw >>= fun r => if r ≠ .emmcOk then pure early else k).run s = some (a, s')) :
    inhibitCleared (hw s.trace .datInhibit) = true ∧ k.run (s.afterRead hw .datInhibit) = some (a, s') := by
  rw [emmcWaitForData, StateOption.run_bind_eq_some] at h
  obtain ⟨r, s₁, hwait, h⟩ := h
  obtain ⟨hok, hs₁, -⟩ := waitForInhibit_eq_some hwait nofun
  by_cases hr : r = .emmcOk
  · rw [if_neg (not_not.2 hr), hs₁ hr] at h
    exact ⟨hok.1 hr, h⟩
  · rw [if_pos hr, StateOption.run_pure_some, Option.some.injEq, Prod.mk.injEq] at h
    exact absurd h.1.symm ha

theorem run_waitForInhibit_of_cleared (h : inhibitCleared (hw s.trace q) = true) :
    (waitForInhibit hw q).run s = some (.emmcOk, s.afterRead hw q) := by
  have hr : (hw s.trace q).ready = true := by
    simp only [inhibitCleared, Bool.and_eq_true] at h
    exact h.1
  simp [waitForInhibit, run_waitLoop_of_ready hr, h]

/-- `interruptResult` is OK only for a loop that ended before its
time-out. -/
theorem ready_of_interruptResult {ready : Bool} {ival : Nat} (h : interruptResult ready ival = .emmcOk) :
    ready = true := by
  cases ready
  · simp [interruptResult] at h
  · rfl

/-- `emmc_wait_for_interrupt` returns what `interruptResult` makes of the
controller's answer, after reads only, and OK only after the one read. -/
theorem waitForInterrupt_eq_some {mask : Nat} {r : SdResult} {s' : Driver}
    (h : (emmcWaitForInterrupt hw mask).run s = some (r, s')) :
    r = interruptResult (hw s.trace (.interrupt mask)).ready (hw s.trace (.interrupt mask)).value ∧
      (r = .emmcOk → s' = s.afterRead hw (.interrupt mask)) ∧ s'.card = s.card ∧ ∃ t, ControlRun s s' t [] := by
  rw [emmcWaitForInterrupt] at h
  obtain ⟨a, hloop, rfl⟩ := StateOption.run_map_eq_some h
  obtain ⟨rfl, hs, hcard, hctl⟩ := waitLoop_eq_some hloop nofun
  exact ⟨rfl, fun h => hs (ready_of_interruptResult h), hcard, hctl⟩

theorem run_emmcWaitForInterrupt_of_ready {mask : Nat} (h : (hw s.trace (.interrupt mask)).ready = true) :
    (emmcWaitForInterrupt hw mask).run s =
      some (interruptResult true (hw s.trace (.interrupt mask)).value, s.afterRead hw (.interrupt mask)) := by
  simp [emmcWaitForInterrupt, run_waitLoop_of_ready h, h]

end WaitRuns

/-! ## One command -/

def r1ErrorsMask : Nat := 0xfff9c004
def stAppCmd : Nat := 0x00000020

/-- The result a card status gives: its R1 error bits, if any. -/
def cardStatusResult (status : Nat) : SdResult :=
  if status &&& r1ErrorsMask = 0 then .emmcOk else .emmcCardState (status &&& r1ErrorsMask)

/-- The card status in the response to `SEND_REL_ADDR`: bits 12:0 as they
are, bits 13, 14 and 15 moved to 19, 22 and 23. -/
def relAddrStatus (resp0 : Nat) : Nat :=
  (resp0 &&& 0x00001fff) ||| ((resp0 &&& 0x00002000) <<< 6) |||
    ((resp0 &&& 0x00004000) <<< 8) ||| ((resp0 &&& 0x00008000) <<< 8)

/-- `emmc_debug_response`: logs the registers and returns its argument. -/
@[simp] def emmcDebugResponse (resp : SdResult) : SdResult := resp

/-- How `emmc_sendcommand_p` reads the response `resp0` to `cmd`, sent with
`arg`: what it stores in `EMMC_CARD`, and what it returns. -/
def handleResponse (cmd : EMMCCommand) (arg resp0 : Nat) (c : SdDescriptor) :
    SdDescriptor × SdResult :=
  match cmd.cmdCode.cmdRspnsType with
  | .cmdNoResp => (c, .emmcOk)
  | .cmdBusy48bitResp => ({ c with status := resp0 }, cardStatusResult resp0)
  | .cmd48bitResp =>
      -- SEND_REL_ADDR: the RCA, and a status in another layout
      if cmd.cmdCode.cmdIndex = 0x03 then
        ({ c with rca := resp0 &&& 0xffff0000, status := relAddrStatus resp0 },
          cardStatusResult (relAddrStatus resp0))
      -- SEND_IF_COND: the check pattern comes back
      else if cmd.cmdCode.cmdIndex = 0x08 then
        ({ c with status := 0 }, if resp0 = arg then .emmcOk else .emmcError)
      -- APP_SEND_OP_COND: the OCR
      else if cmd.cmdCode.cmdIndex = 0x29 then
        ({ c with status := 0, ocr := resp0 }, .emmcOk)
      else ({ c with status := resp0 }, cardStatusResult resp0)
  | .cmd136bitResp => ({ c with status := 0 }, .emmcOk)

/-- `emmc_sendcommand_p`: wait for the command line, send, wait for
`CMD_DONE`, and read the response. -/
def emmcSendcommandP (cmd : EMMCCommand) (arg : Nat) : DriverM SdResult := do
  if (← emmcWaitForCommand hw) ≠ .emmcOk then return .emmcBusy
  issue cmd.cmdCode arg
  let res ← emmcWaitForInterrupt hw intCmdDone
  if res ≠ .emmcOk then return res
  let resp0 := (← observe hw .resp0).value
  let (c, result) := handleResponse cmd arg resp0 (← card)
  setCard fun _ => c
  return result

/-- `emmc_send_app_command`: `APP_CMD` with no RCA, its result ignored, or
`APP_CMD_RCA` with the RCA, checked. -/
def emmcSendAppCommand : DriverM SdResult := do
  let rca := (← card).rca
  if rca = 0 then
    let cmd ← liftM SdCardCommands.appCmd.getCmd
    let _ ← emmcSendcommandP hw cmd 0
    return .emmcOk
  let cmd ← liftM SdCardCommands.appCmdRca.getCmd
  let resp ← emmcSendcommandP hw cmd rca
  if resp ≠ .emmcOk then return emmcDebugResponse resp
  if (← card).status &&& stAppCmd = 0 then return .emmcError
  return .emmcOk

/-- The body `emmc_send_command` and `emmc_send_command_a` share, with the
argument chosen from the command and the card record. -/
def sendCommandWith (cmdType : SdCardCommands) (argOf : EMMCCommand → SdDescriptor → Nat) :
    DriverM SdResult := do
  let resp ← (if cmdType.IsApp then emmcSendAppCommand hw else pure .emmcOk)
  if resp ≠ .emmcOk then return emmcDebugResponse resp
  let cmd ← liftM cmdType.getCmd
  let resp ← emmcSendcommandP hw cmd (argOf cmd (← card))
  if resp ≠ .emmcOk then return resp
  let c ← card
  if cmdType.IsApp ∧ c.rca ≠ 0 ∧ c.status &&& stAppCmd = 0 then return .emmcErrorAppCmd
  return resp

/-- `emmc_send_command`: the RCA as argument where the command uses one. -/
def emmcSendCommand (cmdType : SdCardCommands) : DriverM SdResult :=
  sendCommandWith hw cmdType fun cmd c => if cmd.useRca then c.rca else 0

/-- `emmc_send_command_a`: the argument given. -/
def emmcSendCommandA (cmdType : SdCardCommands) (arg : Nat) : DriverM SdResult :=
  sendCommandWith hw cmdType fun _ _ => arg

/-! ## What one command does

`emmc_sendcommand_p` has three ways out: the command line stayed busy and
nothing was sent; the command went out but `CMD_DONE` did not come up
cleanly; or the response was read and handled.  Every caller's proof goes
through these three lemmas. -/

/-- Where `emmc_sendcommand_p` stands once the command went out. -/
def Driver.sent (s : Driver) (code : Cmdtm) (arg : Nat) : Driver :=
  (s.afterRead hw .cmdInhibit).afterCommand code arg

/-- Where `emmc_sendcommand_p` stands after waiting for `CMD_DONE`. -/
def Driver.afterSend (s : Driver) (code : Cmdtm) (arg : Nat) : Driver :=
  (s.sent hw code arg).afterRead hw (.interrupt intCmdDone)

/-- Where `emmc_sendcommand_p` ends once it read the response and
handled it. -/
def Driver.afterResponse (s : Driver) (cmd : EMMCCommand) (arg : Nat) : Driver :=
  { (s.afterSend hw cmd.cmdCode arg).afterRead hw .resp0 with
    card := (handleResponse cmd arg (hw (s.afterSend hw cmd.cmdCode arg).trace .resp0).value s.card).1 }

/-- The outcome of the wait for `CMD_DONE` after the transcript `t`. -/
def cmdDoneResult (t : List Event) : SdResult :=
  interruptResult (hw t (.interrupt intCmdDone)).ready (hw t (.interrupt intCmdDone)).value

@[simp] theorem sent_trace (s : Driver) (code : Cmdtm) (arg : Nat) :
    (s.sent hw code arg).trace = s.trace ++ [.read .cmdInhibit (hw s.trace .cmdInhibit), .command code arg] := by
  simp [Driver.sent]

@[simp] theorem sent_card (s : Driver) (code : Cmdtm) (arg : Nat) : (s.sent hw code arg).card = s.card :=
  rfl

@[simp] theorem afterSend_trace (s : Driver) (code : Cmdtm) (arg : Nat) :
    (s.afterSend hw code arg).trace =
      s.trace ++ [.read .cmdInhibit (hw s.trace .cmdInhibit), .command code arg,
        .read (.interrupt intCmdDone) (hw (s.sent hw code arg).trace (.interrupt intCmdDone))] := by
  simp [Driver.afterSend, Driver.sent]

@[simp] theorem afterSend_card (s : Driver) (code : Cmdtm) (arg : Nat) :
    (s.afterSend hw code arg).card = s.card := rfl

@[simp] theorem afterResponse_card (s : Driver) (cmd : EMMCCommand) (arg : Nat) :
    (s.afterResponse hw cmd arg).card =
      (handleResponse cmd arg (hw (s.afterSend hw cmd.cmdCode arg).trace .resp0).value s.card).1 := rfl

@[simp] theorem afterResponse_trace (s : Driver) (cmd : EMMCCommand) (arg : Nat) :
    (s.afterResponse hw cmd arg).trace =
      s.trace ++ [.read .cmdInhibit (hw s.trace .cmdInhibit), .command cmd.cmdCode arg,
        .read (.interrupt intCmdDone) (hw (s.sent hw cmd.cmdCode arg).trace (.interrupt intCmdDone)),
        .read .resp0 (hw (s.afterSend hw cmd.cmdCode arg).trace .resp0)] := by
  simp [Driver.afterResponse, Driver.afterSend, Driver.sent]

variable {hw} {cmd : EMMCCommand} {arg : Nat} {s : Driver}

/-- The response was read, and `handleResponse` says what came of it. -/
theorem sendcommandP_of_done (h₀ : inhibitCleared (hw s.trace .cmdInhibit) = true)
    (h₁ : cmdDoneResult hw (s.sent hw cmd.cmdCode arg).trace = .emmcOk) :
    (emmcSendcommandP hw cmd arg).run s =
      some ((handleResponse cmd arg (hw (s.afterSend hw cmd.cmdCode arg).trace .resp0).value s.card).2,
        s.afterResponse hw cmd arg) := by
  have hready : (hw (s.sent hw cmd.cmdCode arg).trace (.interrupt intCmdDone)).ready = true :=
    ready_of_interruptResult h₁
  have hint : (emmcWaitForInterrupt hw intCmdDone).run (s.sent hw cmd.cmdCode arg) =
      some (.emmcOk, s.afterSend hw cmd.cmdCode arg) := by
    simp only [cmdDoneResult, hready] at h₁
    rw [run_emmcWaitForInterrupt_of_ready hready, h₁]
    rfl
  rw [emmcSendcommandP, emmcWaitForCommand, StateOption.run_bind_of_some (run_waitForInhibit_of_cleared h₀),
    if_neg (not_not.2 rfl), StateOption.run_bind_of_some (run_issue _ _ _),
    show (s.afterRead hw .cmdInhibit).afterCommand cmd.cmdCode arg = s.sent hw cmd.cmdCode arg from rfl,
    StateOption.run_bind_of_some hint, if_neg (not_not.2 rfl)]
  simp [Driver.afterResponse]

/-- The three ways `emmc_sendcommand_p` returns: the command line stayed
busy and nothing was sent; the command went out but `CMD_DONE` did not come
up cleanly; or the response was read and handled.  Every caller's proof goes
through them. -/
theorem sendcommandP_cases {r : SdResult} {s' : Driver} (h : (emmcSendcommandP hw cmd arg).run s = some (r, s')) :
    (inhibitCleared (hw s.trace .cmdInhibit) = false ∧ r = .emmcBusy ∧ ∃ t, ControlRun s s' t []) ∨
      (inhibitCleared (hw s.trace .cmdInhibit) = true ∧ r ≠ .emmcOk ∧
        ∃ t, ControlRun s s' t [(cmd.cmdCode, arg)]) ∨
      (inhibitCleared (hw s.trace .cmdInhibit) = true ∧ cmdDoneResult hw (s.sent hw cmd.cmdCode arg).trace = .emmcOk ∧
        r = (handleResponse cmd arg (hw (s.afterSend hw cmd.cmdCode arg).trace .resp0).value s.card).2 ∧
        s' = s.afterResponse hw cmd arg) := by
  have hrun := h
  rw [emmcSendcommandP, emmcWaitForCommand, StateOption.run_bind_eq_some] at h
  obtain ⟨w, s₁, hwait, h⟩ := h
  obtain ⟨hw_ok, hs₁, -, t₁, hc₁⟩ := waitForInhibit_eq_some hwait nofun
  by_cases hw₀ : w = .emmcOk
  case neg =>
    rw [if_pos hw₀, StateOption.run_pure_some, Option.some.injEq, Prod.mk.injEq] at h
    obtain ⟨rfl, rfl⟩ := h
    exact Or.inl ⟨by simpa using mt hw_ok.2 hw₀, rfl, t₁, hc₁⟩
  case pos =>
    subst hw₀
    have hfree := hw_ok.1 rfl
    obtain rfl := hs₁ rfl
    rw [if_neg (not_not.2 rfl), StateOption.run_bind_of_some (run_issue _ _ _),
      StateOption.run_bind_eq_some] at h
    obtain ⟨res, s₂, hint, h⟩ := h
    obtain ⟨hres, hs₂, -, t₂, hc₂⟩ := waitForInterrupt_eq_some hint
    by_cases hres₀ : res = .emmcOk
    case neg =>
      rw [if_pos hres₀, StateOption.run_pure_some, Option.some.injEq, Prod.mk.injEq] at h
      obtain ⟨rfl, rfl⟩ := h
      have hsent : ControlRun s ((s.afterRead hw .cmdInhibit).afterCommand cmd.cmdCode arg)
          [.read .cmdInhibit (hw s.trace .cmdInhibit), .command cmd.cmdCode arg] [(cmd.cmdCode, arg)] :=
        ⟨by simp, by simp [Event.isData], rfl, rfl, rfl⟩
      exact Or.inr (Or.inl ⟨hfree, hres₀, _, hsent.trans hc₂⟩)
    case pos =>
      subst hres₀
      have hdone : cmdDoneResult hw (s.sent hw cmd.cmdCode arg).trace = .emmcOk := hres.symm
      rw [sendcommandP_of_done hfree hdone, Option.some.injEq, Prod.mk.injEq] at hrun
      exact Or.inr (Or.inr ⟨hfree, hdone, hrun.1.symm, hrun.2.symm⟩)

/-- The code `get_cmd` gives `APP_CMD_RCA`: CMD55 with a 48-bit response. -/
def appCmdRcaCode : Cmdtm := ⟨0x37, .cmd48bitResp, false, false, false, false⟩

theorem getCmd_appCmdRca : SdCardCommands.appCmdRca.getCmd = some ⟨appCmdRcaCode, true, 0⟩ := rfl

/-- The response to `APP_CMD_RCA` is the card status. -/
@[simp] theorem handleResponse_appCmdRca (arg v : Nat) (c : SdDescriptor) :
    handleResponse ⟨appCmdRcaCode, true, 0⟩ arg v c = ({ c with status := v }, cardStatusResult v) := by
  simp [handleResponse, appCmdRcaCode]

/-- `emmc_send_app_command` with an RCA returns OK only when
`APP_CMD_RCA` went out and the card's answer has the `APP_CMD` bit;
otherwise it sent at most the prefix. -/
theorem sendAppCommand_of_rca {r : SdResult} {s' : Driver} (hrca : s.card.rca ≠ 0)
    (h : (emmcSendAppCommand hw).run s = some (r, s')) :
    ∃ t, s'.trace = s.trace ++ t ∧
      (r ≠ .emmcOk ∧ (commands t = [] ∨ commands t = [(appCmdRcaCode, s.card.rca)]) ∨
        r = .emmcOk ∧ ∃ t₁ v, t = t₁ ++ [.read .resp0 v] ∧
          commands t₁ = [(appCmdRcaCode, s.card.rca)] ∧ v.value &&& stAppCmd ≠ 0 ∧
          s'.card = { s.card with status := v.value }) := by
  simp [emmcSendAppCommand, hrca, getCmd_appCmdRca] at h
  cases hsend : (emmcSendcommandP hw ⟨appCmdRcaCode, true, 0⟩ s.card.rca).run s with
  | none => simp [hsend] at h
  | some p =>
  obtain ⟨resp, s₁⟩ := p
  rw [hsend] at h
  rcases sendcommandP_cases hsend with ⟨-, rfl, t, hc⟩ | ⟨-, hne, t, hc⟩ | ⟨-, -, rfl, rfl⟩
  · simp only [Option.bind_some] at h
    simp at h
    obtain ⟨rfl, rfl⟩ := h
    exact ⟨t, hc.trace_eq, Or.inl ⟨by simp, Or.inl hc.sent⟩⟩
  · simp [hne] at h
    obtain ⟨rfl, rfl⟩ := h
    exact ⟨t, hc.trace_eq, Or.inl ⟨hne, Or.inr hc.sent⟩⟩
  · simp only [Option.bind_some, handleResponse_appCmdRca] at h
    split at h
    · simp only [StateT.run_bind, run_card, Option.bind_eq_bind, Option.bind_some, afterResponse_card,
        handleResponse_appCmdRca] at h
      split at h <;> simp only [StateOption.run_pure_some, Option.some.injEq, Prod.mk.injEq] at h <;>
        obtain ⟨rfl, rfl⟩ := h
      · exact ⟨_, afterResponse_trace .., Or.inl ⟨by simp, Or.inr (by simp)⟩⟩
      · rename_i hbit
        exact ⟨_, afterResponse_trace .., Or.inr ⟨rfl, [_, _, _], _, rfl, by simp, hbit, by simp⟩⟩
    · rename_i hst
      simp only [StateOption.run_pure_some, Option.some.injEq, Prod.mk.injEq] at h
      obtain ⟨rfl, rfl⟩ := h
      exact ⟨_, afterResponse_trace .., Or.inl ⟨by simpa using hst, Or.inr (by simp)⟩⟩

/-- `emmc_sendcommand_p` sends its command exactly when the command line
came free, and nothing else. -/
theorem sendcommandP_commands {r : SdResult} {s' : Driver}
    (h : (emmcSendcommandP hw cmd arg).run s = some (r, s')) :
    ∃ t, s'.trace = s.trace ++ t ∧
      commands t = if inhibitCleared (hw s.trace .cmdInhibit) then [(cmd.cmdCode, arg)] else [] := by
  rcases sendcommandP_cases h with ⟨h0, -, t, hc⟩ | ⟨h0, -, t, hc⟩ | ⟨h0, -, -, rfl⟩
  · exact ⟨t, hc.trace_eq, by simp [h0, hc.sent]⟩
  · exact ⟨t, hc.trace_eq, by simp [h0, hc.sent]⟩
  · exact ⟨_, afterResponse_trace .., by simp [h0]⟩

/-- `emmc_send_command` in two parts: the prefix, and, when it returned
OK, the command itself with its argument chosen from the card record as the
prefix left it.  What follows the command only reads the record. -/
theorem sendCommandWith_eq_some {c : SdCardCommands} {argOf : EMMCCommand → SdDescriptor → Nat}
    {r : SdResult} {s' : Driver} (h : (sendCommandWith hw c argOf).run s = some (r, s')) :
    ∃ resp s₁, (if c.IsApp then emmcSendAppCommand hw else pure .emmcOk).run s = some (resp, s₁) ∧
      (resp ≠ .emmcOk ∧ s' = s₁ ∨
        resp = .emmcOk ∧ ∃ cmd resp', c.getCmd = some cmd ∧
          (emmcSendcommandP hw cmd (argOf cmd s₁.card)).run s₁ = some (resp', s')) := by
  unfold sendCommandWith at h
  rw [StateOption.run_bind_eq_some] at h
  obtain ⟨resp, s₁, hpre, h⟩ := h
  refine ⟨resp, s₁, hpre, ?_⟩
  by_cases hresp : resp = .emmcOk
  · subst hresp
    simp only [ne_eq, not_true_eq_false, if_false, StateOption.run_bind_eq_some, StateOption.run_liftM_map,
      Option.map_eq_some_iff, run_card, Option.some.injEq, Prod.mk.injEq] at h
    obtain ⟨_, _, ⟨cmd, hcmd, rfl, rfl⟩, _, _, ⟨rfl, rfl⟩, resp', s₂, hsend, htail⟩ := h
    have hs : s' = s₂ := by
      split at htail
      · simp at htail
        exact htail.2.symm
      · simp only [StateOption.run_bind_eq_some, run_card, Option.some.injEq, Prod.mk.injEq] at htail
        obtain ⟨_, _, ⟨rfl, rfl⟩, htail⟩ := htail
        split at htail <;> simp at htail <;> exact htail.2.symm
    subst hs
    exact Or.inr ⟨rfl, cmd, resp', hcmd, hsend⟩
  · simp only [ne_eq, hresp, not_false_eq_true, if_true, StateOption.run_pure_some, Option.some.injEq,
      Prod.mk.injEq] at h
    exact Or.inl ⟨hresp, h.2.symm⟩

variable {c : SdCardCommands} {argOf : EMMCCommand → SdDescriptor → Nat}

/-! ## Commands that returned OK -/

/-- No response changes the card's type or its SCR. -/
@[simp] theorem handleResponse_scr (cmd : EMMCCommand) (arg resp0 : Nat) (c : SdDescriptor) :
    (handleResponse cmd arg resp0 c).1.scr = c.scr := by
  unfold handleResponse
  split <;> (try split_ifs) <;> rfl

@[simp] theorem handleResponse_emmcCardType (cmd : EMMCCommand) (arg resp0 : Nat) (c : SdDescriptor) :
    (handleResponse cmd arg resp0 c).1.emmcCardType = c.emmcCardType := by
  unfold handleResponse
  split <;> (try split_ifs) <;> rfl

/-- `emmc_sendcommand_p` returned OK only after its command went out, by
control traffic. -/
theorem sendcommandP_ok {s' : Driver} (h : (emmcSendcommandP hw cmd arg).run s = some (.emmcOk, s')) :
    ∃ t, ControlRun s s' t [(cmd.cmdCode, arg)] := by
  rcases sendcommandP_cases h with ⟨-, hbusy, -⟩ | ⟨-, hfail, -⟩ | ⟨-, -, -, rfl⟩
  · cases hbusy
  · exact absurd rfl hfail
  · exact ⟨_, afterResponse_trace .., by simp [Event.isData], by simp, by simp, by simp⟩

/-- A command that is not an application command has no prefix and no check
after it: `emmc_send_command` is `emmc_sendcommand_p` with its argument. -/
theorem sendCommandWith_of_not_app {cmd : EMMCCommand} (hc : ¬ c.IsApp) (hcmd : c.getCmd = some cmd) :
    (sendCommandWith hw c argOf).run s = (emmcSendcommandP hw cmd (argOf cmd s.card)).run s := by
  simp only [sendCommandWith, hc, if_false, StateT.run_bind, StateOption.run_pure_some, Option.bind_eq_bind,
    Option.bind_some, ne_eq, not_true_eq_false, StateOption.run_liftM_map, hcmd, Option.map_some, run_card,
    false_and]
  cases (emmcSendcommandP hw cmd (argOf cmd s.card)).run s with
  | none => rfl
  | some p =>
      obtain ⟨r, s'⟩ := p
      by_cases hr : r = .emmcOk <;> simp [hr]

/-- An `emmc_send_command` that returned OK, of a command that is not an
application command, sent that command once. -/
theorem sendCommandWith_ok {s' : Driver} (hc : ¬ c.IsApp)
    (h : (sendCommandWith hw c argOf).run s = some (.emmcOk, s')) :
    ∃ cmd, c.getCmd = some cmd ∧ ∃ t, ControlRun s s' t [(cmd.cmdCode, argOf cmd s.card)] := by
  obtain ⟨resp, s₁, hpre, ⟨hne, -⟩ | ⟨-, cmd, -, hcmd, -⟩⟩ := sendCommandWith_eq_some h
  · rw [if_neg hc, StateOption.run_pure_some, Option.some.injEq, Prod.mk.injEq] at hpre
    exact absurd hpre.1.symm hne
  · rw [sendCommandWith_of_not_app hc hcmd] at h
    exact ⟨cmd, hcmd, sendcommandP_ok h⟩

/-! ## Control traffic only

The command layer never moves a data word.  `Appends P` says that a run
only added events satisfying `P` to the transcript; it is reflexive and
transitive, so `StateOption.Keeps` carries it through the code step by
step from `emmc_sendcommand_p` to its callers. -/

/-- The run from `s` to `s'` added only events satisfying `P`. -/
def Appends (P : Event → Prop) (s s' : Driver) : Prop :=
  ∃ t, s'.trace = s.trace ++ t ∧ ∀ e ∈ t, P e

theorem Appends.refl (P : Event → Prop) (s : Driver) : Appends P s s :=
  ⟨[], by simp, by simp⟩

theorem Appends.trans (P : Event → Prop) (s₁ s₂ s₃ : Driver) (h₁ : Appends P s₁ s₂)
    (h₂ : Appends P s₂ s₃) : Appends P s₁ s₃ := by
  obtain ⟨t, ht, hP⟩ := h₁
  obtain ⟨u, hu, hQ⟩ := h₂
  exact ⟨t ++ u, by rw [hu, ht, List.append_assoc], fun e he => (List.mem_append.1 he).elim (hP e) (hQ e)⟩

/-- Control traffic: commands and register reads, no data word. -/
abbrev Control : Driver → Driver → Prop := Appends fun e => e.isData = false

theorem card_control : Keeps Control card := by
  intro s c s' h
  rw [run_card, Option.some.injEq, Prod.mk.injEq] at h
  exact h.2 ▸ Appends.refl _ s

theorem sendcommandP_control (cmd : EMMCCommand) (arg : Nat) :
    Keeps Control (emmcSendcommandP hw cmd arg) := by
  intro s r s' h
  rcases sendcommandP_cases h with ⟨-, -, t, hc⟩ | ⟨-, -, t, hc⟩ | ⟨-, -, -, rfl⟩
  · exact ⟨t, hc.trace_eq, hc.control⟩
  · exact ⟨t, hc.trace_eq, hc.control⟩
  · exact ⟨_, afterResponse_trace .., by simp [Event.isData]⟩

theorem sendAppCommand_control : Keeps Control (emmcSendAppCommand hw) := by
  unfold emmcSendAppCommand
  refine Keeps.bind (Appends.trans _) card_control fun c => ?_
  refine Keeps.ite ?_ ?_
  · refine Keeps.bind (Appends.trans _) (Keeps.liftM (Appends.refl _) _) fun cmd => ?_
    exact Keeps.bind (Appends.trans _) (sendcommandP_control cmd 0) fun _ =>
      Keeps.pure (Appends.refl _) _
  · refine Keeps.bind (Appends.trans _) (Keeps.liftM (Appends.refl _) _) fun cmd => ?_
    refine Keeps.bind (Appends.trans _) (sendcommandP_control cmd _) fun resp => ?_
    refine Keeps.ite (Keeps.pure (Appends.refl _) _) ?_
    refine Keeps.bind (Appends.trans _) card_control fun c => ?_
    exact Keeps.ite (Keeps.pure (Appends.refl _) _)
      (Keeps.pure (Appends.refl _) _)

theorem sendCommandWith_control (c : SdCardCommands) (argOf : EMMCCommand → SdDescriptor → Nat) :
    Keeps Control (sendCommandWith hw c argOf) := by
  unfold sendCommandWith
  refine Keeps.bind (Appends.trans _)
    (Keeps.ite sendAppCommand_control (Keeps.pure (Appends.refl _) _)) fun resp => ?_
  refine Keeps.ite (Keeps.pure (Appends.refl _) _) ?_
  refine Keeps.bind (Appends.trans _) (Keeps.liftM (Appends.refl _) _) fun cmd => ?_
  refine Keeps.bind (Appends.trans _) card_control fun c' => ?_
  refine Keeps.bind (Appends.trans _) (sendcommandP_control cmd _) fun resp' => ?_
  refine Keeps.ite (Keeps.pure (Appends.refl _) _) ?_
  refine Keeps.bind (Appends.trans _) card_control fun c'' => ?_
  exact Keeps.ite (Keeps.pure (Appends.refl _) _) (Keeps.pure (Appends.refl _) _)

/-- The code `get_cmd` gives `APP_CMD`: CMD55 with no response. -/
def appCmdCode : Cmdtm := ⟨0x37, .cmdNoResp, false, false, false, false⟩

/-- Before the card has an RCA, `emmc_send_app_command` is `APP_CMD`
with its result dropped. -/
theorem sendAppCommand_of_zero (hrca : s.card.rca = 0) :
    (emmcSendAppCommand hw).run s =
      ((emmcSendcommandP hw (.plain 0x37 .cmdNoResp false 100) 0).run s).map fun p => (.emmcOk, p.2) := by
  simp only [emmcSendAppCommand, StateT.run_bind, run_card, Option.bind_eq_bind, Option.bind_some, hrca,
    if_true, StateOption.run_liftM_map, SdCardCommands.getCmd, Option.map_some, StateOption.run_pure_some]
  cases (emmcSendcommandP hw (.plain 0x37 .cmdNoResp false 100) 0).run s <;> rfl

/-- `emmc_send_app_command` sends at most one command: `APP_CMD` with 0
before the card has an RCA, `APP_CMD_RCA` with the RCA after. -/
theorem sendAppCommand_commands {r : SdResult} {s' : Driver}
    (h : (emmcSendAppCommand hw).run s = some (r, s')) :
    ∃ t, s'.trace = s.trace ++ t ∧
      (commands t).Sublist [(if s.card.rca = 0 then appCmdCode else appCmdRcaCode, s.card.rca)] := by
  by_cases hrca : s.card.rca = 0
  · rw [sendAppCommand_of_zero hrca, Option.map_eq_some_iff] at h
    obtain ⟨⟨_, s₂⟩, hsend, hret⟩ := h
    rw [Prod.mk.injEq] at hret
    obtain ⟨-, rfl⟩ := hret
    obtain ⟨u, hu, hucmds⟩ := sendcommandP_commands hsend
    refine ⟨u, hu, ?_⟩
    rw [hucmds, if_pos hrca, hrca]
    split
    · exact List.Sublist.refl _
    · exact List.nil_sublist _
  · obtain ⟨t, ht, ⟨-, hcmds⟩ | ⟨-, t₁, v, rfl, hcmds, -, -⟩⟩ := sendAppCommand_of_rca hrca h
    · refine ⟨t, ht, ?_⟩
      rcases hcmds with hcmds | hcmds <;> simp [hcmds, hrca]
    · exact ⟨_, ht, by simp [hcmds, hrca]⟩

/-- One `emmc_send_command` sends at most the prefix, and then at most the
command itself. -/
theorem sendCommandWith_commands {r : SdResult} {s' : Driver}
    (h : (sendCommandWith hw c argOf).run s = some (r, s')) :
    ∃ t, s'.trace = s.trace ++ t ∧ ∃ pre main, commands t = pre ++ main ∧
      pre.Sublist [(if s.card.rca = 0 then appCmdCode else appCmdRcaCode, s.card.rca)] ∧
      main.length ≤ 1 ∧ ∀ p ∈ main, ∃ cmd, c.getCmd = some cmd ∧ p.1 = cmd.cmdCode := by
  obtain ⟨resp, s₁, hpre, hrest⟩ := sendCommandWith_eq_some h
  -- the prefix: `emmc_send_app_command` for an application command, nothing otherwise
  have ⟨t, ht, hsub⟩ : ∃ t, s₁.trace = s.trace ++ t ∧
      (commands t).Sublist [(if s.card.rca = 0 then appCmdCode else appCmdRcaCode, s.card.rca)] := by
    split at hpre
    · exact sendAppCommand_commands hpre
    · rw [StateOption.run_pure_some, Option.some.injEq, Prod.mk.injEq] at hpre
      exact ⟨[], by rw [← hpre.2, List.append_nil], List.nil_sublist _⟩
  rcases hrest with ⟨-, rfl⟩ | ⟨-, cmd, resp', hcmd, hsend⟩
  · exact ⟨t, ht, commands t, [], by simp, hsub, by simp, by simp⟩
  · obtain ⟨u, hu, hucmds⟩ := sendcommandP_commands hsend
    refine ⟨t ++ u, by rw [hu, ht, List.append_assoc], commands t, commands u, by simp, hsub, ?_, ?_⟩
    · rw [hucmds]
      split <;> simp
    · intro p hp
      rw [hucmds] at hp
      split at hp
      · rw [List.mem_singleton] at hp
        exact ⟨cmd, hcmd, by rw [hp]⟩
      · cases hp

/-- Of a code other than the two prefixes', one `emmc_send_command` sends
at most one command. -/
theorem sendCommandWith_count_le_one {code : Cmdtm} (hcode : code ≠ appCmdCode ∧ code ≠ appCmdRcaCode)
    {r : SdResult} {s' : Driver} (h : (sendCommandWith hw c argOf).run s = some (r, s')) :
    ∃ t, s'.trace = s.trace ++ t ∧ (commands t).countP (fun p => p.1 = code) ≤ 1 := by
  obtain ⟨t, ht, pre, main, hcmds, hpre, hmain, -⟩ := sendCommandWith_commands h
  refine ⟨t, ht, ?_⟩
  have hpre0 : pre.countP (fun p => p.1 = code) = 0 := by
    refine List.countP_eq_zero.2 fun p hp => ?_
    have hp' := hpre.subset hp
    rw [List.mem_singleton] at hp'
    subst hp'
    split <;> simp_all [eq_comm]
  calc (commands t).countP (fun p => p.1 = code)
      = pre.countP (fun p => p.1 = code) + main.countP (fun p => p.1 = code) := by
        rw [hcmds, List.countP_append]
    _ ≤ 0 + main.length := by rw [hpre0]; exact Nat.add_le_add_left List.countP_le_length 0
    _ ≤ 1 := by omega

/-- With an RCA, an application command goes out only right after
`APP_CMD_RCA` carrying that RCA, and only once the card answered the
prefix with the `APP_CMD` status bit.  A call writes nothing, the prefix
alone, or the prefix, that answer, and the command, its argument chosen from
the record as the answer left it. -/
theorem acmd_follows_accepted_app_cmd {r : SdResult} {s' : Driver} (hc : c.IsApp)
    (hrca : s.card.rca ≠ 0) (h : (sendCommandWith hw c argOf).run s = some (r, s')) :
    ∃ t, s'.trace = s.trace ++ t ∧
      (commands t = [] ∨ commands t = [(appCmdRcaCode, s.card.rca)] ∨
        ∃ cmd t₁ v t₂, c.getCmd = some cmd ∧ t = t₁ ++ .read .resp0 v :: t₂ ∧
          commands t₁ = [(appCmdRcaCode, s.card.rca)] ∧ v.value &&& stAppCmd ≠ 0 ∧
          commands t₂ = [(cmd.cmdCode, argOf cmd { s.card with status := v.value })]) := by
  obtain ⟨resp, s₁, hpre, ⟨hne, rfl⟩ | ⟨rfl, cmd, resp', hcmd, hsend⟩⟩ := sendCommandWith_eq_some h <;>
    rw [if_pos hc] at hpre
  · obtain ⟨t, ht, ⟨-, hcmds⟩ | ⟨hok, -⟩⟩ := sendAppCommand_of_rca hrca hpre
    · exact ⟨t, ht, hcmds.imp_right Or.inl⟩
    · exact absurd hok hne
  · obtain ⟨t, ht, ⟨hne, -⟩ | ⟨-, t₁, v, rfl, hcmds, hbit, hcard⟩⟩ := sendAppCommand_of_rca hrca hpre
    · exact absurd rfl hne
    obtain ⟨u, hu, hucmds⟩ := sendcommandP_commands hsend
    refine ⟨t₁ ++ .read .resp0 v :: u, by simp [hu, ht], ?_⟩
    split at hucmds
    · exact Or.inr (Or.inr ⟨cmd, t₁, v, u, hcmd, rfl, hcmds, hbit, by rw [hucmds, hcard]⟩)
    · exact Or.inr (Or.inl (by simp [hucmds, hcmds]))

/-- On a controller that answers every read at once with the status
`APP_CMD`, a card at RCA `0x12340000` gets `SEND_SCR` after the prefix. -/
theorem acmd_follows_accepted_app_cmd_send_scr :
    SdCardCommands.sendScr.IsApp ∧ (0x12340000 : Nat) ≠ 0 ∧
      ∃ r s', (sendCommandWith (fun _ _ => ⟨true, stAppCmd, by decide⟩) .sendScr fun _ _ => 0).run
          ⟨⟨0, .emmcType2Hc, 0x12340000, 0, 0⟩, []⟩ = some (r, s') ∧
        ∃ t, s'.trace = [] ++ t ∧
          (commands t = [] ∨ commands t = [(appCmdRcaCode, 0x12340000)] ∨
            ∃ cmd t₁ v t₂, SdCardCommands.sendScr.getCmd = some cmd ∧ t = t₁ ++ .read .resp0 v :: t₂ ∧
              commands t₁ = [(appCmdRcaCode, 0x12340000)] ∧ v.value &&& stAppCmd ≠ 0 ∧
              commands t₂ = [(cmd.cmdCode, 0)]) := by
  have hrun : (sendCommandWith (fun _ _ => ⟨true, stAppCmd, by decide⟩) .sendScr fun _ _ => 0).run
      ⟨⟨0, .emmcType2Hc, 0x12340000, 0, 0⟩, []⟩ = some (_, _) := rfl
  exact ⟨by decide, by decide, _, _, hrun, acmd_follows_accepted_app_cmd (by decide) (by decide) hrun⟩

end Emmc

end LanternOS
