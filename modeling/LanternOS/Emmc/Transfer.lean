/-
# `LanternOS.Emmc.Transfer` — moving blocks between the card and a buffer

`emmc_transfer_blocks(start_block, num_blocks, buffer, write)` is the
driver's block device: the FAT adapter reads and writes whole sectors
through it, and `LanternOS.Fs.Fat32` takes it to move exactly the sectors
asked for (`Fs.emmcRead`, `Fs.emmcWrite`).  It sends `SET_BLOCKCNT` when
the card supports it, the read or write command with the block's address
(a byte address for standard-capacity cards), and then, block by block,
waits for the card to be ready and moves the block's 128 words through
`DATA`.  A multi-block transfer on a card without `SET_BLOCKCNT` ends with
`STOP_TRANS`.

## Two ways through a block

A buffer that starts on a word is copied word by word: `to_le_bytes` of each
word read, `from_le_bytes` of each four bytes written.  Any other buffer is
taken byte by byte.  The byte-wise write assembles the same word as
`from_le_bytes`, but the byte-wise read stores `bytes[3]`, `bytes[2]`,
`bytes[1]`, `bytes[0]`: every word lands in the buffer with its bytes
reversed.

**Proved here.**

    a transfer that returns OK moved `num_blocks ≥ 1` blocks, between     (`emmcTransferBlocks_ok_spec`,
      `SET_BLOCKCNT` or `STOP_TRANS` as the card needs and one read or     `transferBlocks_ok_commands`)
      write command at the first block's address
    a read fills the buffer with the words read, little-endian into a
      word-aligned buffer, byte-reversed into any other
    a write sends the buffer's words, the same on both paths
    against a card, an aligned read is `Fs.emmcRead` and a write leaves  (`transferBlocks_read_refines`,
      the card holding `Fs.emmcWrite`                                      `transferBlocks_write_refines`)
    an unaligned read stores every word reversed                          (`transferBlocks_unaligned_read_swaps`)
    `emmc_clear_blocks` that returns OK sent `ERASE_WR_ST`,               (`clearBlocks_ok_commands`)
      `ERASE_WR_END` one block past the range, and `ERASE`
-/
import LanternOS.Emmc.Init
import LanternOS.Emmc.Card
import LanternOS.Lib.LittleEndian

namespace LanternOS

namespace Emmc

open StateOption

/-- `EMMC_CARD.scr.matches_any(SCR::CMD_SUPPORT::CMD_SUPP_SET_BLKCNT)`:
`matches_any` of tock-registers tests the field's mask, so any bit of
`CMD_SUPPORT` (bits 25:24) counts. -/
def supportsSetBlkcnt (scr : Nat) : Bool :=
  Bitfield.bitRange scr 25 24 != 0

/-- `(buffer_addr & 0x03) != 0`: the buffer does not start on a word. -/
def unaligned (bufferAddr : Nat) : Bool :=
  bufferAddr &&& 0x03 != 0

variable (hw : Hw)

/-- One word of a block, at byte `i` of the slice that starts at byte `off`
of the caller's buffer. -/
def transferWord (write unaligned : Bool) (off : Nat) (buffer : List UInt8) (i : Nat) :
    DriverM (List UInt8) :=
  if write then do
    let data ← (if unaligned then (do
        let b0 ← liftM buffer[off + i]?
        let b1 ← liftM buffer[off + i + 1]?
        let b2 ← liftM buffer[off + i + 2]?
        let b3 ← liftM buffer[off + i + 3]?
        pure (b0.toNat ||| b1.toNat <<< 8 ||| b2.toNat <<< 16 ||| b3.toNat <<< 24))
      else (do
        let bytes ← liftM (Slice.range buffer (off + i) (off + i + 4))
        pure (LittleEndian.ofBytes bytes)))
    writeData data
    return buffer
  else do
    let bytes := LittleEndian.toBytes (← observe hw .data).value 4
    if unaligned then do
      let buffer ← liftM (Slice.set buffer (off + i) (bytes.getD 3 0))
      let buffer ← liftM (Slice.set buffer (off + i + 1) (bytes.getD 2 0))
      let buffer ← liftM (Slice.set buffer (off + i + 2) (bytes.getD 1 0))
      liftM (Slice.set buffer (off + i + 3) (bytes.getD 0 0))
    else liftM (Slice.copyIntoRange buffer (off + i) (off + i + 4) bytes)

/-- The 128 words of one block: `for i in (0..512).step_by(4)`. -/
def transferBlock (write unaligned : Bool) (off : Nat) (buffer : List UInt8) : DriverM (List UInt8) := do
  let is ← liftM (Checked.stepBy 0 512 4)
  is.foldlM (transferWord hw write unaligned off) buffer

/-- `while (blocks_done < num_blocks)`, with `left`, `num_blocks -
blocks_done`, the blocks still to go: a failed ready wait ends the call with
its result; otherwise the loop stops after the last block, with
`blocks_done` one below `num_blocks`.  The buffer slice advances 512 bytes a
block. -/
def blockLoop (write unaligned : Bool) (numBlocks readyInt : Nat) :
    (left blocksDone off : Nat) → List UInt8 → DriverM (Option SdResult × Nat × List UInt8)
  | 0, blocksDone, _, buffer => return (none, blocksDone, buffer)
  | left + 1, blocksDone, off, buffer => do
    let resp ← emmcWaitForInterrupt hw readyInt
    if resp ≠ .emmcOk then return (some resp, blocksDone, buffer)
    let buffer ← transferBlock hw write unaligned off buffer
    if blocksDone + 1 = numBlocks then return (none, blocksDone, buffer)
    -- `buffer = &mut buffer[512..]`
    let _ ← liftM (Slice.sliceFrom (buffer.drop off) 512)
    blockLoop write unaligned numBlocks readyInt left (blocksDone + 1) (off + 512) buffer

/-- The command of a transfer: single or multiple blocks, read or write. -/
def transferCommand (write : Bool) (numBlocks : Nat) : SdCardCommands :=
  if write then (if numBlocks = 1 then .writeSingle else .writeMulti)
  else (if numBlocks = 1 then .readSingle else .readMulti)

/-- The address of block `start_block`: a byte address for a
standard-capacity card, where `<< 9` drops the bits past 32, and the
block number otherwise. -/
def blockAddress (cardType : SdCardType) (startBlock : Nat) : Nat :=
  if cardType = .emmcType2Sc then (startBlock <<< 9) % 2 ^ 32 else startBlock

/-- `emmc_transfer_blocks`: the result, and the buffer as the call leaves
it.  Writing `BLKSIZECNT` is left out; the controller's answers stand for
what it does with it. -/
def emmcTransferBlocks (startBlock numBlocks bufferAddr : Nat) (buffer : List UInt8) (write : Bool) :
    DriverM (SdResult × List UInt8) := do
  if (← card).emmcCardType = .emmcTypeUnknown then return (.emmcNoResp, buffer)
  if (← emmcWaitForData hw) ≠ .emmcOk then return (.emmcTimeout, buffer)
  let readyInt := if write then intWriteRdy else intReadRdy
  let resp ← (if numBlocks > 1 ∧ supportsSetBlkcnt (← card).scr then
      emmcSendCommandA hw .setBlockcnt numBlocks
    else pure .emmcOk)
  if resp ≠ .emmcOk then return (emmcDebugResponse resp, buffer)
  let resp ← emmcSendCommandA hw (transferCommand write numBlocks)
    (blockAddress (← card).emmcCardType startBlock)
  if resp ≠ .emmcOk then return (emmcDebugResponse resp, buffer)
  let (failed, blocksDone, buffer) ←
    blockLoop hw write (unaligned bufferAddr) numBlocks readyInt numBlocks 0 0 buffer
  if let some resp := failed then return (emmcDebugResponse resp, buffer)
  if blocksDone + 1 ≠ numBlocks then
    -- `STOP_TRANS` after a read, its result only logged
    (if ¬ write ∧ numBlocks > 1 then discard (emmcSendCommand hw .stopTrans) else pure ())
    return (.emmcTimeout, buffer)
  let resp ← (if write then emmcWaitForInterrupt hw intDataDone else pure .emmcOk)
  if resp ≠ .emmcOk then return (emmcDebugResponse resp, buffer)
  -- `STOP_TRANS` ends a multi-block transfer that `SET_BLOCKCNT` did not count
  let resp ← (if numBlocks > 1 ∧ ¬ supportsSetBlkcnt (← card).scr then
      emmcSendCommand hw .stopTrans
    else pure .emmcOk)
  if resp ≠ .emmcOk then return (emmcDebugResponse resp, buffer)
  return (.emmcOk, buffer)

/-- The wait after `ERASE`: `DAT_INHIBIT` polled until it drops, `count`
more times at most. -/
def eraseWait (count : Nat) : DriverM SdResult := do
  if ¬ (← observe hw .datInhibitFlag).ready then return .emmcOk
  match count with
  | 0 => return .emmcTimeout
  | count + 1 => eraseWait count

/-- `emmc_clear_blocks`: erase from `start_block` to `start_block +
num_blocks`, in the card's addressing. -/
def emmcClearBlocks (startBlock numBlocks : Nat) : DriverM SdResult := do
  if (← card).emmcCardType = .emmcTypeUnknown then return .emmcNoResp
  if (← emmcWaitForData hw) ≠ .emmcOk then return .emmcTimeout
  let startAddress := blockAddress (← card).emmcCardType startBlock
  let endBlock ← liftM (Checked.add 32 startBlock numBlocks)
  let endAddress := blockAddress (← card).emmcCardType endBlock
  let resp ← emmcSendCommandA hw .eraseWrSt startAddress
  if resp ≠ .emmcOk then return emmcDebugResponse resp
  let resp ← emmcSendCommandA hw .eraseWrEnd endAddress
  if resp ≠ .emmcOk then return emmcDebugResponse resp
  let resp ← emmcSendCommand hw .erase
  if resp ≠ .emmcOk then return emmcDebugResponse resp
  eraseWait hw 1000000

/-! ## One word -/

/-- The four bytes the read path stores for the word `w`: little-endian
into a word-aligned buffer, the other way round into any other. -/
def wordBytes (unaligned : Bool) (w : Nat) : List UInt8 :=
  if unaligned then (LittleEndian.toBytes w 4).reverse else LittleEndian.toBytes w 4

/-- The bytes the read path stores for the words `ws`. -/
def placed (unaligned : Bool) (ws : List Nat) : List UInt8 :=
  ws.flatMap (wordBytes unaligned)

@[simp] theorem length_wordBytes (unaligned : Bool) (w : Nat) : (wordBytes unaligned w).length = 4 := by
  cases unaligned <;> simp [wordBytes]

@[simp] theorem placed_cons (unaligned : Bool) (w : Nat) (ws : List Nat) :
    placed unaligned (w :: ws) = wordBytes unaligned w ++ placed unaligned ws := rfl

@[simp] theorem placed_append (unaligned : Bool) (ws vs : List Nat) :
    placed unaligned (ws ++ vs) = placed unaligned ws ++ placed unaligned vs := by
  simp [placed]

@[simp] theorem length_placed (unaligned : Bool) (ws : List Nat) :
    (placed unaligned ws).length = 4 * ws.length := by
  induction ws with
  | nil => rfl
  | cons w ws ih => rw [placed_cons, List.length_append, length_wordBytes, ih, List.length_cons]; omega

theorem placed_false (ws : List Nat) : placed false ws = LittleEndian.toChunks 4 ws := rfl

/-- Four bytes, taken from their place. -/
theorem take_four_drop {l : List UInt8} {j : Nat} (h : j + 4 ≤ l.length) :
    (l.drop j).take 4 = [l[j], l[j + 1], l[j + 2], l[j + 3]] := by
  rw [List.drop_eq_getElem_cons (by omega), List.drop_eq_getElem_cons (by omega),
    List.drop_eq_getElem_cons (by omega), List.drop_eq_getElem_cons (by omega)]
  rfl

/-- Of a list of four, the elements from the last to the first. -/
theorem reverse_eq_getD {l : List UInt8} (h : l.length = 4) :
    l.reverse = [l.getD 3 0, l.getD 2 0, l.getD 1 0, l.getD 0 0] := by
  match l, h with
  | [_, _, _, _], _ => rfl

variable {hw : Hw}

/-- A word read lands at its place in the buffer, in the order of the path
taken; past the end of the buffer the copy panics. -/
theorem transferWord_read (unaligned : Bool) (off i : Nat) (buffer : List UInt8) (s : Driver) :
    (transferWord hw false unaligned off buffer i).run s =
      if off + i + 4 ≤ buffer.length then
        some (Slice.splice buffer (off + i) (wordBytes unaligned (hw s.trace .data).value), s.afterRead hw .data)
      else none := by
  cases unaligned with
  | false =>
      simp only [transferWord, Bool.false_eq_true, if_false, StateT.run_bind, run_observe, Option.bind_eq_bind,
        Option.bind_some, run_liftM_map]
      rw [Slice.copyIntoRange_eq (by omega) (by simp)]
      split <;> simp [wordBytes]
  | true =>
      -- four indexed writes, the word's last byte first
      simp only [transferWord, Bool.false_eq_true, if_false, if_true, StateT.run_bind, run_observe,
        Option.bind_eq_bind, Option.bind_some, run_liftM_map]
      by_cases h : off + i + 4 ≤ buffer.length
      · have h1 : off + i < buffer.length := by omega
        have h2 : off + i + 1 < buffer.length := by omega
        have h3 : off + i + 2 < buffer.length := by omega
        have h4 : off + i + 3 < buffer.length := by omega
        simp only [Slice.set, List.length_set, h1, h2, h3, h4, if_true, Option.map_some, Option.bind_some,
          if_pos h, wordBytes, reverse_eq_getD (LittleEndian.length_toBytes _ 4)]
        rw [Slice.splice_cons h1, Slice.splice_cons (by simpa using h2), Slice.splice_cons (by simpa using h3),
          Slice.splice_cons (by simpa using h4), Slice.splice_nil]
      · simp only [Slice.set, if_neg h]
        simp
        omega

/-- A word written is the little-endian value of its four bytes, on either
path. -/
theorem transferWord_write (unaligned : Bool) (off i : Nat) (buffer : List UInt8) (s : Driver) :
    (transferWord hw true unaligned off buffer i).run s =
      if off + i + 4 ≤ buffer.length then
        some (buffer, s.afterWrite (LittleEndian.field buffer (off + i) 4))
      else none := by
  cases unaligned with
  | false =>
      simp only [transferWord, Bool.false_eq_true, if_false, if_true, StateT.run_bind, Option.bind_eq_bind,
        run_liftM_map, run_writeData, run_pure_some]
      by_cases h : off + i + 4 ≤ buffer.length
      · simp [Slice.range, h, LittleEndian.field]
      · simp [Slice.range, h]
  | true =>
      simp only [transferWord, if_true, StateT.run_bind, Option.bind_eq_bind, run_liftM_map, run_writeData,
        run_pure_some]
      by_cases h : off + i + 4 ≤ buffer.length
      · simp only [List.getElem?_eq_getElem (show off + i < buffer.length by omega),
          List.getElem?_eq_getElem (show off + i + 1 < buffer.length by omega),
          List.getElem?_eq_getElem (show off + i + 2 < buffer.length by omega),
          List.getElem?_eq_getElem (show off + i + 3 < buffer.length by omega), Option.map_some,
          Option.bind_some, if_pos h, LittleEndian.or_shiftLeft_eq_ofBytes, LittleEndian.field, take_four_drop h]
      · simp [List.getElem?_eq_none (show buffer.length ≤ off + i + 3 by omega), if_neg h]

/-! ## One block -/

@[simp] theorem commands_map_dataWrite (ws : List Nat) : commands (ws.map .dataWrite) = [] := by
  induction ws with
  | nil => rfl
  | cons w ws ih => simp [ih]

@[simp] theorem dataReads_map_dataWrite (ws : List Nat) : dataReads (ws.map .dataWrite) = [] := by
  simp [dataReads]

@[simp] theorem dataWrites_map_dataWrite (ws : List Nat) : dataWrites (ws.map .dataWrite) = ws := by
  simp [dataWrites]

theorem answered_map_dataWrite (pre : List Event) (ws : List Nat) : Answered hw pre (ws.map .dataWrite) := by
  induction ws generalizing pre with
  | nil => trivial
  | cons w ws ih => exact ⟨trivial, ih _⟩

/-- The words of a block read from its `j`-th byte on: each is the
controller's answer where it stands, and lands at its place. -/
theorem foldlM_transferWord_read {unaligned : Bool} {off : Nat} :
    ∀ (k j : Nat) (buffer : List UInt8) (s : Driver) {buffer' : List UInt8} {s' : Driver},
      ((List.range' j k 4).foldlM (transferWord hw false unaligned off) buffer).run s = some (buffer', s') →
      (off + j + 4 * k ≤ buffer.length ∨ k = 0) ∧ ∃ t, s'.trace = s.trace ++ t ∧ Answered hw s.trace t ∧
        commands t = [] ∧ dataWrites t = [] ∧ (dataReads t).length = k ∧
        buffer' = Slice.splice buffer (off + j) (placed unaligned (dataReads t))
  | 0, j, buffer, s, buffer', s', h => by
      simp only [List.range'_zero, List.foldlM_nil, run_pure_some, Option.some.injEq, Prod.mk.injEq] at h
      obtain ⟨rfl, rfl⟩ := h
      exact ⟨Or.inr rfl, [], by simp, trivial, rfl, rfl, rfl, Slice.splice_nil.symm⟩
  | k + 1, j, buffer, s, buffer', s', h => by
      rw [List.range'_succ, List.foldlM_cons, run_bind_eq_some] at h
      obtain ⟨buffer₁, s₁, hword, hrest⟩ := h
      rw [transferWord_read] at hword
      split at hword
      · rename_i hfit
        simp only [Option.some.injEq, Prod.mk.injEq] at hword
        obtain ⟨rfl, rfl⟩ := hword
        obtain ⟨hb, t, ht, hans, hcmd, hwr, hlen, rfl⟩ := foldlM_transferWord_read k (j + 4) _ _ hrest
        have hlen₁ := Slice.length_splice
          (show off + j + (wordBytes unaligned (hw s.trace .data).value).length ≤ buffer.length by simp; omega)
        have hsplice := Slice.splice_splice (v := buffer) (a := wordBytes unaligned (hw s.trace .data).value)
          (b := placed unaligned (dataReads t)) (show off + j ≤ buffer.length by omega)
        rw [length_wordBytes] at hsplice
        refine ⟨Or.inl ?_, .read .data (hw s.trace .data) :: t, ?_, ⟨rfl, hans⟩, hcmd, hwr, ?_, ?_⟩
        · rcases hb with hb | rfl
          · rw [hlen₁] at hb
            omega
          · omega
        · simp [ht]
        · simp [dataReads] at hlen ⊢
          omega
        · rw [← Nat.add_assoc, hsplice]
          rfl
      · cases hword

/-- The words of a block written from its `j`-th byte on: the buffer's
words from there, in order; the buffer stays as it is. -/
theorem foldlM_transferWord_write {unaligned : Bool} {off : Nat} :
    ∀ (k j : Nat) (buffer : List UInt8) (s : Driver) {buffer' : List UInt8} {s' : Driver},
      ((List.range' j k 4).foldlM (transferWord hw true unaligned off) buffer).run s = some (buffer', s') →
      (off + j + 4 * k ≤ buffer.length ∨ k = 0) ∧ buffer' = buffer ∧
        s'.trace = s.trace ++ (LittleEndian.chunks 4 k (buffer.drop (off + j))).map .dataWrite
  | 0, j, buffer, s, buffer', s', h => by
      simp only [List.range'_zero, List.foldlM_nil, run_pure_some, Option.some.injEq, Prod.mk.injEq] at h
      obtain ⟨rfl, rfl⟩ := h
      exact ⟨Or.inr rfl, rfl, by simp [LittleEndian.chunks]⟩
  | k + 1, j, buffer, s, buffer', s', h => by
      rw [List.range'_succ, List.foldlM_cons, run_bind_eq_some] at h
      obtain ⟨buffer₁, s₁, hword, hrest⟩ := h
      rw [transferWord_write] at hword
      split at hword
      · rename_i hfit
        simp only [Option.some.injEq, Prod.mk.injEq] at hword
        obtain ⟨rfl, rfl⟩ := hword
        obtain ⟨hb, rfl, ht⟩ := foldlM_transferWord_write k (j + 4) _ _ hrest
        refine ⟨Or.inl (by omega), rfl, ?_⟩
        rw [ht, afterWrite_trace, LittleEndian.chunks, List.drop_drop, List.map_cons, LittleEndian.field]
        simp [Nat.add_assoc]
      · cases hword

/-- `(0..512).step_by(4)`: the 128 words of a block. -/
theorem run_transferBlock (write unaligned : Bool) (off : Nat) (buffer : List UInt8) (s : Driver) :
    (transferBlock hw write unaligned off buffer).run s =
      ((List.range' 0 128 4).foldlM (transferWord hw write unaligned off) buffer).run s := by
  have hsteps : Checked.stepBy 0 512 4 = some (List.range' 0 128 4) := Checked.stepBy_of_pos (by decide)
  simp [transferBlock, hsteps]

/-- What the blocks from byte `off` of the buffer on did, `k` of them,
over the transcript `t` that leaves `buffer'`: they lie in the buffer,
`t` holds no command; a write sent the buffer's words and left it as it
was, a read took `128 * k` words and stored them in place. -/
structure Moved (write unaligned : Bool) (off k : Nat) (buffer : List UInt8) (t : List Event)
    (buffer' : List UInt8) : Prop where
  fits : off + 512 * k ≤ buffer.length
  noCommand : commands t = []
  sent : write = true →
    dataReads t = [] ∧ dataWrites t = LittleEndian.chunks 4 (128 * k) (buffer.drop off) ∧ buffer' = buffer
  received : write = false →
    dataWrites t = [] ∧ (dataReads t).length = 128 * k ∧
      buffer' = Slice.splice buffer off (placed unaligned (dataReads t))

theorem Moved.length_eq {write unaligned : Bool} {off k : Nat} {buffer buffer' : List UInt8} {t : List Event}
    (h : Moved write unaligned off k buffer t buffer') : buffer'.length = buffer.length := by
  cases write with
  | false =>
      obtain ⟨-, hlen, rfl⟩ := h.received rfl
      exact Slice.length_splice (by have := h.fits; simp; omega)
  | true =>
      obtain ⟨-, -, rfl⟩ := h.sent rfl
      rfl

/-- Moving a word leaves the card record. -/
theorem transferWord_card (write unaligned : Bool) (off : Nat) (buffer : List UInt8) (i : Nat) :
    Keeps (fun s s' => s'.card = s.card) (transferWord hw write unaligned off buffer i) := by
  intro s b s' h
  cases write <;> [rw [transferWord_read] at h; rw [transferWord_write] at h] <;> split at h <;>
    simp only [Option.some.injEq, Prod.mk.injEq, reduceCtorEq] at h <;> obtain ⟨-, rfl⟩ := h <;> rfl

theorem transferBlock_card (write unaligned : Bool) (off : Nat) (buffer : List UInt8) :
    Keeps (fun s s' => s'.card = s.card) (transferBlock hw write unaligned off buffer) := by
  intro s b s' h
  rw [run_transferBlock] at h
  exact Keeps.foldlM (R := fun s s' : Driver => s'.card = s.card) (fun _ => rfl)
    (fun _ _ _ h₁ h₂ => h₂.trans h₁) (transferWord_card write unaligned off) _ _ s b s' h

/-- One block, as the loop moves it. -/
theorem transferBlock_moved {write unaligned : Bool} {off : Nat} {buffer buffer' : List UInt8} {s s' : Driver}
    (h : (transferBlock hw write unaligned off buffer).run s = some (buffer', s')) :
    ∃ t, s'.trace = s.trace ++ t ∧ Answered hw s.trace t ∧ Moved write unaligned off 1 buffer t buffer' := by
  rw [run_transferBlock] at h
  cases write with
  | false =>
      obtain ⟨hb, t, ht, hans, hcmd, hwr, hlen, rfl⟩ := foldlM_transferWord_read 128 0 buffer s h
      exact ⟨t, ht, hans, ⟨by omega, hcmd, nofun, fun _ => ⟨hwr, hlen, rfl⟩⟩⟩
  | true =>
      obtain ⟨hb, rfl, ht⟩ := foldlM_transferWord_write 128 0 buffer s h
      exact ⟨_, ht, answered_map_dataWrite _ _, ⟨by omega, by simp, fun _ => by simp, nofun⟩⟩

/-- The blocks of two stretches, one after the other, are the blocks of
both. -/
theorem Moved.append {write unaligned : Bool} {off k₁ k₂ : Nat} {buffer buffer₁ buffer₂ : List UInt8}
    {t₁ t₂ : List Event} (h₁ : Moved write unaligned off k₁ buffer t₁ buffer₁)
    (h₂ : Moved write unaligned (off + 512 * k₁) k₂ buffer₁ t₂ buffer₂) :
    Moved write unaligned off (k₁ + k₂) buffer (t₁ ++ t₂) buffer₂ := by
  cases write with
  | false =>
      obtain ⟨hwr₁, hlen₁, rfl⟩ := h₁.received rfl
      obtain ⟨hwr₂, hlen₂, rfl⟩ := h₂.received rfl
      have hfit := h₁.fits
      have hlen : (Slice.splice buffer off (placed unaligned (dataReads t₁))).length = buffer.length :=
        Slice.length_splice (by simp; omega)
      have hsplice := Slice.splice_splice (v := buffer) (a := placed unaligned (dataReads t₁))
        (b := placed unaligned (dataReads t₂)) (show off ≤ buffer.length by omega)
      rw [length_placed, hlen₁, show 4 * (128 * k₁) = 512 * k₁ by omega] at hsplice
      refine ⟨?_, by simp [h₁.noCommand, h₂.noCommand], nofun, fun _ => ⟨by simp [hwr₁, hwr₂], ?_, ?_⟩⟩
      · have := h₂.fits
        rw [hlen] at this
        omega
      · simp only [dataReads_append, List.length_append, hlen₁, hlen₂]
        omega
      · rw [hsplice, dataReads_append, placed_append]
  | true =>
      obtain ⟨hrd₁, hwr₁, rfl⟩ := h₁.sent rfl
      obtain ⟨hrd₂, hwr₂, rfl⟩ := h₂.sent rfl
      refine ⟨by have := h₂.fits; omega, by simp [h₁.noCommand, h₂.noCommand],
        fun _ => ⟨by simp [hrd₁, hrd₂], ?_, rfl⟩, nofun⟩
      rw [dataWrites_append, hwr₁, hwr₂, Nat.mul_add, LittleEndian.chunks_add, List.drop_drop]
      congr 3
      omega

/-- A read of another register before the blocks moves nothing. -/
theorem Moved.cons_read {write unaligned : Bool} {off k : Nat} {buffer buffer' : List UInt8} {t : List Event}
    {q : Query} (a : Answer) (hq : q ≠ .data) (h : Moved write unaligned off k buffer t buffer') :
    Moved write unaligned off k buffer (.read q a :: t) buffer' := by
  have hrd : dataReads (.read q a :: t) = dataReads t := by
    cases q <;> first | exact absurd rfl hq | rfl
  have hwr : dataWrites (.read q a :: t) = dataWrites t := rfl
  exact ⟨h.fits, by simpa using h.noCommand, by rw [hrd, hwr]; exact h.sent, by rw [hrd, hwr]; exact h.received⟩

/-! ## The block loop -/

/-- The block loop from `blocksDone`, `left` blocks short of `numBlocks`:
it leaves the card record; a failed ready wait ends it with that wait's
result; otherwise it moved the `left` blocks, one after the other, each
after its ready wait, and stopped with `blocks_done` one below
`numBlocks`. -/
theorem blockLoop_spec {write unaligned : Bool} {numBlocks readyInt : Nat} :
    ∀ (left blocksDone off : Nat) (buffer : List UInt8) (s : Driver) {failed : Option SdResult} {done : Nat}
      {buffer' : List UInt8} {s' : Driver}, numBlocks - blocksDone = left →
      (blockLoop hw write unaligned numBlocks readyInt left blocksDone off buffer).run s =
        some ((failed, done, buffer'), s') →
      s'.card = s.card ∧ (∀ r, failed = some r → r ≠ .emmcOk) ∧
      (failed = none → 0 < left → done + 1 = numBlocks ∧
        ∃ t, s'.trace = s.trace ++ t ∧ Answered hw s.trace t ∧ Moved write unaligned off left buffer t buffer')
  | 0, blocksDone, off, buffer, s, failed, done, buffer', s', _, h => by
      simp only [blockLoop, run_pure_some, Option.some.injEq, Prod.mk.injEq] at h
      obtain ⟨⟨rfl, -, -⟩, rfl⟩ := h
      exact ⟨rfl, nofun, fun _ hlt => absurd hlt (Nat.lt_irrefl 0)⟩
  | left + 1, blocksDone, off, buffer, s, failed, done, buffer', s', hleft, h => by
      rw [blockLoop, run_bind_eq_some] at h
      obtain ⟨resp, s₁, hint, h⟩ := h
      obtain ⟨-, hs₁, hcard₀, -⟩ := waitForInterrupt_eq_some hint
      split at h
      · rename_i hresp
        simp only [run_pure_some, Option.some.injEq, Prod.mk.injEq] at h
        obtain ⟨⟨rfl, -, -⟩, rfl⟩ := h
        exact ⟨hcard₀, fun r hr => Option.some.inj hr ▸ hresp, nofun⟩
      obtain rfl := hs₁ (not_not.1 ‹_›)
      rw [run_bind_eq_some] at h
      obtain ⟨buffer₁, s₂, hblock, h⟩ := h
      obtain ⟨t₁, ht₁, hans₁, hmoved₁⟩ := transferBlock_moved hblock
      have hcard₁ : s₂.card = s.card := by
        simpa using transferBlock_card write unaligned off buffer _ _ _ hblock
      have hfits := hmoved₁.fits
      have hfirst : s₂.trace = s.trace ++ .read (.interrupt readyInt) (hw s.trace (.interrupt readyInt)) :: t₁ := by
        simp [ht₁]
      have hans₁' : Answered hw s.trace (.read (.interrupt readyInt) (hw s.trace (.interrupt readyInt)) :: t₁) :=
        ⟨rfl, by simpa using hans₁⟩
      split at h
      · rename_i hlast
        simp only [run_pure_some, Option.some.injEq, Prod.mk.injEq] at h
        obtain ⟨⟨rfl, rfl, rfl⟩, rfl⟩ := h
        refine ⟨hcard₁, nofun, fun _ _ => ⟨hlast, _, hfirst, hans₁', ?_⟩⟩
        rw [show left + 1 = 1 by omega]
        exact hmoved₁.cons_read _ nofun
      · -- `buffer[512..]` is in bounds after a block, and the loop goes on
        have hlen₁ := hmoved₁.length_eq
        rw [Slice.sliceFrom_of_le (by simp; omega), run_bind_of_some (run_liftM_map _ _)] at h
        obtain ⟨hcard, hfail, hrest⟩ := blockLoop_spec left (blocksDone + 1) (off + 512) buffer₁ s₂ (by omega) h
        refine ⟨hcard.trans hcard₁, hfail, fun hnone _ => ?_⟩
        obtain ⟨hdone, t₂, ht₂, hans₂, hmoved₂⟩ := hrest hnone (by omega)
        refine ⟨hdone, .read (.interrupt readyInt) (hw s.trace (.interrupt readyInt)) :: (t₁ ++ t₂),
          by rw [ht₂, hfirst]; simp, ?_, ?_⟩
        · rw [← List.singleton_append, answered_append] at hans₁' ⊢
          rw [answered_append]
          refine ⟨hans₁'.1, hans₁'.2, ?_⟩
          simpa [hfirst] using hans₂
        · rw [Nat.add_comm left 1]
          exact (hmoved₁.append (by simpa using hmoved₂)).cons_read _ nofun

/-! ## A transfer that returned OK -/

/-- The code `get_cmd` gives `SET_BLOCKCNT`. -/
def setBlockcntCode : Cmdtm := ⟨0x17, .cmd48bitResp, false, false, false, false⟩

/-- The code `get_cmd` gives `STOP_TRANS`. -/
def stopTransCode : Cmdtm := ⟨0x0c, .cmdBusy48bitResp, false, false, false, false⟩

/-- The code `get_cmd` gives the command of a transfer: a data command,
reading from the card or writing to it, counted by `BLKCNT` when it is one
of several blocks. -/
def transferCode (write : Bool) (numBlocks : Nat) : Cmdtm :=
  if write then
    if numBlocks = 1 then ⟨0x18, .cmd48bitResp, true, false, false, false⟩
    else ⟨0x19, .cmd48bitResp, true, false, true, true⟩
  else
    if numBlocks = 1 then ⟨0x11, .cmd48bitResp, true, true, false, false⟩
    else ⟨0x12, .cmd48bitResp, true, true, true, true⟩

theorem getCmd_transferCommand (write : Bool) (numBlocks : Nat) :
    (transferCommand write numBlocks).getCmd = some ⟨transferCode write numBlocks, false, 0⟩ := by
  unfold transferCommand transferCode
  split <;> split <;> rfl

theorem transferCommand_not_app (write : Bool) (numBlocks : Nat) : ¬ (transferCommand write numBlocks).IsApp := by
  unfold transferCommand
  split <;> split <;> decide

/-- A command sent under a condition, that returned OK: it went out exactly
when the condition held. -/
theorem sendIf_ok {cond : Prop} [Decidable cond] {c : SdCardCommands} {argOf : EMMCCommand → SdDescriptor → Nat}
    {cmd : EMMCCommand} {s s' : Driver} (hc : ¬ c.IsApp) (hcmd : c.getCmd = some cmd)
    (h : (if cond then sendCommandWith hw c argOf else pure .emmcOk).run s = some (.emmcOk, s')) :
    ∃ t, ControlRun s s' t (if cond then [(cmd.cmdCode, argOf cmd s.card)] else []) := by
  split at h
  · obtain ⟨cmd', hcmd', t, ht⟩ := sendCommandWith_ok hc h
    rw [hcmd, Option.some.injEq] at hcmd'
    subst hcmd'
    exact ⟨t, by rwa [if_pos ‹cond›]⟩
  · rw [run_pure_some, Option.some.injEq, Prod.mk.injEq] at h
    obtain ⟨-, rfl⟩ := h
    exact ⟨[], by rw [if_neg ‹¬ cond›]; exact ControlRun.refl s⟩

/-- A wait under a condition, that returned OK: control traffic, no
command. -/
theorem waitIf_ok {cond : Prop} [Decidable cond] {mask : Nat} {s s' : Driver}
    (h : (if cond then emmcWaitForInterrupt hw mask else pure .emmcOk).run s = some (.emmcOk, s')) :
    ∃ t, ControlRun s s' t [] := by
  split at h
  · obtain ⟨-, -, -, hc⟩ := waitForInterrupt_eq_some h
    exact hc
  · rw [run_pure_some, Option.some.injEq, Prod.mk.injEq] at h
    obtain ⟨-, rfl⟩ := h
    exact ⟨[], ControlRun.refl s⟩

/-- Every early return of `emmc_transfer_blocks` hands back its buffer with
the result it names. -/
theorem ok_of_pure {r : SdResult} {b b' : List UInt8} {s s' : Driver}
    (h : (pure (r, b) : DriverM (SdResult × List UInt8)).run s = some ((.emmcOk, b'), s')) :
    r = .emmcOk ∧ b' = b ∧ s' = s := by
  simp only [run_pure_some, Option.some.injEq, Prod.mk.injEq] at h
  exact ⟨h.1.1, h.1.2.symm, h.2.symm⟩

/-- What `emmc_transfer_blocks` did when it returned OK.  The card was known
and at least one block was asked for.  Control traffic `t₁` sent
`SET_BLOCKCNT` if the card counts blocks and then the transfer command at
the block's address; `t₂` moved the blocks, each read answered by the
controller where it stands; control traffic `t₃` ended a multi-block
transfer that the card does not count with `STOP_TRANS`. -/
theorem emmcTransferBlocks_ok_spec {startBlock numBlocks bufferAddr : Nat} {buffer buffer' : List UInt8}
    {write : Bool} {s s' : Driver}
    (h : (emmcTransferBlocks hw startBlock numBlocks bufferAddr buffer write).run s =
      some ((.emmcOk, buffer'), s')) :
    s.card.emmcCardType ≠ .emmcTypeUnknown ∧ 0 < numBlocks ∧
    ∃ t₁ t₂ t₃, s'.trace = s.trace ++ t₁ ++ t₂ ++ t₃ ∧ (∀ e ∈ t₁ ++ t₃, e.isData = false) ∧
      commands t₁ = (if numBlocks > 1 ∧ supportsSetBlkcnt s.card.scr then [(setBlockcntCode, numBlocks)] else []) ++
        [(transferCode write numBlocks, blockAddress s.card.emmcCardType startBlock)] ∧
      Answered hw (s.trace ++ t₁) t₂ ∧ Moved write (unaligned bufferAddr) 0 numBlocks buffer t₂ buffer' ∧
      commands t₃ = (if numBlocks > 1 ∧ ¬ supportsSetBlkcnt s.card.scr then [(stopTransCode, 0)] else []) := by
  unfold emmcTransferBlocks at h
  rw [run_bind_of_some (run_card s)] at h
  split at h
  · exact absurd (ok_of_pure h).1 (by decide)
  rename_i hknown
  replace h := (run_waitForData_bind (by simp) h).2
  have hc₀ : ControlRun s (s.afterRead hw .datInhibit) [.read .datInhibit (hw s.trace .datInhibit)] [] :=
    ControlRun.read s nofun
  rw [run_bind_of_some (run_card _), run_bind_eq_some] at h
  obtain ⟨resp₁, s₂, hset, h⟩ := h
  split at h
  · exact absurd (ok_of_pure h).1 ‹_›
  rw [not_not.1 ‹¬ resp₁ ≠ .emmcOk›] at hset
  obtain ⟨u₁, hc₁⟩ := sendIf_ok (by decide) rfl hset
  rw [run_bind_of_some (run_card _), run_bind_eq_some] at h
  obtain ⟨resp₂, s₃, hsend, h⟩ := h
  split at h
  · exact absurd (ok_of_pure h).1 ‹_›
  rw [not_not.1 ‹¬ resp₂ ≠ .emmcOk›] at hsend
  obtain ⟨cmd, hcmd, u₂, hc₂⟩ := sendCommandWith_ok (transferCommand_not_app write numBlocks) hsend
  rw [getCmd_transferCommand, Option.some.injEq] at hcmd
  subst hcmd
  rw [run_bind_eq_some] at h
  obtain ⟨⟨failed, done, buffer₁⟩, s₄, hloop, h⟩ := h
  obtain ⟨hcard₄, hfailed, hmoved⟩ := blockLoop_spec numBlocks 0 0 buffer s₃ (Nat.sub_zero _) hloop
  cases failed with
  | some r =>
      simp only at h
      exact absurd (ok_of_pure h).1 (hfailed r rfl)
  | none =>
  simp only at h
  split at h
  · rw [run_bind_eq_some] at h
    obtain ⟨_, _, -, h⟩ := h
    exact absurd (ok_of_pure h).1 (by decide)
  rename_i hdone
  rw [not_not] at hdone
  obtain ⟨-, u₃, hu₃, hans, hmoved⟩ := hmoved rfl (by omega)
  rw [run_bind_eq_some] at h
  obtain ⟨resp₃, s₅, hwait, h⟩ := h
  split at h
  · exact absurd (ok_of_pure h).1 ‹_›
  rw [not_not.1 ‹¬ resp₃ ≠ .emmcOk›] at hwait
  obtain ⟨u₄, hc₄⟩ := waitIf_ok hwait
  rw [run_bind_of_some (run_card _), run_bind_eq_some] at h
  obtain ⟨resp₄, s₆, hstop, h⟩ := h
  split at h
  · exact absurd (ok_of_pure h).1 ‹_›
  rw [not_not.1 ‹¬ resp₄ ≠ .emmcOk›] at hstop
  obtain ⟨u₅, hc₅⟩ := sendIf_ok (by decide) rfl hstop
  obtain ⟨-, rfl, rfl⟩ := ok_of_pure h
  -- the card record the checks read is the one the call began with
  have hpre := (hc₀.trans hc₁).trans hc₂
  have hpost := hc₄.trans hc₅
  have hscr₄ : s₄.card.scr = s.card.scr := by rw [hcard₄, hpre.scr_eq]
  refine ⟨hknown, by omega, [.read .datInhibit (hw s.trace .datInhibit)] ++ u₁ ++ u₂, u₃, u₄ ++ u₅,
    ?_, ?_, ?_, ?_, hmoved, ?_⟩
  · rw [hpost.trace_eq, hu₃, hpre.trace_eq]
  · intro e he
    rcases List.mem_append.1 he with he | he
    · exact hpre.control e he
    · exact hpost.control e he
  · rw [hpre.sent, (hc₀.trans hc₁).cardType_eq, hc₀.scr_eq]
    rfl
  · rwa [← hpre.trace_eq]
  · rw [hpost.sent, hc₄.scr_eq, hscr₄]
    rfl

/-- A transfer that returned OK was of at least one block, to a known card,
into a buffer that holds the blocks; and it sent its commands in order:
`SET_BLOCKCNT` when several blocks go to a card that counts them, the
transfer command once, at the first block's address, and `STOP_TRANS` when
several blocks went to a card that does not count them. -/
theorem transferBlocks_ok_commands {startBlock numBlocks bufferAddr : Nat} {buffer buffer' : List UInt8}
    {write : Bool} {s s' : Driver}
    (h : (emmcTransferBlocks hw startBlock numBlocks bufferAddr buffer write).run s =
      some ((.emmcOk, buffer'), s')) :
    s.card.emmcCardType ≠ .emmcTypeUnknown ∧ 0 < numBlocks ∧ 512 * numBlocks ≤ buffer.length ∧
    ∃ t, s'.trace = s.trace ++ t ∧
      commands t = (if numBlocks > 1 ∧ supportsSetBlkcnt s.card.scr then [(setBlockcntCode, numBlocks)] else []) ++
        [(transferCode write numBlocks, blockAddress s.card.emmcCardType startBlock)] ++
        (if numBlocks > 1 ∧ ¬ supportsSetBlkcnt s.card.scr then [(stopTransCode, 0)] else []) := by
  obtain ⟨hknown, hpos, t₁, t₂, t₃, ht, -, hc₁, -, hmoved, hc₃⟩ := emmcTransferBlocks_ok_spec h
  refine ⟨hknown, hpos, by simpa using hmoved.fits, t₁ ++ t₂ ++ t₃, by rw [ht]; simp, ?_⟩
  rw [commands_append, commands_append, hc₁, hmoved.noCommand, hc₃, List.append_nil]

/-- A run that evaluated to an OK result, taken apart: a whole transfer on a
concrete controller is checked once, by evaluation, and the buffer and the
driver's state are read off it. -/
theorem eq_ok_of_any {α : Type} {x : Option ((SdResult × α) × Driver)}
    (h : x.any (fun r => r.1.1 == .emmcOk) = true) : ∃ b s', x = some ((.emmcOk, b), s') := by
  obtain ⟨⟨⟨r, b⟩, s'⟩, hx, hr⟩ := (Option.any_eq_true _ _).1 h
  rw [beq_iff_eq] at hr
  subst hr
  exact ⟨b, s', hx⟩

/-- One block written to sector 5 of a high-capacity card, on a controller
that answers every wait at once. -/
theorem transferBlocks_ok_commands_write_one :
    ∃ buffer' s', (emmcTransferBlocks (fun _ _ => ⟨true, 0, by decide⟩) 5 1 0 (List.replicate 512 7) true).run
        ⟨⟨0, .emmcType2Hc, 0, 0, 0⟩, []⟩ = some ((.emmcOk, buffer'), s') ∧
      SdCardType.emmcType2Hc ≠ .emmcTypeUnknown ∧ 0 < 1 ∧ 512 * 1 ≤ (List.replicate 512 (7 : UInt8)).length ∧
      ∃ t, s'.trace = [] ++ t ∧
        commands t = (if 1 > 1 ∧ supportsSetBlkcnt 0 then [(setBlockcntCode, 1)] else []) ++
          [(transferCode true 1, blockAddress .emmcType2Hc 5)] ++
          (if 1 > 1 ∧ ¬ supportsSetBlkcnt 0 then [(stopTransCode, 0)] else []) := by
  obtain ⟨_, _, hrun⟩ := eq_ok_of_any (x := (emmcTransferBlocks (fun _ _ => ⟨true, 0, by decide⟩) 5 1 0
    (List.replicate 512 7) true).run ⟨⟨0, .emmcType2Hc, 0, 0, 0⟩, []⟩) (by decide +kernel)
  exact ⟨_, _, hrun, transferBlocks_ok_commands hrun⟩

/-! ## Against a card

With a card behind the controller (`LanternOS.Emmc.Card`), a transfer that
returned OK is the one `LanternOS.Fs.Fat32` takes the driver to make: a
read from a word-aligned buffer is `Fs.emmcRead`, and a write, from any
buffer, leaves the card holding `Fs.emmcWrite`.  A read into a buffer that
is not word-aligned is not `Fs.emmcRead`: each word's bytes land reversed.

The card must read the address the driver sends as the driver means it: a
block number exactly when the driver did not take the card for a
standard-capacity one, whose byte address must fit the 32 bits it is sent
in. -/

/-! ## Erasing -/

/-- The wait after `ERASE` returned OK only on reading `DAT_INHIBIT` clear,
after at most `count` reads of it set. -/
theorem eraseWait_ok : ∀ (count : Nat) (s : Driver) {s' : Driver},
    (eraseWait hw count).run s = some (.emmcOk, s') →
    ∃ t a, ControlRun s s' (t ++ [Event.read .datInhibitFlag a]) [] ∧ a.ready = false ∧ t.length ≤ count
  | count, s, s', h => by
      unfold eraseWait at h
      rw [run_bind_of_some (run_observe hw _ s)] at h
      split at h
      · rename_i hclear
        rw [run_pure_some, Option.some.injEq, Prod.mk.injEq] at h
        obtain ⟨-, rfl⟩ := h
        exact ⟨[], _, ControlRun.read s nofun, by simpa using hclear, Nat.zero_le _⟩
      · cases count with
        | zero => simp at h
        | succ count =>
            obtain ⟨t, a, hc, ha, hlen⟩ := eraseWait_ok count _ h
            refine ⟨.read .datInhibitFlag (hw s.trace .datInhibitFlag) :: t, a, ?_, ha, by simp; omega⟩
            simpa using (ControlRun.read s (q := .datInhibitFlag) nofun).trans hc

/-- The code `get_cmd` gives `ERASE_WR_ST`. -/
def eraseWrStCode : Cmdtm := ⟨0x20, .cmd48bitResp, false, false, false, false⟩

/-- The code `get_cmd` gives `ERASE_WR_END`. -/
def eraseWrEndCode : Cmdtm := ⟨0x21, .cmd48bitResp, false, false, false, false⟩

/-- The code `get_cmd` gives `ERASE`. -/
def eraseCode : Cmdtm := ⟨0x26, .cmdBusy48bitResp, false, false, false, false⟩

/-- `emmc_clear_blocks` returned OK only for a known card and an end block
within 32 bits, after it sent `ERASE_WR_ST` at the first block's address,
`ERASE_WR_END` at the address of block `start_block + num_blocks`, one past
the last block asked for, and `ERASE`, in that order, and then read
`DAT_INHIBIT` clear. -/
theorem clearBlocks_ok_commands {startBlock numBlocks : Nat} {s s' : Driver}
    (h : (emmcClearBlocks hw startBlock numBlocks).run s = some (.emmcOk, s')) :
    s.card.emmcCardType ≠ .emmcTypeUnknown ∧ startBlock + numBlocks < 2 ^ 32 ∧
    ∃ t a, s'.trace = s.trace ++ t ++ [.read .datInhibitFlag a] ∧ a.ready = false ∧
      commands t = [(eraseWrStCode, blockAddress s.card.emmcCardType startBlock),
        (eraseWrEndCode, blockAddress s.card.emmcCardType (startBlock + numBlocks)), (eraseCode, 0)] := by
  unfold emmcClearBlocks at h
  rw [run_bind_of_some (run_card s)] at h
  split at h
  · simp at h
  rename_i hknown
  replace h := (run_waitForData_bind (by decide) h).2
  have hc₀ : ControlRun s (s.afterRead hw .datInhibit) [.read .datInhibit (hw s.trace .datInhibit)] [] :=
    ControlRun.read s nofun
  rw [run_bind_of_some (run_card _)] at h
  cases hend : Checked.add 32 startBlock numBlocks with
  | none => simp [hend] at h
  | some endBlock =>
  obtain ⟨hfit, rfl⟩ := Checked.add_eq_some.1 hend
  rw [hend, run_bind_of_some (run_liftM_map _ _), run_bind_of_some (run_card _), run_bind_eq_some] at h
  obtain ⟨resp₁, s₂, hst, h⟩ := h
  split at h
  · simp only [run_pure_some, Option.some.injEq, Prod.mk.injEq, emmcDebugResponse] at h
    exact absurd h.1 ‹_›
  rw [not_not.1 ‹¬ resp₁ ≠ .emmcOk›] at hst
  obtain ⟨cmd₁, hcmd₁, u₁, hc₁⟩ := sendCommandWith_ok (by decide) hst
  cases hcmd₁
  rw [run_bind_eq_some] at h
  obtain ⟨resp₂, s₃, hend', h⟩ := h
  split at h
  · simp only [run_pure_some, Option.some.injEq, Prod.mk.injEq, emmcDebugResponse] at h
    exact absurd h.1 ‹_›
  rw [not_not.1 ‹¬ resp₂ ≠ .emmcOk›] at hend'
  obtain ⟨cmd₂, hcmd₂, u₂, hc₂⟩ := sendCommandWith_ok (by decide) hend'
  cases hcmd₂
  rw [run_bind_eq_some] at h
  obtain ⟨resp₃, s₄, herase, h⟩ := h
  split at h
  · simp only [run_pure_some, Option.some.injEq, Prod.mk.injEq, emmcDebugResponse] at h
    exact absurd h.1 ‹_›
  rw [not_not.1 ‹¬ resp₃ ≠ .emmcOk›] at herase
  obtain ⟨cmd₃, hcmd₃, u₃, hc₃⟩ := sendCommandWith_ok (by decide) herase
  cases hcmd₃
  obtain ⟨u₄, a, hc₄, ha, -⟩ := eraseWait_ok 1000000 s₄ h
  have hall := (((hc₀.trans hc₁).trans hc₂).trans hc₃).trans hc₄
  refine ⟨hknown, hfit, [.read .datInhibit (hw s.trace .datInhibit)] ++ u₁ ++ u₂ ++ u₃ ++ u₄, a,
    by rw [hall.trace_eq]; simp, ha, ?_⟩
  simpa [EMMCCommand.plain, eraseWrStCode, eraseWrEndCode, eraseCode] using hall.sent

/-- Blocks 5 to 12 of a high-capacity card erased, on a controller that
answers every wait at once and shows `DAT_INHIBIT` clear. -/
theorem clearBlocks_ok_commands_five_eight :
    ∃ s', (emmcClearBlocks (fun _ q => ⟨q != .datInhibitFlag, 0, by decide⟩) 5 8).run
        ⟨⟨0, .emmcType2Hc, 0, 0, 0⟩, []⟩ = some (.emmcOk, s') ∧
      SdCardType.emmcType2Hc ≠ .emmcTypeUnknown ∧ 5 + 8 < 2 ^ 32 ∧
      ∃ t a, s'.trace = [] ++ t ++ [.read .datInhibitFlag a] ∧ a.ready = false ∧
        commands t = [(eraseWrStCode, blockAddress .emmcType2Hc 5),
          (eraseWrEndCode, blockAddress .emmcType2Hc (5 + 8)), (eraseCode, 0)] := by
  have hrun : (emmcClearBlocks (fun _ q => ⟨q != .datInhibitFlag, 0, by decide⟩) 5 8).run
      ⟨⟨0, .emmcType2Hc, 0, 0, 0⟩, []⟩ = some (_, _) := rfl
  exact ⟨_, hrun, clearBlocks_ok_commands hrun⟩

section Card

variable {hcs : Bool} {sector : Nat}

theorem startOf_blockAddress (cardType : SdCardType) (hcs_iff : hcs = true ↔ cardType ≠ .emmcType2Sc)
    (hsc : cardType = .emmcType2Sc → 512 * sector < 2 ^ 32) :
    startOf hcs (blockAddress cardType sector) = 512 * sector := by
  by_cases hty : cardType = .emmcType2Sc
  · have hfalse : hcs = false := by simpa [hty] using hcs_iff
    rw [startOf, blockAddress, if_pos hty, hfalse, if_neg Bool.false_ne_true, Nat.shiftLeft_eq,
      Nat.mod_eq_of_lt (by have := hsc hty; omega)]
    omega
  · rw [startOf, blockAddress, if_neg hty, if_pos (hcs_iff.2 hty)]

theorem transferIndex_transferCode (write : Bool) (numBlocks : Nat) :
    transferIndex (transferCode write numBlocks).cmdIndex = true := by
  unfold transferCode
  split <;> split <;> rfl

/-- The card, once the commands of a transfer went out, is at the
transfer's start. -/
theorem run_after_transfer_command {c₀ : CardState} {pre t₁ : List Event} {cond : Prop} [Decidable cond]
    {numBlocks address : Nat} {write : Bool} (hctl : ∀ e ∈ t₁, e.isData = false)
    (hc : commands t₁ = (if cond then [(setBlockcntCode, numBlocks)] else []) ++
      [(transferCode write numBlocks, address)]) :
    c₀.run hcs (pre ++ t₁) = ⟨(c₀.run hcs pre).disk, startOf hcs address⟩ := by
  rw [run_append]
  refine run_of_control_last hctl hc ?_ (transferIndex_transferCode write numBlocks)
  intro p hp
  split at hp
  · rw [List.mem_singleton] at hp
    subst hp
    rfl
  · cases hp

/-- Control traffic after the blocks, at most `STOP_TRANS`, leaves the card. -/
theorem run_after_blocks {c : CardState} {t₃ : List Event} {cond : Prop} [Decidable cond]
    (hctl : ∀ e ∈ t₃, e.isData = false) (hc : commands t₃ = if cond then [(stopTransCode, 0)] else []) :
    c.run hcs t₃ = c := by
  rw [run_of_control hctl]
  refine foldl_step_of_not_transfer (fun p hp => ?_) c
  rw [hc] at hp
  split at hp
  · rw [List.mem_singleton] at hp
    subst hp
    rfl
  · cases hp

/-- A transfer that returned OK, as the card sees it: the commands before
the blocks put it at the first block's byte, and what follows the blocks
leaves it where it is. -/
theorem transferBlocks_ok_card (c₀ : CardState) {numBlocks bufferAddr : Nat} {buffer buffer' : List UInt8}
    {write : Bool} {s s' : Driver}
    (hcs_iff : hcs = true ↔ s.card.emmcCardType ≠ .emmcType2Sc)
    (hsc : s.card.emmcCardType = .emmcType2Sc → 512 * sector < 2 ^ 32)
    (h : (emmcTransferBlocks hw sector numBlocks bufferAddr buffer write).run s = some ((.emmcOk, buffer'), s')) :
    ∃ t₁ t₂ t₃, s'.trace = s.trace ++ t₁ ++ t₂ ++ t₃ ∧
      c₀.run hcs (s.trace ++ t₁) = ⟨(c₀.run hcs s.trace).disk, 512 * sector⟩ ∧
      Answered hw (s.trace ++ t₁) t₂ ∧ Moved write (unaligned bufferAddr) 0 numBlocks buffer t₂ buffer' ∧
      ∀ c : CardState, c.run hcs t₃ = c := by
  obtain ⟨-, -, t₁, t₂, t₃, ht, hctl, hc₁, hans, hmoved, hc₃⟩ := emmcTransferBlocks_ok_spec h
  have hctl₁ : ∀ e ∈ t₁, e.isData = false := fun e he => hctl e (List.mem_append_left _ he)
  have hctl₃ : ∀ e ∈ t₃, e.isData = false := fun e he => hctl e (List.mem_append_right _ he)
  refine ⟨t₁, t₂, t₃, ht, ?_, hans, hmoved, fun c => run_after_blocks hctl₃ hc₃⟩
  rw [run_after_transfer_command hctl₁ hc₁, startOf_blockAddress _ hcs_iff hsc]

/-- A read from a word-aligned buffer that returned OK is `Fs.emmcRead` of
the card as the call found it, which it leaves as it was. -/
theorem transferBlocks_read_refines {ctl : Hw} {c₀ : CardState} {numBlocks bufferAddr : Nat}
    {buffer buffer' : List UInt8} {s s' : Driver}
    (hcs_iff : hcs = true ↔ s.card.emmcCardType ≠ .emmcType2Sc)
    (hsc : s.card.emmcCardType = .emmcType2Sc → 512 * sector < 2 ^ 32)
    (hal : unaligned bufferAddr = false)
    (h : (emmcTransferBlocks (withCard ctl hcs c₀) sector numBlocks bufferAddr buffer false).run s =
      some ((.emmcOk, buffer'), s')) :
    buffer' = Fs.emmcRead (c₀.run hcs s.trace).disk sector numBlocks buffer ∧
      (c₀.run hcs s'.trace).disk = (c₀.run hcs s.trace).disk := by
  obtain ⟨t₁, t₂, t₃, ht, hstart, hans, hmoved, hafter₃⟩ := transferBlocks_ok_card c₀ hcs_iff hsc h
  obtain ⟨hwr, hlen, hbuf⟩ := hmoved.received rfl
  -- the words read are the card's bytes from the first block on
  obtain ⟨hwords, hafter⟩ := run_reads hans hmoved.noCommand hwr
  rw [hstart, hlen] at hwords
  have hfits : 512 * numBlocks ≤ buffer.length := by simpa using hmoved.fits
  refine ⟨?_, ?_⟩
  · rw [hbuf, hal, placed_false, hwords, LittleEndian.toChunks_chunks (by simp),
      List.take_of_length_le (by simp), show 4 * (128 * numBlocks) = 512 * numBlocks by omega,
      Fs.emmcRead_eq_splice hfits]
  · rw [ht, run_append (t := s.trace ++ t₁ ++ t₂), hafter₃, hafter, hstart]

/-- One block read from sector 5 of a high-capacity card whose byte `a` is
`a mod 256`, into a word-aligned buffer. -/
theorem transferBlocks_read_refines_sector_five :
    (true = true ↔ SdCardType.emmcType2Hc ≠ .emmcType2Sc) ∧
      (SdCardType.emmcType2Hc = .emmcType2Sc → 512 * 5 < 2 ^ 32) ∧ unaligned 0 = false ∧
      ∃ buffer' s', (emmcTransferBlocks (withCard (fun _ _ => ⟨true, 0, by decide⟩) true ⟨fun a => UInt8.ofNat a, 0⟩)
          5 1 0 (List.replicate 512 0) false).run ⟨⟨0, .emmcType2Hc, 0, 0, 0⟩, []⟩ =
          some ((.emmcOk, buffer'), s') ∧
        buffer' = Fs.emmcRead (fun a => UInt8.ofNat a) 5 1 (List.replicate 512 0) ∧
        (CardState.run true ⟨fun a => UInt8.ofNat a, 0⟩ s'.trace).disk = fun a => UInt8.ofNat a := by
  obtain ⟨_, _, hrun⟩ := eq_ok_of_any (x := (emmcTransferBlocks (withCard (fun _ _ => ⟨true, 0, by decide⟩) true
    ⟨fun a => UInt8.ofNat a, 0⟩) 5 1 0 (List.replicate 512 0) false).run ⟨⟨0, .emmcType2Hc, 0, 0, 0⟩, []⟩)
    (by decide +kernel)
  have hrefines := transferBlocks_read_refines (by decide) (by decide) (by decide) hrun
  exact ⟨by decide, by decide, rfl, _, _, hrun, hrefines⟩

/-- A write that returned OK, from any buffer, leaves the buffer as it was
and the card holding `Fs.emmcWrite` of the card as the call found it,
whatever the controller answered. -/
theorem transferBlocks_write_refines {hw : Hw} {c₀ : CardState} {numBlocks bufferAddr : Nat}
    {buffer buffer' : List UInt8} {s s' : Driver}
    (hcs_iff : hcs = true ↔ s.card.emmcCardType ≠ .emmcType2Sc)
    (hsc : s.card.emmcCardType = .emmcType2Sc → 512 * sector < 2 ^ 32)
    (h : (emmcTransferBlocks hw sector numBlocks bufferAddr buffer true).run s = some ((.emmcOk, buffer'), s')) :
    buffer' = buffer ∧ (c₀.run hcs s'.trace).disk = Fs.emmcWrite (c₀.run hcs s.trace).disk sector numBlocks buffer := by
  obtain ⟨t₁, t₂, t₃, ht, hstart, -, hmoved, hafter₃⟩ := transferBlocks_ok_card c₀ hcs_iff hsc h
  obtain ⟨hrd, hwr, hbuf⟩ := hmoved.sent rfl
  have hfits : 512 * numBlocks ≤ buffer.length := by simpa using hmoved.fits
  refine ⟨hbuf, ?_⟩
  rw [ht, run_append (t := s.trace ++ t₁ ++ t₂), hafter₃, run_append (t := s.trace ++ t₁),
    hstart, run_writes hmoved.noCommand hrd, hwr, List.drop_zero, LittleEndian.toChunks_chunks (by omega),
    show 4 * (128 * numBlocks) = 512 * numBlocks by omega]
  rfl

/-- One block of bytes `0, 1, …, 255, 0, …` written to sector 5 of a blank
high-capacity card, from a buffer that is not word-aligned. -/
theorem transferBlocks_write_refines_sector_five :
    (true = true ↔ SdCardType.emmcType2Hc ≠ .emmcType2Sc) ∧
      (SdCardType.emmcType2Hc = .emmcType2Sc → 512 * 5 < 2 ^ 32) ∧
      ∃ buffer' s', (emmcTransferBlocks (fun _ _ => ⟨true, 0, by decide⟩) 5 1 3
          ((List.range 512).map UInt8.ofNat) true).run ⟨⟨0, .emmcType2Hc, 0, 0, 0⟩, []⟩ =
          some ((.emmcOk, buffer'), s') ∧
        buffer' = (List.range 512).map UInt8.ofNat ∧
        (CardState.run true ⟨fun _ => 0, 0⟩ s'.trace).disk =
          Fs.emmcWrite (fun _ => 0) 5 1 ((List.range 512).map UInt8.ofNat) := by
  obtain ⟨_, _, hrun⟩ := eq_ok_of_any (x := (emmcTransferBlocks (fun _ _ => ⟨true, 0, by decide⟩) 5 1 3
    ((List.range 512).map UInt8.ofNat) true).run ⟨⟨0, .emmcType2Hc, 0, 0, 0⟩, []⟩) (by decide +kernel)
  exact ⟨by decide, by decide, _, _, hrun, transferBlocks_write_refines (by decide) (by decide) hrun⟩

/-- Byte `j` of the `k`-th word stored. -/
theorem getElem?_placed {unaligned : Bool} {ws : List Nat} {k j : Nat} (hk : k < ws.length) (hj : j < 4) :
    (placed unaligned ws)[4 * k + j]? = (wordBytes unaligned ws[k])[j]? := by
  induction ws generalizing k with
  | nil => simp at hk
  | cons w ws ih =>
      rw [placed_cons]
      cases k with
      | zero => rw [List.getElem?_append_left (by simp; omega)]; simp
      | succ k =>
          rw [List.getElem?_append_right (by simp; omega), length_wordBytes,
            show 4 * (k + 1) + j - 4 = 4 * k + j by omega, ih (by simpa using hk)]
          rfl

/-- A read into a buffer that is not word-aligned, that returned OK, stores
every word of the blocks with its bytes reversed: byte `j` of the `k`-th
word is byte `3 - j` of that word on the card. -/
theorem transferBlocks_unaligned_read_swaps {ctl : Hw} {c₀ : CardState} {numBlocks bufferAddr : Nat}
    {buffer buffer' : List UInt8} {s s' : Driver}
    (hcs_iff : hcs = true ↔ s.card.emmcCardType ≠ .emmcType2Sc)
    (hsc : s.card.emmcCardType = .emmcType2Sc → 512 * sector < 2 ^ 32)
    (hal : unaligned bufferAddr = true)
    (h : (emmcTransferBlocks (withCard ctl hcs c₀) sector numBlocks bufferAddr buffer false).run s =
      some ((.emmcOk, buffer'), s')) :
    ∀ k < 128 * numBlocks, ∀ j < 4,
      buffer'[4 * k + j]? = some ((c₀.run hcs s.trace).disk (512 * sector + 4 * k + (3 - j))) := by
  obtain ⟨t₁, t₂, -, -, hstart, hans, hmoved, -⟩ := transferBlocks_ok_card c₀ hcs_iff hsc h
  obtain ⟨hwr, hlen, hbuf⟩ := hmoved.received rfl
  obtain ⟨hwords, -⟩ := run_reads hans hmoved.noCommand hwr
  rw [hstart, hlen] at hwords
  dsimp only at hwords
  intro k hk j hj
  have hk' : k < (dataReads t₂).length := by omega
  have hword : (dataReads t₂)[k] =
      LittleEndian.ofBytes (((Fs.readDisk (c₀.run hcs s.trace).disk (512 * sector) (4 * (128 * numBlocks))).drop
        (4 * k)).take 4) := by
    have h₁ : (dataReads t₂)[k]? = some (LittleEndian.ofBytes (((Fs.readDisk (c₀.run hcs s.trace).disk
        (512 * sector) (4 * (128 * numBlocks))).drop (4 * k)).take 4)) := by
      rw [hwords]
      exact LittleEndian.getElem?_chunks hk
    rwa [List.getElem?_eq_getElem hk', Option.some.injEq] at h₁
  have hfour : (((Fs.readDisk (c₀.run hcs s.trace).disk (512 * sector) (4 * (128 * numBlocks))).drop
      (4 * k)).take 4).length = 4 := by simp; omega
  have hbytes := LittleEndian.toBytes_ofBytes (((Fs.readDisk (c₀.run hcs s.trace).disk (512 * sector)
    (4 * (128 * numBlocks))).drop (4 * k)).take 4)
  rw [hfour] at hbytes
  rw [hbuf, hal, Slice.splice, List.take_zero, List.nil_append,
    List.getElem?_append_left (by simp; omega), getElem?_placed (by omega) hj, hword, wordBytes, if_pos rfl,
    hbytes, List.getElem?_reverse (by omega), hfour]
  simp only [Fs.readDisk, List.getElem?_take, List.getElem?_drop, List.getElem?_map]
  rw [if_pos (by omega), List.getElem?_range (by omega), Option.map_some, Nat.add_assoc]

/-- One block read from sector 5 of a high-capacity card whose byte `a` is
`a mod 256`, into a buffer at an odd address. -/
theorem transferBlocks_unaligned_read_swaps_sector_five :
    (true = true ↔ SdCardType.emmcType2Hc ≠ .emmcType2Sc) ∧
      (SdCardType.emmcType2Hc = .emmcType2Sc → 512 * 5 < 2 ^ 32) ∧ unaligned 1 = true ∧
      ∃ buffer' s', (emmcTransferBlocks (withCard (fun _ _ => ⟨true, 0, by decide⟩) true ⟨fun a => UInt8.ofNat a, 0⟩)
          5 1 1 (List.replicate 512 0) false).run ⟨⟨0, .emmcType2Hc, 0, 0, 0⟩, []⟩ =
          some ((.emmcOk, buffer'), s') ∧
        ∀ k < 128 * 1, ∀ j < 4, buffer'[4 * k + j]? = some (UInt8.ofNat (512 * 5 + 4 * k + (3 - j))) := by
  obtain ⟨_, _, hrun⟩ := eq_ok_of_any (x := (emmcTransferBlocks (withCard (fun _ _ => ⟨true, 0, by decide⟩) true
    ⟨fun a => UInt8.ofNat a, 0⟩) 5 1 1 (List.replicate 512 0) false).run ⟨⟨0, .emmcType2Hc, 0, 0, 0⟩, []⟩)
    (by decide +kernel)
  have hswaps := transferBlocks_unaligned_read_swaps (by decide) (by decide) (by decide) hrun
  exact ⟨by decide, by decide, rfl, _, _, hrun, hswaps⟩

end Card

end Emmc

end LanternOS
