/-
# `LanternOS.Emmc.Card` — an SD card that stores blocks

The driver's theorems hold for every controller `Hw`.  To say that a read
returns the card's bytes, the other side of the bus needs a model of its
own, and this is ours: no code of the repository describes the card.  A
card is its bytes and a position.  A transfer command (`READ_SINGLE`,
`READ_MULTI`, `WRITE_SINGLE`, `WRITE_MULTI`) moves the position to its
argument, a block number on a high-capacity card and a byte address on a
standard one; every data word read or written moves it on four bytes, and
a word written is stored there, least significant byte first.

`withCard ctl hcs c₀` is the controller that answers `DATA` from the card
in the state the transcript so far has taken it to, and every other read
as `ctl` does.  A transcript the driver made really is the controller's
answer at each read (`Answered`); over such a stretch with no command, the
words read are the card's bytes from its position (`run_reads`), and over a
stretch with no read the card ends up holding the words written
(`run_writes`).
-/
import LanternOS.Emmc.Command
import LanternOS.Fs.Fat32
import LanternOS.Lib.LittleEndian

namespace LanternOS

namespace Emmc

/-! ## Transcripts the controller answered -/

/-- What `e`, made after the transcript `pre`, says of the controller: a
read got `hw`'s answer there. -/
def Event.Answers (hw : Hw) (pre : List Event) : Event → Prop
  | .read q a => a = hw pre q
  | _ => True

/-- Every read of `t`, made after `pre`, got the answer `hw` gives at its
place. -/
def Answered (hw : Hw) (pre : List Event) : List Event → Prop
  | [] => True
  | e :: t => e.Answers hw pre ∧ Answered hw (pre ++ [e]) t

section Answered

variable {hw : Hw}

@[simp] theorem answered_nil (pre : List Event) : Answered hw pre [] := trivial

theorem answered_cons {pre : List Event} {e : Event} {t : List Event} :
    Answered hw pre (e :: t) ↔ e.Answers hw pre ∧ Answered hw (pre ++ [e]) t := Iff.rfl

theorem answered_append {pre t u : List Event} :
    Answered hw pre (t ++ u) ↔ Answered hw pre t ∧ Answered hw (pre ++ t) u := by
  induction t generalizing pre with
  | nil => simp
  | cons e t ih => simp [answered_cons, ih, and_assoc]

end Answered

/-! ## The card -/

/-- The card: its bytes, and where the next data word of a transfer goes. -/
structure CardState where
  disk : Fs.Disk
  pos : Nat

/-- The command indices that start a transfer: `READ_SINGLE`, `READ_MULTI`,
`WRITE_SINGLE`, `WRITE_MULTI`. -/
def transferIndex (i : Nat) : Bool :=
  i = 0x11 || i = 0x12 || i = 0x18 || i = 0x19

/-- Where a transfer command with argument `arg` starts: block `arg` on a
high-capacity card (`hcs`), byte `arg` otherwise. -/
def startOf (hcs : Bool) (arg : Nat) : Nat :=
  if hcs then 512 * arg else arg

/-- What the card does with one event on the bus. -/
def CardState.step (hcs : Bool) (c : CardState) : Event → CardState
  | .command code arg => if transferIndex code.cmdIndex then ⟨c.disk, startOf hcs arg⟩ else c
  | .dataWrite w => ⟨Fs.overwrite c.disk c.pos (LittleEndian.toBytes w 4), c.pos + 4⟩
  | .read .data _ => ⟨c.disk, c.pos + 4⟩
  | .read _ _ => c

/-- The card after a transcript. -/
def CardState.run (hcs : Bool) (c : CardState) (t : List Event) : CardState :=
  t.foldl (CardState.step hcs) c

/-- The word the card puts on `DATA` next. -/
def CardState.word (c : CardState) : Nat :=
  LittleEndian.ofBytes (Fs.readDisk c.disk c.pos 4)

theorem CardState.word_lt (c : CardState) : c.word < 2 ^ 32 := by
  have h := LittleEndian.ofBytes_lt (Fs.readDisk c.disk c.pos 4)
  rwa [Fs.length_readDisk] at h

/-- The controller with the card behind it: `DATA` is the card's next word,
every other read is `ctl`'s. -/
def withCard (ctl : Hw) (hcs : Bool) (c₀ : CardState) : Hw := fun t q =>
  if q = .data then ⟨true, (c₀.run hcs t).word, CardState.word_lt _⟩ else ctl t q

section Card

variable {hcs : Bool} {c : CardState}

@[simp] theorem run_nil : c.run hcs [] = c := rfl

theorem run_append (t u : List Event) : c.run hcs (t ++ u) = (c.run hcs t).run hcs u :=
  List.foldl_append

@[simp] theorem run_cons (e : Event) (t : List Event) : c.run hcs (e :: t) = (c.step hcs e).run hcs t :=
  rfl

/-- Over control traffic the card sees only the commands. -/
theorem run_of_control {u : List Event} (h : ∀ e ∈ u, e.isData = false) :
    c.run hcs u = (commands u).foldl (fun c p => c.step hcs (.command p.1 p.2)) c := by
  induction u generalizing c with
  | nil => rfl
  | cons e u ih =>
      have hu : ∀ e ∈ u, e.isData = false := fun e he => h e (List.mem_cons_of_mem _ he)
      cases e with
      | command code arg => simp [ih hu]
      | dataWrite w => simp [Event.isData] at h
      | read q a =>
          cases q <;> simp_all [Event.isData, CardState.step]

/-- Commands that start no transfer leave the card as it is. -/
theorem foldl_step_of_not_transfer {l : List (Cmdtm × Nat)} (h : ∀ p ∈ l, transferIndex p.1.cmdIndex = false)
    (c : CardState) : l.foldl (fun c p => c.step hcs (.command p.1 p.2)) c = c := by
  induction l generalizing c with
  | nil => rfl
  | cons p l ih =>
      rw [List.foldl_cons, CardState.step, h p List.mem_cons_self, if_neg Bool.false_ne_true]
      exact ih (fun p hp => h p (List.mem_cons_of_mem _ hp)) c

/-- A stretch of control traffic whose last command starts a transfer,
none before it doing so, leaves the card at that transfer's start. -/
theorem run_of_control_last {u : List Event} {pre : List (Cmdtm × Nat)} {code : Cmdtm} {arg : Nat}
    (h : ∀ e ∈ u, e.isData = false) (hcmds : commands u = pre ++ [(code, arg)])
    (hpre : ∀ p ∈ pre, transferIndex p.1.cmdIndex = false) (hcode : transferIndex code.cmdIndex = true) :
    c.run hcs u = ⟨c.disk, startOf hcs arg⟩ := by
  rw [run_of_control h, hcmds, List.foldl_append, foldl_step_of_not_transfer hpre]
  simp [CardState.step, hcode]

/-- Over a stretch with no command and no write, answered by the card, the
words read are the card's bytes from its position on, and the card moves
past them. -/
theorem run_reads {ctl : Hw} {c₀ : CardState} {pre u : List Event}
    (hans : Answered (withCard ctl hcs c₀) pre u) (hcmd : commands u = []) (hwr : dataWrites u = []) :
    dataReads u = LittleEndian.chunks 4 (dataReads u).length
        (Fs.readDisk (c₀.run hcs pre).disk (c₀.run hcs pre).pos (4 * (dataReads u).length)) ∧
      c₀.run hcs (pre ++ u) = ⟨(c₀.run hcs pre).disk, (c₀.run hcs pre).pos + 4 * (dataReads u).length⟩ := by
  induction u generalizing pre with
  | nil => simp [dataReads, LittleEndian.chunks]
  | cons e u ih =>
      rw [answered_cons] at hans
      obtain ⟨he, hans⟩ := hans
      cases e with
      | command code arg => simp at hcmd
      | dataWrite w => simp [dataWrites] at hwr
      | read q a =>
          simp only [commands_read] at hcmd
          have hwr' : dataWrites u = [] := by simpa [dataWrites] using hwr
          obtain ⟨ihr, ihc⟩ := ih hans hcmd hwr'
          have hsplit : pre ++ .read q a :: u = pre ++ [.read q a] ++ u := by simp
          rw [hsplit]
          by_cases hq : q = .data
          · -- a data read: the card's word, then the rest from four bytes on
            subst hq
            have ha : a.value = (c₀.run hcs pre).word := by
              rw [Event.Answers, withCard, if_pos rfl] at he
              rw [he]
            have hstep : c₀.run hcs (pre ++ [.read .data a]) = ⟨(c₀.run hcs pre).disk, (c₀.run hcs pre).pos + 4⟩ := by
              rw [run_append]
              rfl
            have hreads : dataReads (.read .data a :: u) = a.value :: dataReads u := rfl
            rw [hstep] at ihr ihc
            rw [hreads, List.length_cons, ihc]
            refine ⟨?_, by simp only [CardState.mk.injEq, true_and]; omega⟩
            rw [Nat.mul_succ, Nat.add_comm _ 4, Fs.readDisk_add, LittleEndian.chunks, ha, CardState.word,
              List.take_left' (Fs.length_readDisk _ _ _), List.drop_left' (Fs.length_readDisk _ _ _)]
            exact congrArg _ ihr
          · -- another register: the card does not move
            have hstep : c₀.run hcs (pre ++ [.read q a]) = c₀.run hcs pre := by
              rw [run_append]
              cases q <;> first | exact absurd rfl hq | rfl
            have hreads : dataReads (.read q a :: u) = dataReads u := by
              cases q <;> first | exact absurd rfl hq | rfl
            rw [hstep] at ihr ihc
            rw [hreads, ihc]
            exact ⟨ihr, rfl⟩

/-- Over a stretch with no command and no read of `DATA`, the card stores
the words written from its position on, whatever the controller answered. -/
theorem run_writes {u : List Event} (hcmd : commands u = []) (hrd : dataReads u = []) :
    c.run hcs u = ⟨Fs.overwrite c.disk c.pos (LittleEndian.toChunks 4 (dataWrites u)),
      c.pos + 4 * (dataWrites u).length⟩ := by
  induction u generalizing c with
  | nil => simp [dataWrites]
  | cons e u ih =>
      cases e with
      | command code arg => simp at hcmd
      | dataWrite w =>
          have hwrites : dataWrites (.dataWrite w :: u) = w :: dataWrites u := rfl
          have hrd' : dataReads u = [] := by simpa [dataReads] using hrd
          rw [run_cons, ih hcmd hrd', hwrites]
          simp only [CardState.step, LittleEndian.toChunks_cons, CardState.mk.injEq]
          constructor
          · rw [← Fs.overwrite_append, LittleEndian.length_toBytes]
          · simp only [List.length_cons]
            omega
      | read q a =>
          simp only [commands_read] at hcmd
          cases q <;> simp_all [dataReads, dataWrites, CardState.step]

end Card

end Emmc

end LanternOS
