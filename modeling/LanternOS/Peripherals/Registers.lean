/-
# `LanternOS.Peripherals.Registers` — what the UART sends

The UART reaches its device through memory-mapped registers at fixed offsets
from the board's MMIO base.  Before each byte it spins on the transmit-FIFO
flags; that loop only waits, so a function of the driver is modelled by the
writes it makes, each an offset and a 32-bit value.

## `write_str`

`write_str` sends each character as `c as u8`, the low byte of its code
point.  That is the string's UTF-8 encoding exactly when every character is
ASCII (`writeStr_eq_utf8_iff`); any other character goes out as one byte
where UTF-8 has two to four.
-/
import Mathlib

namespace LanternOS

namespace Peripherals

/-- A write of `value` to the register at `offset` from the MMIO base. -/
structure MmioWrite where
  offset : Nat
  value : Nat
  deriving DecidableEq, Repr

/-! ## The UART -/

namespace Uart

def uart0BaseOffset : Nat := 0x201000
def uart0WriteOffset : Nat := uart0BaseOffset

/-- `send_byte`, once the transmit FIFO has room. -/
def sendByte (byte : UInt8) : MmioWrite :=
  ⟨uart0WriteOffset, byte.toNat⟩

/-- `write_str`: one `send_byte` per character, of `c as u8`. -/
def writeStr (s : String) : List MmioWrite :=
  s.toList.map fun c => sendByte c.val.toUInt8

/-- A character is one byte of UTF-8 exactly when it is ASCII. -/
theorem utf8Size_eq_one_iff_ascii {c : Char} : c.utf8Size = 1 ↔ c.toNat < 128 := by
  rw [Char.utf8Size_eq_one_iff, UInt32.le_iff_toNat_le]
  have h127 : (127 : UInt32).toNat = 127 := rfl
  have hval : c.toNat = c.val.toNat := rfl
  omega

/-- A character beyond ASCII has a UTF-8 encoding of two bytes or more. -/
theorem one_lt_utf8Size {c : Char} (h : ¬ c.toNat < 128) : 1 < c.utf8Size := by
  have hne : c.utf8Size ≠ 1 := fun h1 => h (utf8Size_eq_one_iff_ascii.1 h1)
  have := c.utf8Size_pos
  omega

theorem length_le_length_flatMap_utf8EncodeChar (l : List Char) :
    l.length ≤ (l.flatMap String.utf8EncodeChar).length := by
  induction l with
  | nil => simp
  | cons c l ih =>
      have := c.utf8Size_pos
      simp only [List.flatMap_cons, List.length_append, String.length_utf8EncodeChar, List.length_cons]
      omega

theorem writeStr_eq_utf8_iff (s : String) :
    writeStr s = (s.toList.flatMap String.utf8EncodeChar).map sendByte ↔ ∀ c ∈ s.toList, c.toNat < 128 := by
  rw [writeStr]
  induction s.toList with
  | nil => simp
  | cons c l ih =>
      rw [List.map_cons, List.flatMap_cons, List.map_append, List.forall_mem_cons]
      by_cases hc : c.toNat < 128
      · -- an ASCII character is its own UTF-8 encoding
        rw [String.utf8EncodeChar_eq_singleton (utf8Size_eq_one_iff_ascii.2 hc), List.map_singleton,
          List.singleton_append, List.cons.injEq, ih]
        simp [hc]
      · -- any other character makes the UTF-8 encoding longer than what is sent
        have h2 := one_lt_utf8Size hc
        have h3 := length_le_length_flatMap_utf8EncodeChar l
        simp only [hc, false_and, iff_false]
        intro heq
        have := congrArg List.length heq
        simp only [List.length_cons, List.length_map, List.length_append, String.length_utf8EncodeChar] at this
        omega

end Uart

end Peripherals

end LanternOS
