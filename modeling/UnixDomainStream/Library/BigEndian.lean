import Mathlib.Data.List.Induction
import Mathlib.Data.Nat.Bitwise

/-!
# Big-endian words

A word of `width` bytes, most significant byte first.  `ofBytes` reads any byte
string as a number; `toBytes` writes the low `width` bytes of a number.
-/

namespace UnixDomainStream.Library.BigEndian

def ofBytes (bytes : List UInt8) : Nat :=
  bytes.foldl (fun value byte => value * 256 + byte.toNat) 0

def toBytes : Nat → Nat → List UInt8
  | 0, _ => []
  | width + 1, value => toBytes width (value / 256) ++ [UInt8.ofNat value]

@[simp]
theorem ofBytes_nil : ofBytes [] = 0 := rfl

@[simp]
theorem ofBytes_concat (bytes : List UInt8) (byte : UInt8) :
    ofBytes (bytes ++ [byte]) = ofBytes bytes * 256 + byte.toNat := by
  simp [ofBytes]

@[simp]
theorem toBytes_length (width value : Nat) : (toBytes width value).length = width := by
  induction width generalizing value with
  | zero => rfl
  | succ width ih => simp [toBytes, ih]

/-- Reading back a written word gives the number, as long as it fits. -/
theorem ofBytes_toBytes (width value : Nat) (fits : value < 256 ^ width) :
    ofBytes (toBytes width value) = value := by
  induction width generalizing value with
  | zero =>
      have zero : value = 0 := by simpa using fits
      simp [toBytes, zero]
  | succ width ih =>
      have high : value / 256 < 256 ^ width :=
        (Nat.div_lt_iff_lt_mul (by decide : 0 < 256)).mpr (by simpa [Nat.pow_succ] using fits)
      rw [toBytes, ofBytes_concat, ih _ high, UInt8.toNat_ofNat']
      omega

/-- Writing back a number read from bytes gives the bytes. -/
theorem toBytes_ofBytes (bytes : List UInt8) : toBytes bytes.length (ofBytes bytes) = bytes := by
  induction bytes using List.reverseRecOn with
  | nil => rfl
  | append_singleton bytes byte ih =>
      have small := byte.toNat_lt
      have high : (ofBytes bytes * 256 + byte.toNat) / 256 = ofBytes bytes := by omega
      have low : UInt8.ofNat (ofBytes bytes * 256 + byte.toNat) = byte := by
        apply UInt8.toNat_inj.mp
        rw [UInt8.toNat_ofNat']
        omega
      rw [List.length_append, List.length_singleton, ofBytes_concat, toBytes, high, ih, low]

theorem ofBytes_lt (bytes : List UInt8) : ofBytes bytes < 256 ^ bytes.length := by
  induction bytes using List.reverseRecOn with
  | nil => decide
  | append_singleton bytes byte ih =>
      have small := byte.toNat_lt
      rw [ofBytes_concat, List.length_append, List.length_singleton, Nat.pow_succ]
      omega

/-- A byte placed directly below a shifted word extends the word by that byte. -/
theorem or_next (word byte bits : Nat) (small : byte < 256) :
    word * 2 ^ (bits + 8) ||| byte * 2 ^ bits = (word * 256 + byte) * 2 ^ bits := by
  have below : byte * 2 ^ bits < 2 ^ (bits + 8) := by
    rw [Nat.pow_add, Nat.mul_comm (2 ^ bits)]
    exact Nat.mul_lt_mul_of_pos_right small (Nat.two_pow_pos bits)
  rw [← Nat.shiftLeft_eq word, ← Nat.shiftLeft_add_eq_or_of_lt below, Nat.shiftLeft_eq,
    Nat.pow_add, Nat.add_mul, Nat.mul_assoc, Nat.mul_comm 256]

end UnixDomainStream.Library.BigEndian
