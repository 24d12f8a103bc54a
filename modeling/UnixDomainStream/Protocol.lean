import Mathlib.Data.Nat.Bitwise
import Mathlib.Tactic.SplitIfs
import UnixDomainStream.Library.BigEndian

/-!
# The frame format

`impl/protocol.hpp`: a frame is a four-byte big-endian body length, a type byte
and the rest of the body.  Lengths are `size_t` sums modulo `2 ^ 64`, and the
length field keeps the low 32 bits of one.
-/

namespace UnixDomainStream.Protocol

open UnixDomainStream.Library

abbrev Bytes := List UInt8

inductive MessageType where
  | heartbeat
  | userData
  | healthCheck
  | healthCheckResponse
  | request
  | response
  deriving DecidableEq, Repr

def MessageType.toByte : MessageType → UInt8
  | .heartbeat => 0
  | .userData => 1
  | .healthCheck => 2
  | .healthCheckResponse => 3
  | .request => 4
  | .response => 5

/-- `static_cast<message_type>`; `none` is a value outside the enumeration. -/
def MessageType.ofByte? (byte : UInt8) : Option MessageType :=
  if byte = 0 then some .heartbeat
  else if byte = 1 then some .userData
  else if byte = 2 then some .healthCheck
  else if byte = 3 then some .healthCheckResponse
  else if byte = 4 then some .request
  else if byte = 5 then some .response
  else none

def headerSize : Nat := 4
def typeSize : Nat := 1
def requestIdSize : Nat := 8

/-- Unsigned 64-bit `size_t` arithmetic. -/
def sizeT (value : Nat) : Nat := value % 2 ^ 64

def encodeUint32 (value : UInt32) : Bytes :=
  [((value >>> 24) &&& 0xff).toUInt8,
   ((value >>> 16) &&& 0xff).toUInt8,
   ((value >>> 8) &&& 0xff).toUInt8,
   (value &&& 0xff).toUInt8]

/-- `input` is a `std::array` of four bytes. -/
def decodeUint32 (input : Bytes) : UInt32 :=
  ((input.getD 0 0).toUInt32 <<< 24) |||
  ((input.getD 1 0).toUInt32 <<< 16) |||
  ((input.getD 2 0).toUInt32 <<< 8) |||
  (input.getD 3 0).toUInt32

def encodeUint64 (value : UInt64) : Bytes :=
  [((value >>> 56) &&& 0xff).toUInt8,
   ((value >>> 48) &&& 0xff).toUInt8,
   ((value >>> 40) &&& 0xff).toUInt8,
   ((value >>> 32) &&& 0xff).toUInt8,
   ((value >>> 24) &&& 0xff).toUInt8,
   ((value >>> 16) &&& 0xff).toUInt8,
   ((value >>> 8) &&& 0xff).toUInt8,
   (value &&& 0xff).toUInt8]

/-- `none` when one of the eight subscripts of the vector is out of range. -/
def decodeUint64? (input : Bytes) (offset : Nat) : Option UInt64 := do
  let byte0 ← input[offset]?
  let byte1 ← input[offset + 1]?
  let byte2 ← input[offset + 2]?
  let byte3 ← input[offset + 3]?
  let byte4 ← input[offset + 4]?
  let byte5 ← input[offset + 5]?
  let byte6 ← input[offset + 6]?
  let byte7 ← input[offset + 7]?
  some ((byte0.toUInt64 <<< 56) |||
    (byte1.toUInt64 <<< 48) |||
    (byte2.toUInt64 <<< 40) |||
    (byte3.toUInt64 <<< 32) |||
    (byte4.toUInt64 <<< 24) |||
    (byte5.toUInt64 <<< 16) |||
    (byte6.toUInt64 <<< 8) |||
    byte7.toUInt64)

def makeFrame (type : MessageType) (data : Bytes) : Bytes :=
  let bodySize := sizeT (typeSize + data.length)
  encodeUint32 (UInt32.ofNat bodySize) ++ type.toByte :: data

def makeUserDataFrame (data : Bytes) : Bytes :=
  makeFrame .userData data

def makeRequestResponseFrame (type : MessageType) (requestId : UInt64) (data : Bytes) : Bytes :=
  let bodySize := sizeT (typeSize + requestIdSize + data.length)
  encodeUint32 (UInt32.ofNat bodySize) ++ type.toByte :: (encodeUint64 requestId ++ data)

def makeRequestFrame (requestId : UInt64) (data : Bytes) : Bytes :=
  makeRequestResponseFrame .request requestId data

def makeResponseFrame (requestId : UInt64) (data : Bytes) : Bytes :=
  makeRequestResponseFrame .response requestId data

def makeHeartbeatFrame : Bytes := makeFrame .heartbeat []

def makeHealthCheckFrame : Bytes := makeFrame .healthCheck []

def makeHealthCheckResponseFrame : Bytes := makeFrame .healthCheckResponse []

theorem toByte_of_ofByte? {byte : UInt8} {type : MessageType}
    (known : MessageType.ofByte? byte = some type) : byte = type.toByte := by
  simp only [MessageType.ofByte?] at known
  split_ifs at known with h0 h1 h2 h3 h4 h5
  all_goals
    cases known
    assumption

/-- The `default` case of the source's switches. -/
theorem lt_of_ofByte?_none {byte : UInt8} (unknown : MessageType.ofByte? byte = none) :
    5 < byte := by
  simp only [MessageType.ofByte?] at unknown
  split_ifs at unknown with h0 h1 h2 h3 h4 h5
  simp only [← UInt8.toNat_inj] at h0 h1 h2 h3 h4 h5
  rw [UInt8.lt_iff_toNat_lt]
  simp at h0 h1 h2 h3 h4 h5 ⊢
  omega

theorem ofByte?_of_lt {byte : UInt8} (large : 5 < byte) : MessageType.ofByte? byte = none := by
  cases known : MessageType.ofByte? byte with
  | none => rfl
  | some type =>
      rw [toByte_of_ofByte? known] at large
      cases type <;> exact absurd large (by decide)

/-! ## The two codecs are big-endian words -/

@[simp]
theorem encodeUint32_length (value : UInt32) : (encodeUint32 value).length = 4 := rfl

@[simp]
theorem encodeUint64_length (value : UInt64) : (encodeUint64 value).length = 8 := rfl

theorem shiftLeft32_toNat (byte : UInt8) (bits : UInt32) (inRange : bits.toNat ≤ 24) :
    (byte.toUInt32 <<< bits).toNat = byte.toNat * 2 ^ bits.toNat := by
  have small := byte.toNat_lt
  have shift : bits.toNat % 32 = bits.toNat := Nat.mod_eq_of_lt (by omega)
  have fits : byte.toNat * 2 ^ bits.toNat < 2 ^ 32 :=
    calc byte.toNat * 2 ^ bits.toNat
        < 2 ^ 8 * 2 ^ bits.toNat := Nat.mul_lt_mul_of_pos_right small (Nat.two_pow_pos _)
      _ = 2 ^ (8 + bits.toNat) := (Nat.pow_add 2 8 bits.toNat).symm
      _ ≤ 2 ^ 32 := Nat.pow_le_pow_right (by decide) (by omega)
  rw [UInt32.toNat_shiftLeft, UInt8.toNat_toUInt32, shift, Nat.shiftLeft_eq, Nat.mod_eq_of_lt fits]

theorem shiftLeft64_toNat (byte : UInt8) (bits : UInt64) (inRange : bits.toNat ≤ 56) :
    (byte.toUInt64 <<< bits).toNat = byte.toNat * 2 ^ bits.toNat := by
  have small := byte.toNat_lt
  have shift : bits.toNat % 64 = bits.toNat := Nat.mod_eq_of_lt (by omega)
  have fits : byte.toNat * 2 ^ bits.toNat < 2 ^ 64 :=
    calc byte.toNat * 2 ^ bits.toNat
        < 2 ^ 8 * 2 ^ bits.toNat := Nat.mul_lt_mul_of_pos_right small (Nat.two_pow_pos _)
      _ = 2 ^ (8 + bits.toNat) := (Nat.pow_add 2 8 bits.toNat).symm
      _ ≤ 2 ^ 64 := Nat.pow_le_pow_right (by decide) (by omega)
  rw [UInt64.toNat_shiftLeft, UInt8.toNat_toUInt64, shift, Nat.shiftLeft_eq, Nat.mod_eq_of_lt fits]

theorem decodeUint32_toNat (b0 b1 b2 b3 : UInt8) :
    (decodeUint32 [b0, b1, b2, b3]).toNat = BigEndian.ofBytes [b0, b1, b2, b3] := by
  simp only [decodeUint32, List.getD_cons_zero, List.getD_cons_succ, UInt32.toNat_or,
    shiftLeft32_toNat _ 24 (by decide), shiftLeft32_toNat _ 16 (by decide),
    shiftLeft32_toNat _ 8 (by decide), UInt8.toNat_toUInt32]
  have second := BigEndian.or_next b0.toNat b1.toNat 16 b1.toNat_lt
  have third := BigEndian.or_next (b0.toNat * 256 + b1.toNat) b2.toNat 8 b2.toNat_lt
  have fourth :=
    BigEndian.or_next ((b0.toNat * 256 + b1.toNat) * 256 + b2.toNat) b3.toNat 0 b3.toNat_lt
  simp [BigEndian.ofBytes] at second third fourth ⊢
  rw [second, third, fourth]

theorem decodeUint64?_toNat (head b0 b1 b2 b3 b4 b5 b6 b7 : UInt8) (rest : Bytes) :
    (decodeUint64? (head :: b0 :: b1 :: b2 :: b3 :: b4 :: b5 :: b6 :: b7 :: rest) typeSize).map
        UInt64.toNat =
      some (BigEndian.ofBytes [b0, b1, b2, b3, b4, b5, b6, b7]) := by
  have second := BigEndian.or_next b0.toNat b1.toNat 48 b1.toNat_lt
  have third := BigEndian.or_next (BigEndian.ofBytes [b0, b1]) b2.toNat 40 b2.toNat_lt
  have fourth := BigEndian.or_next (BigEndian.ofBytes [b0, b1, b2]) b3.toNat 32 b3.toNat_lt
  have fifth := BigEndian.or_next (BigEndian.ofBytes [b0, b1, b2, b3]) b4.toNat 24 b4.toNat_lt
  have sixth :=
    BigEndian.or_next (BigEndian.ofBytes [b0, b1, b2, b3, b4]) b5.toNat 16 b5.toNat_lt
  have seventh :=
    BigEndian.or_next (BigEndian.ofBytes [b0, b1, b2, b3, b4, b5]) b6.toNat 8 b6.toNat_lt
  have eighth :=
    BigEndian.or_next (BigEndian.ofBytes [b0, b1, b2, b3, b4, b5, b6]) b7.toNat 0 b7.toNat_lt
  simp [BigEndian.ofBytes] at second third fourth fifth sixth seventh eighth
  simp [decodeUint64?, typeSize, BigEndian.ofBytes, shiftLeft64_toNat _ 56 (by decide),
    shiftLeft64_toNat _ 48 (by decide), shiftLeft64_toNat _ 40 (by decide),
    shiftLeft64_toNat _ 32 (by decide), shiftLeft64_toNat _ 24 (by decide),
    shiftLeft64_toNat _ 16 (by decide), shiftLeft64_toNat _ 8 (by decide), second, third, fourth,
    fifth, sixth, seventh, eighth]

/-- One byte of an encoder: shift, mask and narrow. -/
theorem maskedByte32 (value bits : UInt32) (inRange : bits.toNat < 32) :
    ((value >>> bits) &&& 0xff).toUInt8 = UInt8.ofNat (value.toNat / 2 ^ bits.toNat) := by
  apply UInt8.toNat_inj.mp
  rw [UInt32.toNat_toUInt8, UInt32.toNat_and, UInt32.toNat_shiftRight, Nat.mod_eq_of_lt inRange,
    Nat.shiftRight_eq_div_pow, UInt8.toNat_ofNat']
  have mask : (255 : UInt32).toNat = 2 ^ 8 - 1 := by decide
  rw [mask, Nat.and_two_pow_sub_one_eq_mod, Nat.mod_mod]

theorem maskedByte64 (value bits : UInt64) (inRange : bits.toNat < 64) :
    ((value >>> bits) &&& 0xff).toUInt8 = UInt8.ofNat (value.toNat / 2 ^ bits.toNat) := by
  apply UInt8.toNat_inj.mp
  rw [UInt64.toNat_toUInt8, UInt64.toNat_and, UInt64.toNat_shiftRight, Nat.mod_eq_of_lt inRange,
    Nat.shiftRight_eq_div_pow, UInt8.toNat_ofNat']
  have mask : (255 : UInt64).toNat = 2 ^ 8 - 1 := by decide
  rw [mask, Nat.and_two_pow_sub_one_eq_mod, Nat.mod_mod]

theorem encodeUint32_eq (value : UInt32) :
    encodeUint32 value = BigEndian.toBytes 4 value.toNat := by
  have last := maskedByte32 value 0 (by decide)
  simp only [UInt32.shiftRight_zero] at last
  simp only [encodeUint32, maskedByte32 _ 24 (by decide), maskedByte32 _ 16 (by decide),
    maskedByte32 _ 8 (by decide), last]
  simp [BigEndian.toBytes, Nat.div_div_eq_div_mul]

theorem encodeUint64_eq (value : UInt64) :
    encodeUint64 value = BigEndian.toBytes 8 value.toNat := by
  have last := maskedByte64 value 0 (by decide)
  simp only [UInt64.shiftRight_zero] at last
  simp only [encodeUint64, maskedByte64 _ 56 (by decide), maskedByte64 _ 48 (by decide),
    maskedByte64 _ 40 (by decide), maskedByte64 _ 32 (by decide), maskedByte64 _ 24 (by decide),
    maskedByte64 _ 16 (by decide), maskedByte64 _ 8 (by decide), last]
  simp [BigEndian.toBytes, Nat.div_div_eq_div_mul]

theorem decodeUint32_eq {input : Bytes} (size : input.length = 4) :
    (decodeUint32 input).toNat = BigEndian.ofBytes input := by
  match input, size with
  | [b0, b1, b2, b3], _ => exact decodeUint32_toNat b0 b1 b2 b3

/-- The request id of a body is read from its eight bytes after the type. -/
theorem decodeUint64?_eq (type : UInt8) (requestId : UInt64) (rest : Bytes) :
    decodeUint64? (type :: (BigEndian.toBytes 8 requestId.toNat ++ rest)) typeSize =
      some requestId := by
  have read := BigEndian.ofBytes_toBytes 8 requestId.toNat requestId.toNat_lt
  have size := BigEndian.toBytes_length 8 requestId.toNat
  match BigEndian.toBytes 8 requestId.toNat, size, read with
  | [b0, b1, b2, b3, b4, b5, b6, b7], _, read =>
      have decoded := decodeUint64?_toNat type b0 b1 b2 b3 b4 b5 b6 b7 rest
      rw [read] at decoded
      obtain ⟨value, found, same⟩ := Option.map_eq_some_iff.mp decoded
      rw [UInt64.toNat_inj.mp same] at found
      exact found

end UnixDomainStream.Protocol
