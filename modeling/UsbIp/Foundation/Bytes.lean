import Mathlib.Data.List.Basic

/-!
# Big-endian words in byte strings

Byte strings are lists of bytes, read front to back.  A getter takes one word
off the front and returns the rest, a putter is the byte string of one word,
and the laws say that a getter undoes the putter in front of any rest.  The
getters are meant for buffers that are known to be long enough.
-/

namespace UsbIp
namespace Foundation

abbrev Bytes := List UInt8

/-!
# Exact reads
-/

/-- The first `n` bytes and the rest, or nothing if there are fewer. -/
def takeExact (n : Nat) (bytes : Bytes) : Option (Bytes × Bytes) :=
  if n ≤ bytes.length then some (bytes.take n, bytes.drop n) else none

theorem takeExact_append {n : Nat} {front : Bytes} (hlen : front.length = n)
    (rest : Bytes) :
    takeExact n (front ++ rest) = some (front, rest) := by
  subst hlen
  simp [takeExact]

/-!
# Words
-/

def putU32 (x : UInt32) : Bytes :=
  [UInt8.ofNat (x.toNat / 16777216), UInt8.ofNat (x.toNat / 65536),
    UInt8.ofNat (x.toNat / 256), UInt8.ofNat x.toNat]

def getU32 : Bytes -> UInt32 × Bytes
  | a :: b :: c :: d :: rest =>
      (UInt32.ofNat (a.toNat * 16777216 + b.toNat * 65536 + c.toNat * 256 + d.toNat),
        rest)
  | short => (0, short)

def putU16 (x : UInt16) : Bytes :=
  [UInt8.ofNat (x.toNat / 256), UInt8.ofNat x.toNat]

def getU16 : Bytes -> UInt16 × Bytes
  | a :: b :: rest => (UInt16.ofNat (a.toNat * 256 + b.toNat), rest)
  | short => (0, short)

def getU8 : Bytes -> UInt8 × Bytes
  | a :: rest => (a, rest)
  | [] => (0, [])

def putI32 (x : Int32) : Bytes :=
  putU32 x.toUInt32

def getI32 (bytes : Bytes) : Int32 × Bytes :=
  ((getU32 bytes).1.toInt32, (getU32 bytes).2)

@[simp] theorem putU32_length (x : UInt32) : (putU32 x).length = 4 := rfl

@[simp] theorem putI32_length (x : Int32) : (putI32 x).length = 4 := rfl

@[simp] theorem getU32_putU32 (x : UInt32) (rest : Bytes) :
    getU32 (putU32 x ++ rest) = (x, rest) := by
  have hx : x.toNat < 4294967296 := x.toNat_lt
  have hword :
      x.toNat / 16777216 % 256 * 16777216 + x.toNat / 65536 % 256 * 65536 +
        x.toNat / 256 % 256 * 256 + x.toNat % 256 = x.toNat := by
    omega
  simp [putU32, getU32, hword]

@[simp] theorem putU16_length (x : UInt16) : (putU16 x).length = 2 := rfl

@[simp] theorem getU16_putU16 (x : UInt16) (rest : Bytes) :
    getU16 (putU16 x ++ rest) = (x, rest) := by
  have hx : x.toNat < 65536 := x.toNat_lt
  have hword : x.toNat / 256 % 256 * 256 + x.toNat % 256 = x.toNat := by
    omega
  simp [putU16, getU16, hword]

@[simp] theorem getU8_cons (x : UInt8) (rest : Bytes) : getU8 (x :: rest) = (x, rest) := rfl

@[simp] theorem getI32_putI32 (x : Int32) (rest : Bytes) :
    getI32 (putI32 x ++ rest) = (x, rest) := by
  simp [getI32, putI32]

end Foundation
end UsbIp
