import UsbIp.Foundation.Bytes

/-!
# Hiding UAS alternate settings

USB Attached SCSI needs bulk streams, which USB/IP cannot carry.  `hideUas`
takes the UAS alternate settings out of a configuration descriptor when the
same interface has another alternate setting to fall back to.  A group is the
half-open byte range of an interface descriptor and the descriptors that belong
to it.
-/

namespace UsbIp
namespace Hci

open Foundation

/-- A half-open range of byte positions. -/
structure ByteRange where
  start : Nat
  stop : Nat
deriving DecidableEq, Repr

def ByteRange.len (g : ByteRange) : Nat :=
  g.stop - g.start

/-- Byte `i` of a descriptor; the callers stay inside it. -/
def byteAt (config : Bytes) (i : Nat) : UInt8 :=
  config.getD i 0

/-- Extends the last group to `stop`, unless an association closed it. -/
def extendLast (groups : List ByteRange) (stop : Nat) : List ByteRange :=
  match groups.getLast? with
  | some g =>
      if g.start ≠ g.stop then groups.dropLast ++ [{ g with stop := stop }] else groups
  | none => groups

/--
The descriptor walk: the groups from position `i` on, or nothing if a
descriptor is malformed. Every round advances by at least two bytes, so as many
rounds as there are bytes are enough.
-/
def groupsFrom (config : Bytes) : Nat -> Nat -> List ByteRange -> Option (List ByteRange)
  | 0, _, groups => some groups
  | rounds + 1, i, groups =>
      if i < config.length then
        let len := (byteAt config i).toNat
        if len < 2 ∨ config.length < i + len then
          none
        else
          let groups :=
            if byteAt config (i + 1) = 4 then
              groups ++ [{ start := i, stop := i + len }]
            -- An interface association starts a new function.
            else if byteAt config (i + 1) = 0x0b then
              groups ++ [{ start := i, stop := i }]
            else
              extendLast groups (i + len)
          groupsFrom config rounds (i + len) groups
      else
        some groups

def isUas (config : Bytes) (g : ByteRange) : Bool :=
  9 ≤ g.len && byteAt config (g.start + 5) == 0x08 &&
    byteAt config (g.start + 6) == 0x06 && byteAt config (g.start + 7) == 0x62

def hasFallback (config : Bytes) (groups : List ByteRange) (number : UInt8) : Bool :=
  groups.any fun g =>
    9 ≤ g.len && byteAt config (g.start + 2) == number && !isUas config g

def cutGroups (config : Bytes) : Nat -> List ByteRange -> Bytes
  | pos, [] => config.drop pos
  | pos, g :: rest => (config.drop pos).take (g.start - pos) ++ cutGroups config g.stop rest

def leBytes16 (x : UInt16) : Bytes :=
  [UInt8.ofNat x.toNat, UInt8.ofNat (x.toNat / 256)]

def le16 (low high : UInt8) : UInt16 :=
  UInt16.ofNat (low.toNat + high.toNat * 256)

def setTotalLength (config : Bytes) (total : UInt16) : Bytes :=
  config.take 2 ++ leBytes16 total ++ config.drop 4

/--
Removes the UAS groups that have a fallback. Returns the new descriptor, and the
original and new `wTotalLength` when something was hidden.
-/
def hideUas (config : Bytes) : Bytes × Option (UInt16 × UInt16) :=
  if config.length < 9 ∨ byteAt config 0 < 9 ∨ byteAt config 1 ≠ 2 then
    (config, none)
  else
    match groupsFrom config (config.length + 1) (byteAt config 0).toNat [] with
    | none => (config, none)
    | some groups =>
        let hidden := groups.filter fun g =>
          isUas config g && hasFallback config groups (byteAt config (g.start + 2))
        if hidden.isEmpty then
          (config, none)
        else
          let out := cutGroups config 0 hidden
          let total := UInt16.ofNat out.length
          (setTotalLength out total,
            some (le16 (byteAt config 2) (byteAt config 3), total))

end Hci
end UsbIp
