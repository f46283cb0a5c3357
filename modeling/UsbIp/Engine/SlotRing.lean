import UsbIp.Engine.System
import UsbIp.Protocol.Replies

/-!
# Rings as lists of slots

The messages of a ring sit in arrays joined by link messages, and `IoRing` of
`host.rs` reads them in place.  From the head on they are a list of slots, up to
the first one that is not valid: a link is followed by the message it points to.
The head is the first slot, a link included, but looking ahead follows links.
After an accepted completion the next slot is the head.
-/

namespace UsbIp
namespace Engine

open Foundation
open Protocol
open Hci

/-- A valid message in a ring, its identity and its buffer. -/
structure Slot where
  id : UInt64
  transfer : Transfer
  buffer : Bytes
  buffer_length : buffer.length = transfer.length.toNat
deriving DecidableEq

def Slot.isLink (s : Slot) : Bool :=
  s.transfer.isLink

/-- The walk of `message_at`, for a number of steps. -/
def messageAtLoop : Nat -> List Slot -> Nat -> Option Slot
  | 0, _, _ => none
  | _ + 1, [], _ => none
  | steps + 1, s :: rest, remaining =>
      if s.isLink then
        messageAtLoop steps rest remaining
      else
        match remaining with
        | 0 => some s
        | remaining + 1 => messageAtLoop steps rest remaining

def messageAt (slots : List Slot) (ahead : Nat) : Option Slot :=
  -- Bounds the walk should a malformed ring link back on itself.
  messageAtLoop ((ahead + 1) * 4) slots ahead

def transfersOf (slots : List Slot) : List Slot :=
  slots.filter fun s => !s.isLink

theorem messageAtLoop_eq_some {steps : Nat} {slots : List Slot} {remaining : Nat}
    {s : Slot} (h : messageAtLoop steps slots remaining = some s) :
    (transfersOf slots)[remaining]? = some s := by
  induction steps generalizing slots remaining with
  | zero => cases h
  | succ steps ih =>
      cases slots with
      | nil => cases h
      | cons t rest =>
          unfold messageAtLoop at h
          cases hlink : t.isLink with
          | true =>
              rw [if_pos hlink] at h
              simpa [transfersOf, hlink] using ih h
          | false =>
              rw [if_neg (by simp [hlink])] at h
              have hcons : transfersOf (t :: rest) = t :: transfersOf rest := by
                simp [transfersOf, hlink]
              rw [hcons]
              cases remaining with
              | zero => exact h
              | succ remaining => exact ih h

/-- Looking ahead finds a message at its position among those that are not links. -/
theorem messageAt_eq_some {slots : List Slot} {ahead : Nat} {s : Slot}
    (h : messageAt slots ahead = some s) : (transfersOf slots)[ahead]? = some s :=
  messageAtLoop_eq_some h

/-- What the engine relies on of a ring whose messages are a list of slots. -/
class SlotRing (R : Type) extends Ring R where
  slots : R -> List Slot
  current_cons : forall {r : R} {s : Slot} {rest : List Slot}, slots r = s :: rest ->
    current r = (s.id, some s.transfer)
  current_nil : forall {r : R}, slots r = [] -> (current r).2 = none
  peek_eq : forall (r : R) (ahead : Nat),
    peek r ahead = (messageAt (slots r) ahead).map fun s => (s.id, s.transfer)
  read_eq : forall {r : R} {ahead : Nat} {s : Slot}, messageAt (slots r) ahead = some s ->
    forall n, n ≤ s.transfer.length.toNat -> read r ahead n = s.buffer.take n
  complete_slots : forall {r : R} {status : Status} {data : Bytes} {length : UInt32},
    (complete r status data length).2.isOk = true ->
    slots (complete r status data length).1 = (slots r).tail

section Lemmas

variable {R : Type} [SlotRing R]

theorem slots_cons_of_current {r : R} {message : UInt64} {transfer : Transfer}
    (h : Ring.current r = (message, some transfer)) :
    exists s rest, SlotRing.slots r = s :: rest ∧ s.id = message ∧
      s.transfer = transfer := by
  cases hslots : SlotRing.slots r with
  | nil =>
      have hnone := SlotRing.current_nil hslots
      rw [h] at hnone
      cases hnone
  | cons s rest =>
      have hcurrent := SlotRing.current_cons hslots
      rw [h] at hcurrent
      cases hcurrent
      exact ⟨s, rest, rfl, rfl, rfl⟩

theorem messageAt_of_peek {r : R} {ahead : Nat} {message : UInt64} {transfer : Transfer}
    (h : Ring.peek r ahead = some (message, transfer)) :
    exists s, messageAt (SlotRing.slots r) ahead = some s ∧ s.id = message ∧
      s.transfer = transfer := by
  rw [SlotRing.peek_eq] at h
  rcases Option.map_eq_some_iff.mp h with ⟨s, hs, heq⟩
  cases heq
  exact ⟨s, hs, rfl, rfl⟩

theorem messageAt_zero {s : Slot} {rest : List Slot} (h : s.isLink = false) :
    messageAt (s :: rest) 0 = some s := by
  simp [messageAt, messageAtLoop, h]

theorem read_message {r : R} {ahead : Nat} {s : Slot}
    (h : messageAt (SlotRing.slots r) ahead = some s) :
    Ring.read r ahead s.transfer.length.toNat = s.buffer := by
  rw [SlotRing.read_eq h _ (Nat.le_refl _), ← s.buffer_length, List.take_length]

end Lemmas

/-!
# A ring in memory
-/

/-- A ring that accepts completions as long as it is active. -/
structure QueueRing where
  active : Bool
  slots : List Slot
  /-- The identity of the first slot that is not valid. -/
  next : UInt64

def QueueRing.complete (r : QueueRing) : QueueRing × Except String Unit :=
  if r.active then
    ({ r with slots := r.slots.tail }, .ok ())
  else
    (r, .error "endpoint not active")

instance : SlotRing QueueRing where
  active := QueueRing.active
  current r :=
    match r.slots with
    | s :: _ => (s.id, some s.transfer)
    | [] => (r.next, none)
  peek r ahead := (messageAt r.slots ahead).map fun s => (s.id, s.transfer)
  read r ahead n := ((messageAt r.slots ahead).map fun s => s.buffer.take n).getD []
  complete r _ _ _ := r.complete
  slots := QueueRing.slots
  current_cons := by
    intro r s rest h
    simp only [h]
  current_nil := by
    intro r h
    simp only [h]
  peek_eq := fun _ _ => rfl
  read_eq := by
    intro r ahead s h n _
    simp only [h, Option.map_some, Option.getD_some]
  complete_slots := by
    intro r _ _ _ h
    unfold QueueRing.complete at h ⊢
    split
    · rfl
    · rename_i hinactive
      rw [if_neg hinactive] at h
      cases h

/-!
# Concrete runs
-/

def reads (count : Nat) : QueueRing where
  active := true
  slots := (List.range count).map fun i =>
    { id := 10 + i.toUInt64, transfer := Transfer.normal 2, buffer := [0, 0],
      buffer_length := by decide }
  next := 10 + count.toUInt64

def sampleDevice : Client.ExportedDevice where
  path := "/sys/devices/platform/vhci_hcd.0/usb1/1-1"
  busid := "1-1"
  busnum := 1
  devnum := 2
  speed := Speed.high
  idVendor := 0x1d6b
  idProduct := 0x0104
  bcdDevice := 0x0100
  deviceClass := 0
  deviceSubclass := 0
  deviceProtocol := 0
  configurationValue := 1
  numConfigurations := 1
  numInterfaces := 0
  interfaces := []

def answered (seqnum actualLength : UInt32) (data : Bytes) : List (Op QueueRing) :=
  let ret : RetSubmit :=
    { seqnum, status := 0, actualLength, startFrame := 0, errorCount := 0, data,
      isoPackets := [] }
  let reply : ServerSubmit :=
    { ret, unused := Vector.replicate 12 0, padding := Vector.replicate 8 0,
      noCount := true }
  [Op.session (Client.Step.receive reply.encode), Op.session Client.Step.readHeader,
    Op.session Client.Step.readPayload]

def confirmed (seqnum : UInt32) : List (Op QueueRing) :=
  let reply : ServerUnlink :=
    { ret := { seqnum, status := -104 }, unused := Vector.replicate 12 0,
      padding := Vector.replicate 24 0 }
  [Op.session (Client.Step.receive reply.encode), Op.session Client.Step.readHeader]

end Engine
end UsbIp
