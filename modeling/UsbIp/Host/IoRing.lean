import UsbIp.Engine.SlotRing
import UsbIp.Hci.Commands

/-!
# Rings in memory

`IoRing` walks the messages of an endpoint where the host put them: in arrays
joined by link messages.  The memory is arbitrary here, so that links may lead
anywhere, back into the messages already passed included.  What bounds the walk
is a budget of rounds that messages and links share.
-/

namespace UsbIp
namespace Host

open Foundation
open Hci

/-- The memory an endpoint's ring is in, and what the framework says of the endpoint. -/
structure IoRing where
  active : Bool
  /-- `currentTransferMessage`, the head of the ring. -/
  message : UInt64
  messages : UInt64 -> RawMessage
  bytes : UInt64 -> UInt8

namespace IoRing

def messageSize : UInt64 := 16

def nonNull (address : UInt64) : Option UInt64 :=
  if address = 0 then none else some address

/-- The loop of `message_at`, for a number of rounds. -/
def messageAtLoop (messages : UInt64 -> RawMessage) : Nat -> UInt64 -> Nat -> Option UInt64
  | 0, _, _ => none
  | rounds + 1, ptr, remaining =>
      let msg := messages ptr
      if !msg.isValid then
        none
      else if msg.messageType = MessageType.link then
        match nonNull msg.data1 with
        | none => none
        | some target => messageAtLoop messages rounds target remaining
      else
        match remaining with
        | 0 => some ptr
        -- A valid message that is no link is followed by another one of the same array.
        | remaining + 1 => messageAtLoop messages rounds (ptr + messageSize) remaining

/-- Bounds the walk should a malformed ring link back on itself. -/
def budget (ahead : UInt64) : Nat :=
  ((ahead + 1) * 4).toNat

/-- The valid transfer message so many positions after the head. -/
def messageAt (ring : IoRing) (ahead : UInt64) : Option UInt64 :=
  messageAtLoop ring.messages (budget ahead) ring.message ahead.toNat

def current (ring : IoRing) : UInt64 × Option Transfer :=
  (ring.message, Transfer.decode (ring.messages ring.message))

def peek (ring : IoRing) (ahead : UInt64) : Option (UInt64 × Transfer) := do
  let ptr ← ring.messageAt ahead
  let transfer ← Transfer.decode (ring.messages ptr)
  return (ptr, transfer)

def sliceAt (bytes : UInt64 -> UInt8) (address : UInt64) (length : Nat) : Bytes :=
  (List.range length).map fun i => bytes (address + UInt64.ofNat i)

def read (ring : IoRing) (ahead : UInt64) (length : Nat) : Bytes :=
  match ring.messageAt ahead with
  | none => []
  | some ptr =>
      let msg := ring.messages ptr
      let length := min length msg.transferLength.toNat
      if length = 0 then [] else sliceAt ring.bytes msg.buffer length

/-!
# What the walk looks for
-/

def IsTransfer (msg : RawMessage) : Prop :=
  msg.isValid = true ∧ msg.messageType ≠ MessageType.link

def IsLinkTo (msg : RawMessage) (target : UInt64) : Prop :=
  msg.isValid = true ∧ msg.messageType = MessageType.link ∧ nonNull msg.data1 = some target

/--
From one address, over so many links and so many transfer messages, to the
transfer message at another address.
-/
inductive Passes (messages : UInt64 -> RawMessage) : Nat -> UInt64 -> Nat -> UInt64 -> Prop where
  | here {ptr : UInt64} (transfer : IsTransfer (messages ptr)) : Passes messages 0 ptr 0 ptr
  | link {links ahead : Nat} {ptr target found : UInt64}
      (link : IsLinkTo (messages ptr) target)
      (rest : Passes messages links target ahead found) :
      Passes messages (links + 1) ptr ahead found
  | pass {links ahead : Nat} {ptr found : UInt64} (transfer : IsTransfer (messages ptr))
      (rest : Passes messages links (ptr + messageSize) ahead found) :
      Passes messages links ptr (ahead + 1) found

theorem IsTransfer.not_link {msg : RawMessage} (h : IsTransfer msg) (target : UInt64) :
    ¬ IsLinkTo msg target :=
  fun hlink => h.right hlink.right.left

theorem Passes.unique {messages : UInt64 -> RawMessage} {links links' ahead : Nat}
    {ptr found found' : UInt64} (h : Passes messages links ptr ahead found)
    (h' : Passes messages links' ptr ahead found') : links = links' ∧ found = found' := by
  induction h generalizing links' with
  | here htransfer =>
      cases h' with
      | here _ => exact ⟨rfl, rfl⟩
      | link hlink _ => exact absurd hlink (htransfer.not_link _)
  | link hlink _ ih =>
      cases h' with
      | here htransfer => exact absurd hlink (htransfer.not_link _)
      | pass htransfer _ => exact absurd hlink (htransfer.not_link _)
      | link hlink' hrest =>
          have htarget := hlink.right.right.symm.trans hlink'.right.right
          cases htarget
          rcases ih hrest with ⟨hlinks, hfound⟩
          exact ⟨congrArg (· + 1) hlinks, hfound⟩
  | pass htransfer _ ih =>
      cases h' with
      | link hlink _ => exact absurd hlink (htransfer.not_link _)
      | pass _ hrest => exact ih hrest

/-!
# One round
-/

theorem messageAtLoop_invalid {messages : UInt64 -> RawMessage} {rounds remaining : Nat}
    {ptr : UInt64} (h : (messages ptr).isValid = false) :
    messageAtLoop messages rounds ptr remaining = none := by
  cases rounds with
  | zero => rfl
  | succ rounds =>
      unfold messageAtLoop
      simp [h]

theorem messageAtLoop_link {messages : UInt64 -> RawMessage} {remaining : Nat}
    {ptr target : UInt64} (h : IsLinkTo (messages ptr) target) (rounds : Nat) :
    messageAtLoop messages (rounds + 1) ptr remaining =
      messageAtLoop messages rounds target remaining := by
  conv => lhs; unfold messageAtLoop
  simp [h.left, h.right.left, h.right.right]

theorem messageAtLoop_here {messages : UInt64 -> RawMessage} {ptr : UInt64}
    (h : IsTransfer (messages ptr)) (rounds : Nat) :
    messageAtLoop messages (rounds + 1) ptr 0 = some ptr := by
  rw [messageAtLoop]
  simp [h.left, h.right]

theorem messageAtLoop_pass {messages : UInt64 -> RawMessage} {ptr : UInt64}
    (h : IsTransfer (messages ptr)) (rounds remaining : Nat) :
    messageAtLoop messages (rounds + 1) ptr (remaining + 1) =
      messageAtLoop messages rounds (ptr + messageSize) remaining := by
  rw [messageAtLoop]
  simp [h.left, h.right]

theorem message_cases (msg : RawMessage) :
    msg.isValid = false ∨ (msg.isValid = true ∧ msg.messageType = MessageType.link ∧
      nonNull msg.data1 = none) ∨ (exists target, IsLinkTo msg target) ∨ IsTransfer msg := by
  cases hvalid : msg.isValid with
  | false => exact Or.inl rfl
  | true =>
      by_cases hlink : msg.messageType = MessageType.link
      · cases htarget : nonNull msg.data1 with
        | none => exact Or.inr (Or.inl ⟨rfl, hlink, rfl⟩)
        | some target =>
            exact Or.inr (Or.inr (Or.inl ⟨target, hvalid, hlink, htarget⟩))
      · exact Or.inr (Or.inr (Or.inr ⟨hvalid, hlink⟩))

theorem messageAtLoop_nowhere {messages : UInt64 -> RawMessage} {ptr : UInt64}
    (hvalid : (messages ptr).isValid = true)
    (hlink : (messages ptr).messageType = MessageType.link)
    (htarget : nonNull (messages ptr).data1 = none) (rounds remaining : Nat) :
    messageAtLoop messages rounds ptr remaining = none := by
  cases rounds with
  | zero => rfl
  | succ rounds =>
      unfold messageAtLoop
      simp [hvalid, hlink, htarget]

/-!
# The walk
-/

/-- Every link and every message on the way takes one round, the last message included. -/
theorem messageAtLoop_of_passes {messages : UInt64 -> RawMessage}
    {links ahead rounds : Nat} {ptr found : UInt64}
    (h : Passes messages links ptr ahead found) (hrounds : links + ahead + 1 ≤ rounds) :
    messageAtLoop messages rounds ptr ahead = some found := by
  induction h generalizing rounds with
  | here htransfer =>
      rcases Nat.exists_eq_add_of_le' hrounds with ⟨rest, rfl⟩
      exact messageAtLoop_here htransfer _
  | link hlink _ ih =>
      cases rounds with
      | zero => cases hrounds
      | succ rounds =>
          rw [messageAtLoop_link hlink]
          exact ih (by omega)
  | pass htransfer _ ih =>
      cases rounds with
      | zero => cases hrounds
      | succ rounds =>
          rw [messageAtLoop_pass htransfer]
          exact ih (by omega)

theorem passes_of_messageAtLoop {messages : UInt64 -> RawMessage} {rounds ahead : Nat}
    {ptr found : UInt64} (h : messageAtLoop messages rounds ptr ahead = some found) :
    exists links, Passes messages links ptr ahead found ∧ links + ahead + 1 ≤ rounds := by
  induction rounds generalizing ptr ahead with
  | zero => cases h
  | succ rounds ih =>
      rcases message_cases (messages ptr) with hinvalid | ⟨hvalid, htype, hnull⟩ |
        ⟨target, hlink⟩ | htransfer
      · rw [messageAtLoop_invalid hinvalid] at h
        cases h
      · rw [messageAtLoop_nowhere hvalid htype hnull] at h
        cases h
      · rw [messageAtLoop_link hlink] at h
        rcases ih h with ⟨links, hpasses, hle⟩
        exact ⟨links + 1, Passes.link hlink hpasses, by omega⟩
      · cases ahead with
        | zero =>
            rw [messageAtLoop_here htransfer] at h
            cases h
            exact ⟨0, Passes.here htransfer, by omega⟩
        | succ ahead =>
            rw [messageAtLoop_pass htransfer] at h
            rcases ih h with ⟨links, hpasses, hle⟩
            exact ⟨links, Passes.pass htransfer hpasses, by omega⟩

theorem messageAt_iff {ring : IoRing} {ahead found : UInt64} :
    ring.messageAt ahead = some found <->
      exists links, Passes ring.messages links ring.message ahead.toNat found ∧
        links + ahead.toNat + 1 ≤ budget ahead := by
  constructor
  · intro h
    exact passes_of_messageAtLoop h
  · intro h
    rcases h with ⟨links, hpasses, hle⟩
    exact messageAtLoop_of_passes hpasses hle

theorem budget_of_lt {ahead : UInt64} (h : ahead.toNat + 1 < 4611686018427387904) :
    budget ahead = (ahead.toNat + 1) * 4 := by
  have hsucc : (ahead + 1).toNat = ahead.toNat + 1 := by
    rw [UInt64.toNat_add]
    show (ahead.toNat + 1) % _ = _
    exact Nat.mod_eq_of_lt (by omega)
  unfold budget
  rw [UInt64.toNat_mul, hsucc]
  show (ahead.toNat + 1) * 4 % _ = _
  exact Nat.mod_eq_of_lt (by omega)

theorem Passes.found_transfer {messages : UInt64 -> RawMessage} {links ahead : Nat}
    {ptr found : UInt64} (h : Passes messages links ptr ahead found) :
    IsTransfer (messages found) := by
  induction h with
  | here htransfer => exact htransfer
  | link _ _ ih => exact ih
  | pass _ _ ih => exact ih

theorem decode_of_valid {msg : RawMessage} (h : msg.isValid = true) :
    exists transfer, Transfer.decode msg = some transfer := by
  cases hdecode : Transfer.decode msg with
  | some transfer => exact ⟨transfer, rfl⟩
  | none =>
      unfold Transfer.decode at hdecode
      simp only [h, Bool.not_true, Bool.false_eq_true, if_false] at hdecode
      repeat' split at hdecode
      all_goals cases hdecode

/-!
# Looking ahead
-/

theorem sliceAt_zero (bytes : UInt64 -> UInt8) (address : UInt64) :
    sliceAt bytes address 0 = [] := rfl

theorem peek_of_messageAt {ring : IoRing} {ahead found : UInt64} {transfer : Transfer}
    (h : ring.messageAt ahead = some found)
    (hdecode : Transfer.decode (ring.messages found) = some transfer) :
    ring.peek ahead = some (found, transfer) := by
  unfold peek
  simp [h, hdecode]

theorem read_of_messageAt {ring : IoRing} {ahead found : UInt64}
    (h : ring.messageAt ahead = some found) (length : Nat) :
    ring.read ahead length = sliceAt ring.bytes (ring.messages found).buffer
      (min length (ring.messages found).transferLength.toNat) := by
  unfold read
  simp only [h]
  split
  · rename_i hzero
    rw [hzero, sliceAt_zero]
  · rfl

theorem messageAt_zero {ring : IoRing} (h : IsTransfer (ring.messages ring.message)) :
    ring.messageAt 0 = some ring.message :=
  messageAtLoop_here h 3

/--
The walk comes to the message that it is meant to find and to no other, and
looking at a message and reading it is looking at the same message.
-/
theorem ring_walk (ring : IoRing) (ahead : UInt64) :
    (forall found, ring.messageAt ahead = some found ->
      exists links, Passes ring.messages links ring.message ahead.toNat found) ∧
    (ahead.toNat + 1 < 4611686018427387904 -> forall links found,
      Passes ring.messages links ring.message ahead.toNat found ->
      links ≤ 3 * (ahead.toNat + 1) -> ring.messageAt ahead = some found) ∧
    (forall found, ring.messageAt ahead = some found ->
      exists transfer, Transfer.decode (ring.messages found) = some transfer ∧
        ring.peek ahead = some (found, transfer) ∧
        forall length, ring.read ahead length =
          sliceAt ring.bytes (ring.messages found).buffer
            (min length (ring.messages found).transferLength.toNat)) ∧
    (ring.messageAt ahead = none ->
      ring.peek ahead = none ∧ forall length, ring.read ahead length = []) ∧
    (IsTransfer (ring.messages ring.message) ->
      exists transfer, ring.peek 0 = some (ring.message, transfer) ∧
        ring.current = (ring.message, some transfer)) := by
  refine ⟨?_, ?_, ?_, ?_, ?_⟩
  · intro found h
    rcases messageAt_iff.mp h with ⟨links, hpasses, _⟩
    exact ⟨links, hpasses⟩
  · intro hahead links found hpasses hlinks
    apply messageAt_iff.mpr
    refine ⟨links, hpasses, ?_⟩
    rw [budget_of_lt hahead]
    omega
  · intro found h
    rcases messageAt_iff.mp h with ⟨links, hpasses, _⟩
    rcases decode_of_valid hpasses.found_transfer.left with ⟨transfer, hdecode⟩
    exact ⟨transfer, hdecode, peek_of_messageAt h hdecode, read_of_messageAt h⟩
  · intro h
    unfold peek read
    simp [h]
  · intro h
    rcases decode_of_valid h.left with ⟨transfer, hdecode⟩
    refine ⟨transfer, peek_of_messageAt (messageAt_zero h) hdecode, ?_⟩
    unfold current
    rw [hdecode]

def loopRing : IoRing where
  active := true
  message := 16
  messages address :=
    if address = 16 then { control := 0x8039, data0 := 2, data1 := 4096 }
    else if address = 32 then { control := 0x803c, data0 := 0, data1 := 16 }
    else { control := 0, data0 := 0, data1 := 0 }
  bytes _ := 0

theorem loopRing_passes (ahead : Nat) : Passes loopRing.messages ahead 16 ahead 16 := by
  have htransfer : IsTransfer (loopRing.messages 16) := by
    constructor
    · decide
    · decide
  have hlink : IsLinkTo (loopRing.messages (16 + messageSize)) 16 := by
    refine ⟨?_, ?_, ?_⟩
    · decide
    · decide
    · decide
  induction ahead with
  | zero => exact Passes.here htransfer
  | succ ahead ih => exact Passes.pass htransfer (Passes.link hlink ih)

/-- The product `(ahead + 1) * 4` wraps to zero, and the walk ends before it begins. -/
theorem ring_walk_misses :
    exists links, Passes loopRing.messages links loopRing.message
        (4611686018427387903 : UInt64).toNat 16 ∧
      links ≤ 3 * ((4611686018427387903 : UInt64).toNat + 1) ∧
      loopRing.messageAt 4611686018427387903 = none := by
  refine ⟨(4611686018427387903 : UInt64).toNat, loopRing_passes _, by omega, ?_⟩
  have hbudget : budget 4611686018427387903 = 0 := by
    decide
  unfold messageAt
  rw [hbudget]
  rfl

/-!
# The ring as a list of slots

From an address on, the memory holds a list of slots that ends at the first
message that is not valid.  The walk over the memory is then the walk over the
list, so that a ring in memory is what the engine takes a ring for.
-/

/-- The slot is what stands at an address. -/
structure StandsAt (ring : IoRing) (ptr : UInt64) (s : Engine.Slot) : Prop where
  id : s.id = ptr
  transfer : Transfer.decode (ring.messages ptr) = some s.transfer
  buffer : s.buffer = sliceAt ring.bytes (ring.messages ptr).buffer s.transfer.length.toNat

inductive Holds (ring : IoRing) : UInt64 -> List Engine.Slot -> Prop where
  | done {ptr : UInt64} (invalid : (ring.messages ptr).isValid = false) : Holds ring ptr []
  | link {ptr target : UInt64} {s : Engine.Slot} {rest : List Engine.Slot}
      (link : IsLinkTo (ring.messages ptr) target) (stands : ring.StandsAt ptr s)
      (holds : Holds ring target rest) : Holds ring ptr (s :: rest)
  | message {ptr : UInt64} {s : Engine.Slot} {rest : List Engine.Slot}
      (transfer : IsTransfer (ring.messages ptr)) (stands : ring.StandsAt ptr s)
      (holds : Holds ring (ptr + messageSize) rest) : Holds ring ptr (s :: rest)

theorem decode_isLink {msg : RawMessage} {transfer : Transfer}
    (h : Transfer.decode msg = some transfer) :
    transfer.isLink = decide (msg.messageType = MessageType.link) := by
  unfold Transfer.decode at h
  cases hvalid : msg.isValid with
  | false => simp [hvalid] at h
  | true =>
      simp only [hvalid, Bool.not_true, Bool.false_eq_true, if_false] at h
      repeat' split at h
      all_goals
        cases h
        simp_all [Transfer.isLink, MessageType.setupTransfer, MessageType.normalTransfer,
          MessageType.statusTransfer, MessageType.isochronousTransfer, MessageType.link]

theorem StandsAt.isLink {ring : IoRing} {ptr : UInt64} {s : Engine.Slot}
    (h : ring.StandsAt ptr s) :
    s.isLink = decide ((ring.messages ptr).messageType = MessageType.link) :=
  decode_isLink h.transfer

theorem messageAtLoop_slots {ring : IoRing} {slots : List Engine.Slot} {ptr : UInt64}
    (h : ring.Holds ptr slots) (rounds remaining : Nat) :
    messageAtLoop ring.messages rounds ptr remaining =
      (Engine.messageAtLoop rounds slots remaining).map Engine.Slot.id := by
  induction h generalizing rounds remaining with
  | done hinvalid =>
      rw [messageAtLoop_invalid hinvalid]
      cases rounds with
      | zero => rfl
      | succ rounds => rfl
  | link hlink hstands _ ih =>
      have hslot := hstands.isLink
      rw [decide_eq_true hlink.right.left] at hslot
      cases rounds with
      | zero => rfl
      | succ rounds =>
          rw [messageAtLoop_link hlink, ih]
          conv => rhs; unfold Engine.messageAtLoop
          rw [if_pos hslot]
  | message htransfer hstands _ ih =>
      have hslot := hstands.isLink
      rw [decide_eq_false htransfer.right] at hslot
      cases rounds with
      | zero => rfl
      | succ rounds =>
          conv => rhs; unfold Engine.messageAtLoop
          rw [if_neg (by simp [hslot])]
          cases remaining with
          | zero =>
              rw [messageAtLoop_here htransfer]
              exact congrArg some hstands.id.symm
          | succ remaining =>
              rw [messageAtLoop_pass htransfer, ih]

theorem messageAt_slots {ring : IoRing} {slots : List Engine.Slot}
    (h : ring.Holds ring.message slots) {ahead : UInt64}
    (hahead : ahead.toNat + 1 < 4611686018427387904) :
    ring.messageAt ahead = (Engine.messageAt slots ahead.toNat).map Engine.Slot.id := by
  unfold messageAt Engine.messageAt
  rw [budget_of_lt hahead]
  exact messageAtLoop_slots h _ _

theorem Holds.stands {ring : IoRing} {slots : List Engine.Slot} {ptr : UInt64}
    (h : ring.Holds ptr slots) {s : Engine.Slot} (hs : s ∈ slots) : ring.StandsAt s.id s := by
  induction h with
  | done _ => cases hs
  | link _ hstands _ ih =>
      rcases List.mem_cons.mp hs with rfl | hrest
      · rw [hstands.id]
        exact hstands
      · exact ih hrest
  | message _ hstands _ ih =>
      rcases List.mem_cons.mp hs with rfl | hrest
      · rw [hstands.id]
        exact hstands
      · exact ih hrest

/-- A ring in memory that holds a list of slots is looked at as the list is. -/
theorem peek_slots {ring : IoRing} {slots : List Engine.Slot}
    (h : ring.Holds ring.message slots) {ahead : UInt64}
    (hahead : ahead.toNat + 1 < 4611686018427387904) :
    ring.peek ahead =
      (Engine.messageAt slots ahead.toNat).map fun s => (s.id, s.transfer) := by
  have hwalk := messageAt_slots h hahead
  cases hslot : Engine.messageAt slots ahead.toNat with
  | none =>
      rw [hslot] at hwalk
      unfold peek
      rw [hwalk]
      rfl
  | some s =>
      rw [hslot] at hwalk
      have hmem := List.mem_of_getElem? (Engine.messageAt_eq_some hslot)
      have hstands := h.stands (List.mem_of_mem_filter hmem)
      exact peek_of_messageAt hwalk hstands.transfer

theorem current_slots {ring : IoRing} {s : Engine.Slot} {rest : List Engine.Slot}
    (h : ring.Holds ring.message (s :: rest)) : ring.current = (s.id, some s.transfer) := by
  have hstands : ring.StandsAt ring.message s := by
    cases h with
    | link _ hstands _ => exact hstands
    | message _ hstands _ => exact hstands
  unfold current
  rw [hstands.transfer, hstands.id]

theorem decode_length {msg : RawMessage} {transfer : Transfer}
    (h : Transfer.decode msg = some transfer) :
    transfer.length.toNat ≤ msg.transferLength.toNat := by
  unfold Transfer.decode at h
  repeat' split at h
  all_goals cases h
  all_goals simp [Transfer.length]

theorem sliceAt_take (bytes : UInt64 -> UInt8) (address : UInt64) {n length : Nat}
    (h : n ≤ length) : (sliceAt bytes address length).take n = sliceAt bytes address n := by
  unfold sliceAt
  rw [← List.map_take, List.take_range, Nat.min_eq_left h]

theorem read_slots {ring : IoRing} {slots : List Engine.Slot}
    (h : ring.Holds ring.message slots) {ahead : UInt64}
    (hahead : ahead.toNat + 1 < 4611686018427387904) {s : Engine.Slot}
    (hslot : Engine.messageAt slots ahead.toNat = some s) {length : Nat}
    (hlength : length ≤ s.transfer.length.toNat) :
    ring.read ahead length = s.buffer.take length := by
  have hwalk := messageAt_slots h hahead
  rw [hslot] at hwalk
  have hmem := List.mem_of_getElem? (Engine.messageAt_eq_some hslot)
  have hstands := h.stands (List.mem_of_mem_filter hmem)
  have hbound := decode_length hstands.transfer
  rw [read_of_messageAt hwalk, hstands.buffer, sliceAt_take _ _ hlength,
    Nat.min_eq_left (Nat.le_trans hlength hbound)]

end IoRing

end Host
end UsbIp
