import UsbIp.Foundation.Checked
import UsbIp.Protocol.Wire

/-!
# Reading replies stays in bounds

`read_reply_header` and `read_submit_payload` once more, with every getter, size
and cast checked.  Whatever the server sends, none of them panics, and they read
what `readReplyHeader` and `readSubmitPayload` read.
-/

namespace UsbIp
namespace Protocol

open Foundation

theorem readExact_length {n : Nat} {bytes front rest : Bytes}
    (h : readExact n bytes = .ok (front, rest)) : front.length = n := by
  unfold readExact takeExact at h
  split at h
  · rename_i x found
    split at found
    · rename_i hle
      cases found
      cases h
      exact List.length_take_of_le hle
    · cases found
  · cases h

namespace Checked

def getU32 (bytes : Bytes) : Option (UInt32 × Bytes) :=
  if 4 ≤ bytes.length then some (Foundation.getU32 bytes) else none

def getI32 (bytes : Bytes) : Option (Int32 × Bytes) :=
  if 4 ≤ bytes.length then some (Foundation.getI32 bytes) else none

def advance (n : Nat) (bytes : Bytes) : Option Bytes :=
  if n ≤ bytes.length then some (bytes.drop n) else none

def decodeReplyHeader (buf : Bytes) : Option (Except ProtocolError Reply) := do
  let (command, b) ← getU32 buf
  let (seqnum, b) ← getU32 b
  let b ← advance 12 b
  if command = usbipRetSubmit then do
    let (status, b) ← getI32 b
    let (actualLength, b) ← getU32 b
    let (startFrame, b) ← getU32 b
    let (packets, b) ← getU32 b
    let numberOfPackets := if packets = 0xffffffff then 0 else packets
    let (errorCount, _) ← getU32 b
    if numberOfPackets > maxIsoPackets then
      return .error (.invalid s!"number_of_packets {numberOfPackets}")
    else
      return .ok (.submit
        { seqnum, status, actualLength, startFrame, numberOfPackets, errorCount })
  else if command = usbipRetUnlink then do
    let (status, _) ← getI32 b
    return .ok (.unlink { seqnum, status })
  else
    return .error (.unexpectedCommand command)

def readReplyHeader (bytes : Bytes) : Option (Except ProtocolError (Reply × Bytes)) :=
  match readExact urbHeaderSize bytes with
  | .error e => return .error e
  | .ok (buf, rest) => do
      let reply ← decodeReplyHeader buf
      return reply.map fun reply => (reply, rest)

def decodeIsoPacket (b : Bytes) : Option IsoPacketDescriptor := do
  let (offset, b) ← getU32 b
  let (length, b) ← getU32 b
  let (actualLength, b) ← getU32 b
  let (status, _) ← getI32 b
  return { offset, length, actualLength, status }

def isoPacketsOf : Nat -> Bytes -> Option (List IsoPacketDescriptor)
  | 0, _ => some []
  | n + 1, raw => do
      let p ← decodeIsoPacket (raw.take isoDescriptorSize)
      let ps ← isoPacketsOf n (raw.drop isoDescriptorSize)
      return p :: ps

def readData (bytes : Bytes) (dataExpected : Bool) (actualLength : UInt32) :
    Option (Except ProtocolError (Bytes × Bytes)) :=
  if dataExpected ∧ actualLength > 0 then do
    let n ← usize actualLength.toNat
    return readExact n bytes
  else
    return .ok ([], bytes)

def readIsoPackets (bytes : Bytes) (numberOfPackets : UInt32) :
    Option (Except ProtocolError (List IsoPacketDescriptor × Bytes)) := do
  let n ← usize numberOfPackets.toNat
  if numberOfPackets > 0 then do
    let size ← usize (n * isoDescriptorSize)
    match readExact size bytes with
    | .ok (raw, bytes) => do
        let ps ← isoPacketsOf n raw
        return .ok (ps, bytes)
    | .error e => return .error e
  else
    return .ok ([], bytes)

def readSubmitPayload (bytes : Bytes) (header : SubmitHeader) (dataExpected : Bool)
    (maxLength : UInt32) : Option (Except ProtocolError (RetSubmit × Bytes)) :=
  if header.actualLength > maxLength then
    return .error (.invalid
      (s!"seqnum {header.seqnum}: actual_length {header.actualLength} " ++
        s!"exceeds requested {maxLength}"))
  else do
    let found ← readData bytes dataExpected header.actualLength
    match found with
    | .error e => return .error e
    | .ok (data, bytes) => do
        let found ← readIsoPackets bytes header.numberOfPackets
        match found with
        | .error e => return .error e
        | .ok (isoPackets, bytes) =>
            return .ok (header.withPayload data isoPackets, bytes)

/-!
# No getter runs out of bytes
-/

theorem getU32_some (bytes : Bytes) (h : 4 ≤ bytes.length) :
    exists x rest, Foundation.getU32 bytes = (x, rest) ∧ getU32 bytes = some (x, rest) ∧
      rest.length = bytes.length - 4 := by
  rcases bytes with _ | ⟨a, _ | ⟨b, _ | ⟨c, _ | ⟨d, rest⟩⟩⟩⟩
  · simp at h
  · simp at h
  · simp at h
  · simp at h
  · exact ⟨_, rest, rfl, if_pos h, by simp⟩

theorem getI32_some (bytes : Bytes) (h : 4 ≤ bytes.length) :
    exists x rest, Foundation.getI32 bytes = (x, rest) ∧ getI32 bytes = some (x, rest) ∧
      rest.length = bytes.length - 4 := by
  rcases getU32_some bytes h with ⟨x, rest, hget, _, hlength⟩
  have hsigned : Foundation.getI32 bytes = (x.toInt32, rest) := by
    rw [Foundation.getI32, hget]
  refine ⟨x.toInt32, rest, hsigned, ?_, hlength⟩
  rw [getI32, if_pos h, hsigned]

theorem advance_eq {n : Nat} {bytes : Bytes} (h : n ≤ bytes.length) :
    advance n bytes = some (bytes.drop n) :=
  if_pos h

theorem decodeReplyHeader_eq {buf : Bytes} (h : buf.length = urbHeaderSize) :
    decodeReplyHeader buf = some (Protocol.decodeReplyHeader buf) := by
  have h : buf.length = 48 := h
  rcases getU32_some buf (by omega) with ⟨command, b1, p1, c1, h1⟩
  rcases getU32_some b1 (by omega) with ⟨seqnum, b2, p2, c2, h2⟩
  have hskip : (b2.drop 12).length = 28 := by
    rw [List.length_drop]
    omega
  have c3 : advance 12 b2 = some (b2.drop 12) := advance_eq (by omega)
  rcases getI32_some (b2.drop 12) (by omega) with ⟨status, b4, p4, c4, h4⟩
  rcases getU32_some b4 (by omega) with ⟨actualLength, b5, p5, c5, h5⟩
  rcases getU32_some b5 (by omega) with ⟨startFrame, b6, p6, c6, h6⟩
  rcases getU32_some b6 (by omega) with ⟨packets, b7, p7, c7, h7⟩
  rcases getU32_some b7 (by omega) with ⟨errorCount, b8, p8, c8, h8⟩
  simp only [decodeReplyHeader, Protocol.decodeReplyHeader, p1, p2, p4, p5, p6, p7, p8, c1,
    c2, c3, c4, c5, c6, c7, c8, Option.bind_eq_bind, Option.bind_some]
  by_cases hsubmit : command = usbipRetSubmit
  · rw [if_pos hsubmit, if_pos hsubmit]
    exact (apply_ite some _ _ _).symm
  · rw [if_neg hsubmit, if_neg hsubmit]
    split <;> rfl

/-- Whatever the server sends, reading a header does not panic. -/
theorem readReplyHeader_eq (bytes : Bytes) :
    readReplyHeader bytes = some (Protocol.readReplyHeader bytes) := by
  unfold readReplyHeader Protocol.readReplyHeader
  cases hread : readExact urbHeaderSize bytes with
  | error e => rfl
  | ok found =>
      rcases found with ⟨buf, rest⟩
      dsimp only
      rw [decodeReplyHeader_eq (readExact_length hread)]
      show some _ = some (Protocol.decodeReplyHeader buf >>= fun reply => pure (reply, rest))
      cases Protocol.decodeReplyHeader buf <;> rfl

theorem decodeIsoPacket_eq {b : Bytes} (h : b.length = isoDescriptorSize) :
    decodeIsoPacket b = some (IsoPacketDescriptor.decode b) := by
  have h : b.length = 16 := h
  rcases getU32_some b (by omega) with ⟨offset, b1, p1, c1, h1⟩
  rcases getU32_some b1 (by omega) with ⟨length, b2, p2, c2, h2⟩
  rcases getU32_some b2 (by omega) with ⟨actualLength, b3, p3, c3, h3⟩
  rcases getI32_some b3 (by omega) with ⟨status, b4, p4, c4, h4⟩
  simp only [decodeIsoPacket, IsoPacketDescriptor.decode, p1, p2, p3, p4, c1, c2, c3, c4,
    Option.bind_eq_bind, Option.bind_some]
  rfl

theorem isoPacketsOf_eq {n : Nat} {raw : Bytes} (h : raw.length = n * isoDescriptorSize) :
    isoPacketsOf n raw = some (Protocol.isoPacketsOf n raw) := by
  induction n generalizing raw with
  | zero => rfl
  | succ n ih =>
      have hsize : raw.length = n * isoDescriptorSize + isoDescriptorSize := by
        rw [h, Nat.succ_mul]
      have hfirst : (raw.take isoDescriptorSize).length = isoDescriptorSize := by
        rw [List.length_take]
        omega
      have hrest : (raw.drop isoDescriptorSize).length = n * isoDescriptorSize := by
        rw [List.length_drop]
        omega
      rw [isoPacketsOf, Protocol.isoPacketsOf, decodeIsoPacket_eq hfirst, ih hrest]
      rfl

theorem readIsoPackets_eq (bytes : Bytes) (numberOfPackets : UInt32) :
    readIsoPackets bytes numberOfPackets =
      some (Protocol.readIsoPackets bytes numberOfPackets) := by
  have hword := numberOfPackets.toNat_lt
  have hsize : usize (numberOfPackets.toNat * isoDescriptorSize) =
      some (numberOfPackets.toNat * isoDescriptorSize) := by
    apply fit_of_lt
    show numberOfPackets.toNat * 16 < 18446744073709551616
    omega
  unfold readIsoPackets Protocol.readIsoPackets
  rw [usize_of_lt hword]
  simp only [Option.bind_eq_bind, Option.bind_some]
  by_cases hsome : numberOfPackets > 0
  · rw [if_pos hsome, if_pos hsome, hsize, Option.bind_some]
    cases hread : readExact (numberOfPackets.toNat * isoDescriptorSize) bytes with
    | error e => rfl
    | ok found =>
        rcases found with ⟨raw, rest⟩
        dsimp only
        rw [isoPacketsOf_eq (readExact_length hread)]
        rfl
  · rw [if_neg hsome, if_neg hsome]
    rfl

theorem readSubmitPayload_eq (bytes : Bytes) (header : SubmitHeader) (dataExpected : Bool)
    (maxLength : UInt32) :
    readSubmitPayload bytes header dataExpected maxLength =
      some (Protocol.readSubmitPayload bytes header dataExpected maxLength) := by
  have hdata : readData bytes dataExpected header.actualLength =
      some (Protocol.readData bytes dataExpected header.actualLength) := by
    unfold readData Protocol.readData
    split
    · rw [usize_of_lt header.actualLength.toNat_lt]
      rfl
    · rfl
  unfold readSubmitPayload Protocol.readSubmitPayload
  by_cases hlong : header.actualLength > maxLength
  · rw [if_pos hlong, if_pos hlong]
    rfl
  · rw [if_neg hlong, if_neg hlong, hdata]
    simp only [Option.bind_eq_bind, Option.bind_some]
    cases hfound : Protocol.readData bytes dataExpected header.actualLength with
    | error e => rfl
    | ok found =>
        rcases found with ⟨data, rest⟩
        dsimp only
        rw [readIsoPackets_eq, Option.bind_some]
        show _ = some (Protocol.readIsoPackets rest header.numberOfPackets >>= _)
        cases Protocol.readIsoPackets rest header.numberOfPackets <;> rfl

end Checked

end Protocol
end UsbIp
