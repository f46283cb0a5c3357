import UsbIp.Protocol.Bounds
import UsbIp.Protocol.Replies

/-!
# The buffer of a reply

`read_submit_payload` gives its data buffer the full length that the header
announces, and then waits for the bytes.  What it computes is written down here
together with the size of that buffer.
-/

namespace UsbIp
namespace Protocol

open Foundation

/-- Upper bound on a single transfer that the client is willing to buffer. -/
def maxTransferLength : UInt32 := 16 * 1024 * 1024

/-!
# Reading with the size of the buffer
-/

def readDataSized (bytes : Bytes) (dataExpected : Bool) (actualLength : UInt32) :
    Nat × Except ProtocolError (Bytes × Bytes) :=
  if dataExpected ∧ actualLength > 0 then
    (actualLength.toNat, readExact actualLength.toNat bytes)
  else
    (0, .ok ([], bytes))

def readSubmitPayloadSized (bytes : Bytes) (header : SubmitHeader) (dataExpected : Bool)
    (maxLength : UInt32) : Nat × Except ProtocolError (RetSubmit × Bytes) :=
  if header.actualLength > maxLength then
    (0, .error (.invalid
      (s!"seqnum {header.seqnum}: actual_length {header.actualLength} " ++
        s!"exceeds requested {maxLength}")))
  else
    let (size, found) := readDataSized bytes dataExpected header.actualLength
    (size, do
      let (data, bytes) ← found
      let (isoPackets, bytes) ← readIsoPackets bytes header.numberOfPackets
      return (header.withPayload data isoPackets, bytes))

theorem readDataSized_snd (bytes : Bytes) (dataExpected : Bool) (actualLength : UInt32) :
    (readDataSized bytes dataExpected actualLength).2 =
      readData bytes dataExpected actualLength := by
  unfold readDataSized readData
  split <;> rfl

theorem readSubmitPayloadSized_snd (bytes : Bytes) (header : SubmitHeader)
    (dataExpected : Bool) (maxLength : UInt32) :
    (readSubmitPayloadSized bytes header dataExpected maxLength).2 =
      readSubmitPayload bytes header dataExpected maxLength := by
  unfold readSubmitPayloadSized readSubmitPayload
  split
  · rfl
  · dsimp only
    rw [readDataSized_snd]

/-- The size of the data buffer that is allocated for a reply. -/
def bufferSize (bytes : Bytes) (header : SubmitHeader) (dataExpected : Bool)
    (maxLength : UInt32) : Nat :=
  (readSubmitPayloadSized bytes header dataExpected maxLength).1

theorem bufferSize_of_exceeds {header : SubmitHeader} {maxLength : UInt32}
    (h : header.actualLength > maxLength) (bytes : Bytes) (dataExpected : Bool) :
    bufferSize bytes header dataExpected maxLength = 0 := by
  rw [bufferSize, readSubmitPayloadSized, if_pos h]

theorem bufferSize_of_unexpected (bytes : Bytes) (header : SubmitHeader)
    (maxLength : UInt32) : bufferSize bytes header false maxLength = 0 := by
  unfold bufferSize readSubmitPayloadSized
  split
  · rfl
  · rw [readDataSized, if_neg (fun h => Bool.false_ne_true h.left)]

theorem bufferSize_of_expected {header : SubmitHeader} {maxLength : UInt32}
    (h : ¬ header.actualLength > maxLength) (bytes : Bytes) :
    bufferSize bytes header true maxLength = header.actualLength.toNat := by
  rw [bufferSize, readSubmitPayloadSized, if_neg h]
  dsimp only
  unfold readDataSized
  split
  · rfl
  · rename_i hnone
    have hzero : ¬ 0 < header.actualLength.toNat := fun hpos =>
      hnone ⟨rfl, UInt32.lt_iff_toNat_lt.mpr hpos⟩
    exact (Nat.eq_zero_of_not_pos hzero).symm

theorem readDataSized_length {bytes data rest : Bytes} {dataExpected : Bool}
    {actualLength : UInt32}
    (h : readData bytes dataExpected actualLength = .ok (data, rest)) :
    data.length = (readDataSized bytes dataExpected actualLength).1 := by
  unfold readData at h
  unfold readDataSized
  split at h
  · rename_i hexpected
    rw [if_pos hexpected]
    exact readExact_length h
  · rename_i hexpected
    rw [if_neg hexpected]
    cases h
    rfl

/-- What is read fills the buffer. -/
theorem bufferSize_of_ok {bytes rest : Bytes} {header : SubmitHeader} {dataExpected : Bool}
    {maxLength : UInt32} {ret : RetSubmit}
    (h : readSubmitPayload bytes header dataExpected maxLength = .ok (ret, rest)) :
    ret.data.length = bufferSize bytes header dataExpected maxLength := by
  rcases readSubmitPayload_ok h with ⟨hlength, data, more, isoPackets, hdata, _, rfl⟩
  rw [bufferSize, readSubmitPayloadSized, if_neg hlength]
  exact readDataSized_length hdata

theorem bufferSize_le (bytes : Bytes) (header : SubmitHeader) (dataExpected : Bool)
    (maxLength : UInt32) :
    bufferSize bytes header dataExpected maxLength ≤ maxLength.toNat := by
  by_cases h : header.actualLength > maxLength
  · rw [bufferSize_of_exceeds h]
    exact Nat.zero_le _
  · cases dataExpected with
    | false =>
        rw [bufferSize_of_unexpected]
        exact Nat.zero_le _
    | true =>
        rw [bufferSize_of_expected h]
        exact UInt32.le_iff_toNat_le.mp (UInt32.not_lt.mp h)

end Protocol
end UsbIp
