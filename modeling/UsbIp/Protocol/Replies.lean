import UsbIp.Protocol.Framing

/-!
# Replies as a server writes them

A reference encoding of the two replies.  The header holds fields that the
client does not look at, so they are arbitrary here, and a server may announce
no isochronous packets with 0 or with 0xffffffff.  Reading such a reply gives
back what was sent, whatever bytes follow it.
-/

namespace UsbIp
namespace Protocol

open Foundation

/-- A RET_SUBMIT and how the server fills the rest of its header. -/
structure ServerSubmit where
  ret : RetSubmit
  /-- The devid, direction and endpoint of the header. -/
  unused : Vector UInt8 12
  padding : Vector UInt8 8
  /-- No packets are announced as 0xffffffff. -/
  noCount : Bool
deriving DecidableEq, Repr

structure ServerUnlink where
  ret : RetUnlink
  unused : Vector UInt8 12
  padding : Vector UInt8 24
deriving DecidableEq, Repr

def ServerSubmit.count (r : ServerSubmit) : UInt32 :=
  if r.noCount ∧ r.ret.isoPackets = [] then 0xffffffff
  else UInt32.ofNat r.ret.isoPackets.length

def ServerSubmit.header (r : ServerSubmit) : Bytes :=
  putU32 usbipRetSubmit ++ (putU32 r.ret.seqnum ++ (r.unused.toList ++
    (putI32 r.ret.status ++ (putU32 r.ret.actualLength ++ (putU32 r.ret.startFrame ++
    (putU32 r.count ++ (putU32 r.ret.errorCount ++ r.padding.toList)))))))

def ServerSubmit.encode (r : ServerSubmit) : Bytes :=
  r.header ++ (r.ret.data ++ r.ret.isoPackets.flatMap IsoPacketDescriptor.encode)

def ServerUnlink.encode (r : ServerUnlink) : Bytes :=
  putU32 usbipRetUnlink ++ (putU32 r.ret.seqnum ++ (r.unused.toList ++
    (putI32 r.ret.status ++ r.padding.toList)))

/--
A RET_SUBMIT is well formed for a request: it returns no more than was asked
for, its data is there exactly for an IN transfer, and it has at most as many
packets as Linux allows.
-/
structure ServerSubmit.WellFormed (r : ServerSubmit) (direction : Direction)
    (length : UInt32) : Prop where
  length_le : r.ret.actualLength ≤ length
  data_in : direction = Direction.in -> r.ret.data.length = r.ret.actualLength.toNat
  data_out : direction = Direction.out -> r.ret.data = []
  packets_le : r.ret.isoPackets.length ≤ 1024

/-!
# Headers
-/

def RetSubmit.submitHeader (ret : RetSubmit) : SubmitHeader where
  seqnum := ret.seqnum
  status := ret.status
  actualLength := ret.actualLength
  startFrame := ret.startFrame
  numberOfPackets := UInt32.ofNat ret.isoPackets.length
  errorCount := ret.errorCount

theorem packets_toNat {n : Nat} (h : n ≤ 1024) : (UInt32.ofNat n).toNat = n :=
  UInt32.toNat_ofNat_of_lt' (Nat.lt_of_le_of_lt h (by decide))

theorem ServerSubmit.count_eq {r : ServerSubmit} (h : r.ret.isoPackets.length ≤ 1024) :
    (if r.count = 0xffffffff then 0 else r.count) =
      UInt32.ofNat r.ret.isoPackets.length := by
  by_cases hnone : r.noCount ∧ r.ret.isoPackets = []
  · simp [ServerSubmit.count, hnone]
  · have hcount : r.count = UInt32.ofNat r.ret.isoPackets.length := if_neg hnone
    rw [hcount]
    apply if_neg
    intro hall
    have hnat := congrArg UInt32.toNat hall
    rw [packets_toNat h] at hnat
    have hbig : (0xffffffff : UInt32).toNat = 4294967295 := rfl
    omega

theorem packets_le_max {n : Nat} (h : n ≤ 1024) : ¬ UInt32.ofNat n > maxIsoPackets := by
  intro hgt
  have hnat : maxIsoPackets.toNat < (UInt32.ofNat n).toNat := UInt32.lt_iff_toNat_lt.mp hgt
  rw [packets_toNat h] at hnat
  have hmax : maxIsoPackets.toNat = 1024 := rfl
  omega

theorem decodeReplyHeader_submit
    {buf b1 b2 b3 b4 b5 b6 b7 : Bytes} {seqnum actualLength startFrame : UInt32}
    {count packets errorCount : UInt32} {status : Int32}
    (hcommand : getU32 buf = (usbipRetSubmit, b1)) (hseqnum : getU32 b1 = (seqnum, b2))
    (hstatus : getI32 (b2.drop 12) = (status, b3))
    (hlength : getU32 b3 = (actualLength, b4)) (hframe : getU32 b4 = (startFrame, b5))
    (hcount : getU32 b5 = (count, b6)) (herrors : getU32 b6 = (errorCount, b7))
    (hpackets : (if count = 0xffffffff then 0 else count) = packets)
    (hmax : ¬ packets > maxIsoPackets) :
    decodeReplyHeader buf = .ok (Reply.submit
      { seqnum := seqnum, status := status, actualLength := actualLength,
        startFrame := startFrame, numberOfPackets := packets,
        errorCount := errorCount }) := by
  unfold decodeReplyHeader
  simp only [hcommand, hseqnum, hstatus, hlength, hframe, hcount, herrors, if_true,
    hpackets, if_neg hmax]

theorem decodeReplyHeader_unlink
    {buf b1 b2 b3 : Bytes} {seqnum : UInt32} {status : Int32}
    (hcommand : getU32 buf = (usbipRetUnlink, b1)) (hseqnum : getU32 b1 = (seqnum, b2))
    (hstatus : getI32 (b2.drop 12) = (status, b3)) :
    decodeReplyHeader buf =
      .ok (Reply.unlink { seqnum := seqnum, status := status }) := by
  have hcode : ¬ usbipRetUnlink = usbipRetSubmit := by decide
  unfold decodeReplyHeader
  simp only [hcommand, hseqnum, hstatus, if_neg hcode, if_true]

theorem readExact_append {n : Nat} {front : Bytes} (hlen : front.length = n)
    (rest : Bytes) : readExact n (front ++ rest) = .ok (front, rest) := by
  rw [readExact, takeExact_append hlen]

theorem readReplyHeader_of_decode {header : Bytes} {reply : Reply}
    (hlen : header.length = urbHeaderSize) (hdecode : decodeReplyHeader header = .ok reply)
    (rest : Bytes) : readReplyHeader (header ++ rest) = .ok (reply, rest) := by
  unfold readReplyHeader
  rw [readExact_append hlen]
  show (decodeReplyHeader header >>= fun reply => pure (reply, rest)) = _
  rw [hdecode]
  rfl

theorem getI32_unused (unused : Vector UInt8 12) (x : Int32) (rest : Bytes) :
    getI32 ((unused.toList ++ (putI32 x ++ rest)).drop 12) = (x, rest) := by
  rw [List.drop_left' (by simp)]
  exact getI32_putI32 x rest

theorem ServerSubmit.header_length (r : ServerSubmit) : r.header.length = urbHeaderSize := by
  simp [ServerSubmit.header, urbHeaderSize]

theorem ServerUnlink.encode_length (r : ServerUnlink) : r.encode.length = urbHeaderSize := by
  simp [ServerUnlink.encode, urbHeaderSize]

theorem readReplyHeader_submit {r : ServerSubmit}
    (h : r.ret.isoPackets.length ≤ 1024) (rest : Bytes) :
    readReplyHeader (r.header ++ rest) = .ok (Reply.submit r.ret.submitHeader, rest) := by
  refine readReplyHeader_of_decode r.header_length ?_ rest
  exact decodeReplyHeader_submit (getU32_putU32 _ _) (getU32_putU32 _ _)
    (getI32_unused _ _ _) (getU32_putU32 _ _) (getU32_putU32 _ _) (getU32_putU32 _ _)
    (getU32_putU32 _ _) (ServerSubmit.count_eq h) (packets_le_max h)

theorem readReplyHeader_unlink (r : ServerUnlink) (rest : Bytes) :
    readReplyHeader (r.encode ++ rest) = .ok (Reply.unlink r.ret, rest) := by
  refine readReplyHeader_of_decode r.encode_length ?_ rest
  exact decodeReplyHeader_unlink (getU32_putU32 _ _) (getU32_putU32 _ _)
    (getI32_unused _ _ _)

/-!
# Payloads
-/

theorem readData_encode (ret : RetSubmit) {dataExpected : Bool}
    (hin : dataExpected = true -> ret.data.length = ret.actualLength.toNat)
    (hout : dataExpected = false -> ret.data = []) (rest : Bytes) :
    readData (ret.data ++ rest) dataExpected ret.actualLength = .ok (ret.data, rest) := by
  unfold readData
  split
  · rename_i h
    exact readExact_append (hin h.left) rest
  · rename_i h
    have hnone : ret.data = [] := by
      cases hexpected : dataExpected with
      | false => exact hout hexpected
      | true =>
          have hzero : ¬ 0 < ret.actualLength.toNat := by
            intro hpos
            exact h ⟨hexpected, UInt32.lt_iff_toNat_lt.mpr hpos⟩
          apply List.eq_nil_of_length_eq_zero
          rw [hin hexpected]
          omega
    rw [hnone]
    rfl

theorem readIsoPackets_encode {ps : List IsoPacketDescriptor} (h : ps.length ≤ 1024)
    (rest : Bytes) :
    readIsoPackets (ps.flatMap IsoPacketDescriptor.encode ++ rest)
      (UInt32.ofNat ps.length) = .ok (ps, rest) := by
  unfold readIsoPackets
  rw [packets_toNat h]
  split
  · rw [readExact_append (flatMap_encode_length ps) rest]
    dsimp only
    rw [isoPacketsOf_flatMap_encode]
  · rename_i hzero
    have hnone : ps = [] := by
      apply List.eq_nil_of_length_eq_zero
      have hnot : ¬ 0 < (UInt32.ofNat ps.length).toNat := fun hpos =>
        hzero (UInt32.lt_iff_toNat_lt.mpr hpos)
      rw [packets_toNat h] at hnot
      omega
    rw [hnone]
    rfl

theorem readSubmitPayload_encode {r : ServerSubmit} {direction : Direction}
    {length : UInt32} (h : r.WellFormed direction length) (rest : Bytes) :
    readSubmitPayload
      (r.ret.data ++ (r.ret.isoPackets.flatMap IsoPacketDescriptor.encode ++ rest))
      r.ret.submitHeader (direction = Direction.in) length = .ok (r.ret, rest) := by
  have hlength : ¬ r.ret.submitHeader.actualLength > length :=
    UInt32.not_lt.mpr h.length_le
  have hdata := readData_encode r.ret
    (fun hin => h.data_in (of_decide_eq_true hin))
    (fun hout => h.data_out (by
      cases direction with
      | out => rfl
      | «in» => simp at hout))
    (r.ret.isoPackets.flatMap IsoPacketDescriptor.encode ++ rest)
  have hiso := readIsoPackets_encode h.packets_le rest
  unfold readSubmitPayload
  rw [if_neg hlength]
  show (readData _ _ r.ret.actualLength >>= _) = _
  rw [hdata]
  show (readIsoPackets _ (UInt32.ofNat r.ret.isoPackets.length) >>= _) = _
  rw [hiso]
  rfl

end Protocol
end UsbIp
