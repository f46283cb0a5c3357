import UsbIp.Link.System

/-!
# Reading a stream that is cut anywhere

A reader only ever has the front of what is on its way.  While that front does
not hold all of the next message, reading it changes nothing; as soon as it
does, reading takes exactly that message, whatever is already behind it.
-/

namespace UsbIp
namespace Link

open Foundation
open Protocol
open Client (Shared SubmitRequest Session ExportedDevice)
open Server (Urb Urbs Answer Outcome Completion Job Connection urbOf unlinkStatus)

/-!
# Fronts
-/

theorem front_of_length {front more message tail : Bytes}
    (h : front ++ more = message ++ tail) (hlen : message.length ≤ front.length) :
    exists rest, front = message ++ rest ∧ rest ++ more = tail := by
  rcases List.append_eq_append_iff.mp h with ⟨gap, hmessage, htail⟩ | ⟨rest, hfront, htail⟩
  · have hgap : gap = [] := by
      rw [hmessage, List.length_append] at hlen
      apply List.eq_nil_of_length_eq_zero
      omega
    rw [hgap, List.append_nil] at hmessage
    rw [hgap, List.nil_append] at htail
    exact ⟨[], by rw [List.append_nil, hmessage], htail⟩
  · exact ⟨rest, hfront, htail.symm⟩

theorem flatMap_ne_nil {α : Type} {f : α -> Bytes} {xs : List α} {n : Nat} {more : Bytes}
    {front : Bytes} (h : front ++ more = xs.flatMap f) (hn : 0 < n) (hlen : n ≤ front.length) :
    exists x rest, xs = x :: rest := by
  cases xs with
  | nil =>
      rcases List.append_eq_nil_iff.mp h with ⟨rfl, _⟩
      rw [List.length_nil] at hlen
      omega
  | cons x rest => exact ⟨x, rest, rfl⟩

theorem takeExact_short {n : Nat} {bytes : Bytes} (h : bytes.length < n) :
    takeExact n bytes = none :=
  if_neg (Nat.not_le.mpr h)

/-!
# The reader of the client
-/

def eof : ProtocolError := .io .unexpectedEof "early eof"

theorem readExact_short {n : Nat} {bytes : Bytes} (h : bytes.length < n) :
    readExact n bytes = .error eof := by
  unfold readExact
  rw [takeExact_short h]
  rfl

theorem lookupReply_short {s : Shared} {bytes : Bytes} (h : bytes.length < urbHeaderSize) :
    Client.lookupReply s bytes = .error eof := by
  unfold Client.lookupReply readReplyHeader
  rw [readExact_short h]
  rfl

theorem readIsoPackets_short {bytes : Bytes} {packets : UInt32}
    (h : bytes.length < packets.toNat * isoDescriptorSize) :
    readIsoPackets bytes packets = .error eof := by
  unfold readIsoPackets
  have hpos : packets > 0 := by
    apply UInt32.lt_iff_toNat_lt.mpr
    apply Nat.pos_of_ne_zero
    intro hzero
    rw [hzero, Nat.zero_mul] at h
    exact absurd h (Nat.not_lt_zero _)
  rw [if_pos hpos, readExact_short h]

/-- A payload that is not all there yet is the end of the stream, and nothing else. -/
theorem readSubmitPayload_short {r : ServerSubmit} {direction : Direction} {length : UInt32}
    (hwf : r.WellFormed direction length) {bytes : Bytes}
    (h : bytes.length < (returned r.ret).length) :
    readSubmitPayload bytes r.ret.submitHeader (direction = Direction.in) length =
      .error eof := by
  have hlength : ¬ r.ret.submitHeader.actualLength > length :=
    UInt32.not_lt.mpr hwf.length_le
  have hpackets : (r.ret.submitHeader.numberOfPackets).toNat = r.ret.isoPackets.length :=
    packets_toNat hwf.packets_le
  have htotal : (returned r.ret).length =
      r.ret.data.length + r.ret.isoPackets.length * isoDescriptorSize := by
    rw [returned, List.length_append, flatMap_encode_length]
  have hdata : r.ret.submitHeader.actualLength = r.ret.actualLength := rfl
  unfold readSubmitPayload
  rw [if_neg hlength]
  by_cases hexpected : (direction = Direction.in) ∧ r.ret.actualLength > 0
  · have hin := hwf.data_in hexpected.left
    by_cases hshort : bytes.length < r.ret.actualLength.toNat
    · have hread : readData bytes (direction = Direction.in) r.ret.submitHeader.actualLength =
          .error eof := by
        unfold readData
        rw [hdata, if_pos (by simpa using hexpected), readExact_short hshort]
      rw [hread]
      rfl
    · have hread : readData bytes (direction = Direction.in) r.ret.submitHeader.actualLength =
          .ok (bytes.take r.ret.actualLength.toNat, bytes.drop r.ret.actualLength.toNat) := by
        unfold readData
        rw [hdata, if_pos (by simpa using hexpected), readExact, takeExact,
          if_pos (Nat.not_lt.mp hshort)]
      rw [hread]
      show (readIsoPackets (bytes.drop r.ret.actualLength.toNat)
        r.ret.submitHeader.numberOfPackets >>= _) = _
      rw [readIsoPackets_short]
      · rfl
      · rw [hpackets, List.length_drop]
        omega
  · have hnone : r.ret.data.length = 0 := by
      cases direction with
      | out => rw [hwf.data_out rfl, List.length_nil]
      | «in» =>
          rw [hwf.data_in rfl]
          have hzero : ¬ 0 < r.ret.actualLength.toNat := fun hpos =>
            hexpected ⟨rfl, UInt32.lt_iff_toNat_lt.mpr hpos⟩
          omega
    have hread : readData bytes (direction = Direction.in) r.ret.submitHeader.actualLength =
        .ok ([], bytes) := by
      unfold readData
      rw [hdata, if_neg (by simpa using hexpected)]
    rw [hread]
    show (readIsoPackets bytes r.ret.submitHeader.numberOfPackets >>= _) = _
    rw [readIsoPackets_short]
    · rfl
    · rw [hpackets]
      omega

theorem removeReply_short (s : Shared) {r : ServerSubmit} {direction : Direction}
    {length : UInt32} (hwf : r.WellFormed direction length) {bytes : Bytes}
    (h : bytes.length < (returned r.ret).length) :
    Client.removeReply s r.ret.submitHeader direction length bytes = .error eof := by
  unfold Client.removeReply
  rw [readSubmitPayload_short hwf h]
  rfl

theorem readerFails_eof (s : Session) :
    s.readerFails eof = s ∨
      s.ended = true ∧ s.readerFails eof =
        { s with reader := Client.ReaderPhase.failed "server closed the connection" } := by
  unfold Session.readerFails eof
  dsimp only
  split
  · rename_i hended
    exact Or.inr ⟨hended, rfl⟩
  · exact Or.inl rfl

theorem wellFormed_of_fits {urb : Urb} {c : Completion} {direction : Direction}
    {length : UInt32} (hin : urb.isIn = true -> c.data.length ≤ urb.length.toNat)
    (hout : urb.isIn = false -> c.actualLength.getD urb.length ≤ urb.length)
    (hiso : (urb.isoOf c).length ≤ 1024) (hlength : urb.length = length)
    (hdirection : urb.isIn = true <-> direction = Direction.in) :
    (urb.serverSubmit c).WellFormed direction length := by
  have hactual : urb.isIn = true -> (urb.actual c).toNat = c.data.length := by
    intro h
    unfold Urb.actual
    rw [if_pos h]
    apply UInt32.toNat_ofNat_of_lt'
    exact Nat.lt_of_le_of_lt (hin h) urb.length.toNat_lt
  exact
    { length_le := by
        show urb.actual c ≤ length
        rw [← hlength]
        cases h : urb.isIn with
        | true =>
            apply UInt32.le_iff_toNat_le.mpr
            rw [hactual h]
            exact hin h
        | false =>
            unfold Urb.actual
            rw [if_neg (by simp [h])]
            exact hout h
      data_in := by
        intro h
        have hin' := hdirection.mpr h
        show (if urb.isIn then c.data else []).length = (urb.actual c).toNat
        rw [if_pos hin', hactual hin']
      data_out := by
        intro h
        show (if urb.isIn then c.data else []) = []
        apply if_neg
        intro hin'
        rw [hdirection.mp hin'] at h
        cases h
      packets_le := hiso }

/-!
# The loop of the server
-/

theorem read_header_short {s : Connection} (hphase : s.phase = Server.Phase.header)
    (h : s.input.length < urbHeaderSize) : s.read = s := by
  unfold Connection.read
  rw [hphase]
  dsimp only
  rw [takeExact_short h]

theorem read_body_short {s : Connection} {cmd : CmdSubmit}
    (hphase : s.phase = Server.Phase.body (urbOf cmd).bare)
    (hframed : (Command.submit cmd).Framed) (hpolite : Server.Polite s.endpoints cmd)
    (h : s.input.length < (payloadOf cmd).length) : s.read = s := by
  have hpackets : (urbOf cmd).bare.packets.toNat = cmd.isoPackets.length :=
    Server.urbOf_packets hpolite.packets_le
  have hmany : ¬ (urbOf cmd).bare.packets > 1024 := by
    intro hgt
    have hnat : 1024 < (urbOf cmd).bare.packets.toNat := UInt32.lt_iff_toNat_lt.mp hgt
    rw [hpackets] at hnat
    have hle := hpolite.packets_le
    omega
  have hlength := Server.payload_length hframed hpolite
  have htotal : (payloadOf cmd).length =
      cmd.data.length + cmd.isoPackets.length * isoDescriptorSize := by
    rw [payloadOf, List.length_append, flatMap_encode_length]
  unfold Connection.read
  rw [hphase]
  dsimp only
  unfold Connection.readBody
  rw [← hlength]
  by_cases hshort : s.input.length < cmd.data.length
  · rw [takeExact_short hshort]
  · have htake : takeExact cmd.data.length s.input =
        some (s.input.take cmd.data.length, s.input.drop cmd.data.length) :=
      if_pos (Nat.not_lt.mp hshort)
    have hrest : takeExact ((urbOf cmd).bare.packets.toNat * isoDescriptorSize)
        (s.input.drop cmd.data.length) = none := by
      apply takeExact_short
      rw [hpackets, List.length_drop]
      omega
    rw [htake]
    dsimp only
    rw [if_neg hmany, hrest]

end Link
end UsbIp
