import UsbIp.Server.Urbs

/-!
# The connection of a server

The loop of `serve_urbs` after an import, as steps of one connection: a header
is read and checked, then the data and the descriptors behind it, while the
endpoint workers complete jobs and the writer task sends what they queue.  A
read that does not find all of its bytes waits; a worker may come to its outcome
at any time.  What the server has to complain about is collected in
`violations`.
-/

namespace UsbIp
namespace Server

open Foundation
open Protocol

/-!
# The state of a connection
-/

inductive Phase where
  | header
  /-- The header has been read and checked, the payload has not. -/
  | body (urb : Urb)
  | stopped
deriving DecidableEq, Repr

structure Connection where
  devid : UInt32
  /-- `bEndpointAddress` and `bmAttributes` of the endpoints of the device. -/
  endpoints : List (UInt8 × UInt8)
  urbs : Urbs
  /-- Bytes from the client that the loop has not consumed. -/
  input : Bytes
  phase : Phase
  /-- The channel to the writer task. -/
  tx : List (Option Bytes)
  writing : Bool
  /-- Every byte written to the client. -/
  written : Bytes
  violations : List String

def Connection.start (devid : UInt32) (endpoints : List (UInt8 × UInt8)) : Connection where
  devid := devid
  endpoints := endpoints
  urbs := Urbs.initial
  input := []
  phase := Phase.header
  tx := []
  writing := true
  written := []
  violations := []

def Connection.violation (s : Connection) (text : String) : Connection :=
  { s with violations := s.violations ++ [text] }

def Connection.check (s : Connection) (bad : Prop) [Decidable bad] (text : String) :
    Connection :=
  if bad then s.violation text else s

def Connection.stop (s : Connection) : Connection :=
  { s with urbs := s.urbs.stop, tx := s.tx ++ [none], phase := Phase.stopped }

/-!
# Commands
-/

def maxLength : UInt32 := 16777216

def Urb.ofHeader (h : Bytes) : Urb where
  seqnum := be32 h 1
  devid := be32 h 2
  direction := be32 h 3
  ep := be32 h 4
  transferFlags := be32 h 5
  length := be32 h 6
  startFrame := be32 h 7
  numberOfPackets := be32 h 8
  interval := be32 h 9
  setup := setupOf h
  data := []
  iso := []

def Connection.readSubmit (s : Connection) (urb : Urb) : Connection :=
  let s := s.check (urb.direction > 1 ∨ urb.ep > 15)
    s!"seqnum {urb.seqnum}: direction {urb.direction} ep {urb.ep}"
  let s := s.check (urb.ep ≠ 0 ∧ urb.setup ≠ Vector.replicate 8 0)
    s!"seqnum {urb.seqnum}: setup bytes on ep {urb.ep}"
  if urb.length > maxLength then
    (s.violation s!"seqnum {urb.seqnum}: length {urb.length}").stop
  else
    { s with phase := Phase.body urb }

def Connection.readUnlink (s : Connection) (h : Bytes) : Connection :=
  let seqnum := be32 h 1
  let target := be32 h 5
  let s := s.check ((h.drop 24).any fun b => b ≠ 0)
    s!"seqnum {seqnum}: unlink padding not zero"
  { s with
    urbs := s.urbs.unlink seqnum target
    tx := s.tx ++ [some (retUnlink seqnum (unlinkStatus (s.urbs.pending.lookup target)))] }

/-- What the loop does with a full header. -/
def Connection.handle (s : Connection) (h : Bytes) : Connection :=
  let command := be32 h 0
  let seqnum := be32 h 1
  let s := s.check (be32 h 2 ≠ s.devid)
    (s!"seqnum {seqnum}: devid 0x" ++ hexDigits 1 (be32 h 2).toNat)
  let s := s.check (seqnum ∈ s.urbs.pending) s!"seqnum {seqnum} reused while pending"
  if command = 1 then
    s.readSubmit (Urb.ofHeader h)
  else if command = 2 then
    s.readUnlink h
  else
    (s.violation s!"unknown command {command}").stop

/-!
# Payloads
-/

def attributesOf (endpoints : List (UInt8 × UInt8)) (address : UInt8) : Option UInt8 :=
  (endpoints.find? fun e => e.1 = address).map fun e => e.2

/-- What Linux refuses a URB of a periodic endpoint for. -/
def Urb.periodicFault (endpoints : List (UInt8 × UInt8)) (urb : Urb) : Option String :=
  match attributesOf endpoints urb.address with
  | none => none
  | some attributes =>
      if (attributes &&& 3 = 1 ∨ attributes &&& 3 = 3) ∧ urb.interval = 0 then
        some (s!"seqnum {urb.seqnum}: periodic endpoint 0x" ++
          hexDigits 2 urb.address.toNat ++ " with interval 0")
      else if attributes &&& 3 = 1 ∧ urb.iso = [] then
        some s!"seqnum {urb.seqnum}: isochronous URB without packets"
      else
        none

/-- A CMD_SUBMIT with its payload. -/
def Connection.submitted (s : Connection) (urb : Urb) : Connection :=
  match urb.periodicFault s.endpoints with
  | some text =>
      { s.violation text with
        urbs := { s.urbs with log := Event.submit urb :: s.urbs.log } }.stop
  | none => { s with urbs := s.urbs.submit urb, phase := Phase.header }

def Urb.packets (urb : Urb) : UInt32 :=
  if urb.numberOfPackets = 0xffffffff then 0 else urb.numberOfPackets

def Connection.readBody (s : Connection) (urb : Urb) : Connection :=
  match takeExact (if urb.isIn then 0 else urb.length.toNat) s.input with
  | none => s
  | some (data, rest) =>
      if urb.packets > 1024 then
        (s.violation s!"seqnum {urb.seqnum}: {urb.packets} packets").stop
      else
        match takeExact (urb.packets.toNat * isoDescriptorSize) rest with
        | none => s
        | some (raw, rest) =>
            { s with input := rest }.submitted
              { urb with data := data, iso := isoPacketsOf urb.packets.toNat raw }

/-!
# Steps
-/

inductive Step where
  /-- Bytes arrive from the client. -/
  | receive (bytes : Bytes)
  /-- Reading fails: the client is gone. -/
  | readFails
  /-- The loop reads a header, or the payload behind one. -/
  | read
  /-- The device comes to an outcome for the first job of an address. -/
  | finish (address : UInt8) (outcome : Outcome)
  /-- The worker of an address sees that its first job was cancelled. -/
  | skip (address : UInt8)
  /-- The writer takes what is next in its channel. -/
  | write
  /-- `write_all` fails behind the first `n` bytes of a frame. -/
  | writeFails (n : Nat)
deriving DecidableEq

def Connection.read (s : Connection) : Connection :=
  match s.phase with
  | Phase.header =>
      match takeExact urbHeaderSize s.input with
      | none => s
      | some (h, rest) => { s with input := rest }.handle h
  | Phase.body urb => s.readBody urb
  | Phase.stopped => s

def Connection.finish (s : Connection) (address : UInt8) (outcome : Outcome) : Connection :=
  { s with
    urbs := (s.urbs.finish address outcome).1
    tx := s.tx ++ (s.urbs.finish address outcome).2.toList }

def Connection.write (s : Connection) : Connection :=
  match s.writing, s.tx with
  | true, some frame :: rest => { s with tx := rest, written := s.written ++ frame }
  | true, none :: rest => { s with tx := rest, writing := false }
  | _, _ => s

def Connection.writeFails (s : Connection) (n : Nat) : Connection :=
  match s.writing, s.tx with
  | true, some frame :: rest =>
      { s with tx := rest, writing := false, written := s.written ++ frame.take n }
  | _, _ => s

def Connection.step (s : Connection) : Step -> Connection
  | Step.receive bytes => { s with input := s.input ++ bytes }
  | Step.readFails => if s.phase = Phase.stopped then s else s.stop
  | Step.read => s.read
  | Step.finish address outcome => s.finish address outcome
  | Step.skip address => { s with urbs := s.urbs.skip address }
  | Step.write => s.write
  | Step.writeFails n => s.writeFails n

/-!
# What stays
-/

theorem Connection.check_endpoints (s : Connection) (bad : Prop) [Decidable bad]
    (text : String) : (s.check bad text).endpoints = s.endpoints := by
  unfold Connection.check
  split <;> rfl

theorem Connection.handle_endpoints (s : Connection) (h : Bytes) :
    (s.handle h).endpoints = s.endpoints := by
  have hchecked : forall t : Connection, t.endpoints = s.endpoints ->
      (t.readSubmit (Urb.ofHeader h)).endpoints = s.endpoints ∧
        (t.readUnlink h).endpoints = s.endpoints := by
    intro t ht
    constructor
    · simp only [Connection.readSubmit]
      split <;> simp [Connection.stop, Connection.violation, Connection.check_endpoints, ht]
    · simp [Connection.readUnlink, Connection.check_endpoints, ht]
  unfold Connection.handle
  dsimp only
  split
  · exact (hchecked _ (by simp only [Connection.check_endpoints])).left
  · split
    · exact (hchecked _ (by simp only [Connection.check_endpoints])).right
    · simp only [Connection.stop, Connection.violation, Connection.check_endpoints]

theorem Connection.readBody_endpoints (s : Connection) (urb : Urb) :
    (s.readBody urb).endpoints = s.endpoints := by
  unfold Connection.readBody
  split
  · rfl
  · split
    · rfl
    · split
      · rfl
      · unfold Connection.submitted
        split <;> rfl

theorem Connection.step_endpoints (s : Connection) (st : Step) :
    (s.step st).endpoints = s.endpoints := by
  cases st with
  | read =>
      simp only [Connection.step, Connection.read]
      split
      · split
        · rfl
        · exact Connection.handle_endpoints _ _
      · exact s.readBody_endpoints _
      · rfl
  | readFails =>
      simp only [Connection.step]
      split <;> rfl
  | write =>
      simp only [Connection.step, Connection.write]
      split <;> rfl
  | writeFails n =>
      simp only [Connection.step, Connection.writeFails]
      split <;> rfl
  | _ => rfl

/-!
# Commands that nothing is wrong with
-/

def Urb.bare (urb : Urb) : Urb :=
  { urb with data := [], iso := [] }

/-- Everything `serve_urbs` checks of a CMD_SUBMIT but its number and its devid. -/
structure Polite (endpoints : List (UInt8 × UInt8)) (cmd : CmdSubmit) : Prop where
  direction_le : cmd.direction ≤ 1
  ep_le : cmd.ep ≤ 15
  setup_zero : cmd.ep ≠ 0 -> cmd.setup = Vector.replicate 8 0
  length_le : cmd.transferBufferLength ≤ maxLength
  packets_le : cmd.isoPackets.length ≤ 1024
  periodic : (urbOf cmd).periodicFault endpoints = none

instance (endpoints : List (UInt8 × UInt8)) (cmd : CmdSubmit) :
    Decidable (Polite endpoints cmd) :=
  decidable_of_iff
    (cmd.direction ≤ 1 ∧ cmd.ep ≤ 15 ∧
      (cmd.ep ≠ 0 -> cmd.setup = Vector.replicate 8 0) ∧
      cmd.transferBufferLength ≤ maxLength ∧ cmd.isoPackets.length ≤ 1024 ∧
      (urbOf cmd).periodicFault endpoints = none)
    ⟨fun ⟨h1, h2, h3, h4, h5, h6⟩ => ⟨h1, h2, h3, h4, h5, h6⟩,
      fun h => ⟨h.direction_le, h.ep_le, h.setup_zero, h.length_le, h.packets_le,
        h.periodic⟩⟩

theorem Connection.check_of_not {s : Connection} {bad : Prop} [Decidable bad]
    (h : ¬ bad) (text : String) : s.check bad text = s :=
  if_neg h

/-!
# Reading one command
-/

theorem Urb.ofHeader_header {cmd : CmdSubmit} (hiso : cmd.isoPackets.length ≤ 1024) :
    Urb.ofHeader cmd.header = (urbOf cmd).bare := by
  have hcount : be32 cmd.header 8 =
      if cmd.isoPackets.isEmpty then 0 else UInt32.ofNat cmd.isoPackets.length := by
    simp only [CmdSubmit.header, be32_succ, be32_zero]
  rcases CmdSubmit.header_words hiso with ⟨_, h1, h2, h3, h4, h5, h6, h7, _, h9⟩
  rw [Urb.ofHeader, h1, h2, h3, h4, h5, h6, h7, hcount, h9, CmdSubmit.setupOf_header]
  rfl

theorem urbOf_packets {cmd : CmdSubmit} (hiso : cmd.isoPackets.length ≤ 1024) :
    (urbOf cmd).packets.toNat = cmd.isoPackets.length := by
  have hcount := packetCount_toNat hiso
  have hsmall : (urbOf cmd).numberOfPackets ≠ 0xffffffff := by
    intro hall
    have hnat := congrArg UInt32.toNat hall
    rw [urbOf, hcount] at hnat
    rw [hnat] at hiso
    exact absurd hiso (by decide)
  rw [Urb.packets, if_neg hsmall]
  exact hcount

theorem Connection.read_header {s : Connection} {cmd : CmdSubmit} {rest : Bytes}
    (hphase : s.phase = Phase.header) (hinput : s.input = cmd.header ++ rest)
    (hdevid : cmd.devid = s.devid) (hnew : cmd.seqnum ∉ s.urbs.pending)
    (hpolite : Polite s.endpoints cmd) :
    s.read =
      { s with
        input := rest, phase := Phase.body (urbOf cmd).bare } := by
  rcases CmdSubmit.header_words hpolite.packets_le with ⟨h0, h1, h2, _⟩
  have hdirection : ¬ ((urbOf cmd).bare.direction > 1 ∨ (urbOf cmd).bare.ep > 15) := by
    rintro (h | h)
    · exact absurd hpolite.direction_le (UInt32.not_le.mpr h)
    · exact absurd hpolite.ep_le (UInt32.not_le.mpr h)
  have hsetup : ¬ ((urbOf cmd).bare.ep ≠ 0 ∧
      (urbOf cmd).bare.setup ≠ Vector.replicate 8 0) :=
    fun h => h.right (hpolite.setup_zero h.left)
  have hlength : ¬ cmd.transferBufferLength > maxLength :=
    UInt32.not_lt.mpr hpolite.length_le
  unfold Connection.read
  rw [hphase, hinput]
  dsimp only
  rw [takeExact_append cmd.header_length]
  dsimp only
  have hsame : ¬ cmd.devid ≠ s.devid := fun h => h hdevid
  unfold Connection.handle
  rw [h0, h1, h2, Urb.ofHeader_header hpolite.packets_le]
  dsimp only
  rw [Connection.check_of_not hsame]
  dsimp only
  rw [Connection.check_of_not hnew, if_pos (show usbipCmdSubmit = 1 from rfl)]
  unfold Connection.readSubmit
  dsimp only
  rw [Connection.check_of_not hdirection, Connection.check_of_not hsetup]
  exact if_neg hlength

theorem Connection.readBody_of_takes {s : Connection} {urb : Urb} {data raw rest more : Bytes}
    (hdata : takeExact (if urb.isIn then 0 else urb.length.toNat) s.input = some (data, more))
    (hmany : ¬ urb.packets > 1024)
    (hraw : takeExact (urb.packets.toNat * isoDescriptorSize) more = some (raw, rest)) :
    s.readBody urb =
      { s with input := rest }.submitted
        { urb with data := data, iso := isoPacketsOf urb.packets.toNat raw } := by
  unfold Connection.readBody
  rw [hdata]
  dsimp only
  rw [if_neg hmany, hraw]

theorem Connection.submitted_of_none {s : Connection} {urb : Urb}
    (h : urb.periodicFault s.endpoints = none) :
    s.submitted urb = { s with urbs := s.urbs.submit urb, phase := Phase.header } := by
  unfold Connection.submitted
  rw [h]

theorem payload_length {endpoints : List (UInt8 × UInt8)} {cmd : CmdSubmit}
    (hframed : (Command.submit cmd).Framed) (hpolite : Polite endpoints cmd) :
    cmd.data.length = if (urbOf cmd).bare.isIn then 0 else (urbOf cmd).bare.length.toNat := by
  by_cases hdir : cmd.direction = 0
  · have hout : (urbOf cmd).bare.isIn = false := by
      simp [Urb.isIn, Urb.bare, urbOf, hdir]
    rw [hout]
    exact hframed.left hdir
  · have hin : (urbOf cmd).bare.isIn = true := by
      have hone : cmd.direction = 1 := by
        have hle := UInt32.le_iff_toNat_le.mp hpolite.direction_le
        have hne : cmd.direction.toNat ≠ 0 := fun h => hdir (UInt32.toNat_inj.mp h)
        apply UInt32.toNat_inj.mp
        change cmd.direction.toNat ≤ 1 at hle
        show cmd.direction.toNat = 1
        omega
      simp [Urb.isIn, Urb.bare, urbOf, hone]
    rw [hin, hframed.right.left hdir]
    rfl

theorem Connection.read_body {s : Connection} {cmd : CmdSubmit} {rest : Bytes}
    (hphase : s.phase = Phase.body (urbOf cmd).bare)
    (hinput : s.input =
      cmd.data ++ (cmd.isoPackets.flatMap IsoPacketDescriptor.encode ++ rest))
    (hframed : (Command.submit cmd).Framed) (hpolite : Polite s.endpoints cmd) :
    s.read =
      { s with input := rest, urbs := s.urbs.submit (urbOf cmd), phase := Phase.header } := by
  have hiso := hpolite.packets_le
  have hpackets : (urbOf cmd).bare.packets = (urbOf cmd).packets := rfl
  have hmany : ¬ (urbOf cmd).bare.packets > 1024 := by
    intro h
    have hnat : 1024 < (urbOf cmd).packets.toNat := UInt32.lt_iff_toNat_lt.mp h
    rw [urbOf_packets hiso] at hnat
    omega
  have hlength := payload_length hframed hpolite
  have hfault : (urbOf cmd).periodicFault s.endpoints = none := hpolite.periodic
  have hdata : takeExact
      (if (urbOf cmd).bare.isIn then 0 else (urbOf cmd).bare.length.toNat)
      s.input = some (cmd.data, cmd.isoPackets.flatMap IsoPacketDescriptor.encode ++ rest) := by
    rw [hinput]
    exact takeExact_append hlength _
  have hraw : takeExact ((urbOf cmd).bare.packets.toNat * isoDescriptorSize)
      (cmd.isoPackets.flatMap IsoPacketDescriptor.encode ++ rest) =
      some (cmd.isoPackets.flatMap IsoPacketDescriptor.encode, rest) := by
    apply takeExact_append
    rw [hpackets, urbOf_packets hiso]
    exact flatMap_encode_length cmd.isoPackets
  have hbody : s.readBody (urbOf cmd).bare =
      { s with input := rest }.submitted (urbOf cmd) := by
    rw [Connection.readBody_of_takes hdata hmany hraw, hpackets, urbOf_packets hiso,
      isoPacketsOf_flatMap_encode]
    rfl
  unfold Connection.read
  rw [hphase]
  dsimp only
  rw [hbody]
  exact Connection.submitted_of_none hfault

theorem Connection.read_unlink {s : Connection} {cmd : CmdUnlink} {rest : Bytes}
    (hphase : s.phase = Phase.header) (hinput : s.input = cmd.encode ++ rest)
    (hdevid : cmd.devid = s.devid) (hnew : cmd.seqnum ∉ s.urbs.pending) :
    s.read =
      { s with
        input := rest
        urbs := s.urbs.unlink cmd.seqnum cmd.unlinkSeqnum
        tx := s.tx ++ [some
          (Answer.unlink cmd.seqnum cmd.unlinkSeqnum
            (s.urbs.pending.lookup cmd.unlinkSeqnum)).encode] } := by
  have hwords : be32 cmd.encode 0 = usbipCmdUnlink ∧ be32 cmd.encode 1 = cmd.seqnum ∧
      be32 cmd.encode 2 = cmd.devid ∧ be32 cmd.encode 5 = cmd.unlinkSeqnum := by
    simp [CmdUnlink.encode, be32_zero, be32_succ]
  rcases hwords with ⟨h0, h1, h2, h5⟩
  have hpadding : ¬ (cmd.encode.drop 24).any (fun b => b ≠ 0) = true := by
    have hdrop : cmd.encode.drop 24 = List.replicate 24 0 := rfl
    rw [hdrop]
    decide
  have hsame : ¬ cmd.devid ≠ s.devid := fun h => h hdevid
  have hcode : ¬ usbipCmdUnlink = 1 := by decide
  unfold Connection.read
  rw [hphase, hinput]
  dsimp only
  rw [takeExact_append cmd.encode_length]
  dsimp only
  unfold Connection.handle
  rw [h0, h1, h2]
  dsimp only
  rw [Connection.check_of_not hsame]
  dsimp only
  rw [Connection.check_of_not hnew, if_neg hcode, if_pos (show usbipCmdUnlink = 2 from rfl)]
  unfold Connection.readUnlink
  dsimp only
  rw [Connection.check_of_not hpadding, h1, h5]
  rfl

end Server
end UsbIp
