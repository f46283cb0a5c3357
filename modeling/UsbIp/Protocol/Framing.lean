import UsbIp.Protocol.Wire

/-!
# Commands as a server reads them

A reference parser for the commands of a session: a header of 48 bytes, the
data of an OUT transfer, and the isochronous descriptors.  Nothing in the byte
stream marks the end of a command, so a parser only finds the next one if the
header says how long this one is.  A command whose fields agree with its
payload is read back field for field, whatever bytes follow it.
-/

namespace UsbIp
namespace Protocol

open Foundation

inductive Command where
  | submit (cmd : CmdSubmit)
  | unlink (cmd : CmdUnlink)
deriving DecidableEq, Repr

def Command.seqnum : Command -> UInt32
  | Command.submit cmd => cmd.seqnum
  | Command.unlink cmd => cmd.seqnum

def Command.encode : Command -> Bytes
  | Command.submit cmd => cmd.encode
  | Command.unlink cmd => cmd.encode

/-!
# The reference parser
-/

def be32 (header : Bytes) (i : Nat) : UInt32 :=
  (getU32 (header.drop (4 * i))).1

def setupOf (header : Bytes) : Vector UInt8 8 :=
  Vector.ofFn fun i => (header.drop 40).getD i 0

def parseSubmit (h payload : Bytes) : Option (CmdSubmit × Bytes) := do
  let (data, payload) ← takeExact (if be32 h 3 = 0 then (be32 h 6).toNat else 0) payload
  let (raw, rest) ← takeExact ((be32 h 8).toNat * isoDescriptorSize) payload
  return (
    { seqnum := be32 h 1, devid := be32 h 2, direction := be32 h 3, ep := be32 h 4,
      transferFlags := be32 h 5, transferBufferLength := be32 h 6,
      startFrame := be32 h 7, interval := be32 h 9, setup := setupOf h, data := data,
      isoPackets := isoPacketsOf (be32 h 8).toNat raw }, rest)

/-- One command from the front of a byte string. -/
def parseCommand (bytes : Bytes) : Option (Command × Bytes) :=
  match takeExact urbHeaderSize bytes with
  | none => none
  | some (h, payload) =>
      if be32 h 0 = usbipCmdSubmit then
        (parseSubmit h payload).map fun x => (Command.submit x.1, x.2)
      else if be32 h 0 = usbipCmdUnlink then
        some (Command.unlink
          { seqnum := be32 h 1, devid := be32 h 2, unlinkSeqnum := be32 h 5 }, payload)
      else
        none

def parseUpTo : Nat -> Bytes -> Option (List Command)
  | _, [] => some []
  | 0, _ :: _ => none
  | n + 1, b :: bytes => do
      let (command, rest) ← parseCommand (b :: bytes)
      let commands ← parseUpTo n rest
      return command :: commands

/-- All commands of a byte string; each of them takes at least one byte. -/
def parseCommands (bytes : Bytes) : Option (List Command) :=
  parseUpTo bytes.length bytes

/-!
# Reading back one command
-/

@[simp] theorem IsoPacketDescriptor.encode_length (p : IsoPacketDescriptor) :
    p.encode.length = isoDescriptorSize := rfl

@[simp] theorem IsoPacketDescriptor.decode_encode (p : IsoPacketDescriptor) :
    IsoPacketDescriptor.decode p.encode = p := by
  have hlast : getI32 (putI32 p.status) = (p.status, []) := by
    simpa using getI32_putI32 p.status []
  simp [IsoPacketDescriptor.decode, IsoPacketDescriptor.encode, hlast]

theorem flatMap_encode_length (ps : List IsoPacketDescriptor) :
    (ps.flatMap IsoPacketDescriptor.encode).length = ps.length * isoDescriptorSize := by
  induction ps with
  | nil => rfl
  | cons p ps ih =>
      simp only [List.flatMap_cons, List.length_append, ih, List.length_cons,
        IsoPacketDescriptor.encode_length]
      rw [Nat.succ_mul, Nat.add_comm]

theorem isoPacketsOf_flatMap_encode (ps : List IsoPacketDescriptor) :
    isoPacketsOf ps.length (ps.flatMap IsoPacketDescriptor.encode) = ps := by
  induction ps with
  | nil => rfl
  | cons p ps ih =>
      simp only [List.length_cons, isoPacketsOf, List.flatMap_cons]
      rw [List.take_left' p.encode_length, List.drop_left' p.encode_length,
        IsoPacketDescriptor.decode_encode, ih]

@[simp] theorem be32_zero (x : UInt32) (rest : Bytes) : be32 (putU32 x ++ rest) 0 = x := by
  simp [be32]

@[simp] theorem be32_succ (x : UInt32) (rest : Bytes) (i : Nat) :
    be32 (putU32 x ++ rest) (i + 1) = be32 rest i := by
  have hdrop : (putU32 x ++ rest).drop (4 * (i + 1)) = rest.drop (4 * i) := by
    rw [Nat.mul_succ, Nat.add_comm, ← List.drop_drop, List.drop_left' (putU32_length x)]
  rw [be32, hdrop, be32]

theorem packetCount_toNat {ps : List IsoPacketDescriptor} (h : ps.length ≤ 1024) :
    (if ps.isEmpty then (0 : UInt32) else UInt32.ofNat ps.length).toNat = ps.length := by
  cases ps with
  | nil => rfl
  | cons p ps =>
      exact UInt32.toNat_ofNat_of_lt' (Nat.lt_of_le_of_lt h (by decide))

/-- The fields of a command agree with the payload that follows its header. -/
def Command.Framed : Command -> Prop
  | Command.submit cmd =>
      (cmd.direction = 0 -> cmd.data.length = cmd.transferBufferLength.toNat) ∧
        (cmd.direction ≠ 0 -> cmd.data = []) ∧ cmd.isoPackets.length ≤ 1024
  | Command.unlink _ => True

def CmdSubmit.header (cmd : CmdSubmit) : Bytes :=
  putU32 usbipCmdSubmit ++ (putU32 cmd.seqnum ++ (putU32 cmd.devid ++
    (putU32 cmd.direction ++ (putU32 cmd.ep ++ (putU32 cmd.transferFlags ++
    (putU32 cmd.transferBufferLength ++ (putU32 cmd.startFrame ++
    (putU32 (if cmd.isoPackets.isEmpty then 0 else UInt32.ofNat cmd.isoPackets.length) ++
    (putU32 cmd.interval ++ cmd.setup.toList)))))))))

theorem CmdSubmit.header_length (cmd : CmdSubmit) : cmd.header.length = urbHeaderSize := by
  simp [CmdSubmit.header, urbHeaderSize]

theorem CmdSubmit.encode_eq (cmd : CmdSubmit) :
    cmd.encode =
      cmd.header ++ (cmd.data ++ cmd.isoPackets.flatMap IsoPacketDescriptor.encode) := by
  simp [CmdSubmit.encode, CmdSubmit.header]

theorem CmdUnlink.encode_length (cmd : CmdUnlink) : cmd.encode.length = urbHeaderSize := by
  simp [CmdUnlink.encode, urbHeaderSize]

theorem CmdSubmit.header_words {cmd : CmdSubmit} (hiso : cmd.isoPackets.length ≤ 1024) :
    be32 cmd.header 0 = usbipCmdSubmit ∧ be32 cmd.header 1 = cmd.seqnum ∧
      be32 cmd.header 2 = cmd.devid ∧ be32 cmd.header 3 = cmd.direction ∧
      be32 cmd.header 4 = cmd.ep ∧ be32 cmd.header 5 = cmd.transferFlags ∧
      be32 cmd.header 6 = cmd.transferBufferLength ∧ be32 cmd.header 7 = cmd.startFrame ∧
      (be32 cmd.header 8).toNat = cmd.isoPackets.length ∧
      be32 cmd.header 9 = cmd.interval := by
  have hcount := packetCount_toNat hiso
  simp only [List.isEmpty_iff] at hcount
  simp [CmdSubmit.header, be32_zero, be32_succ, hcount]

theorem CmdSubmit.setupOf_header (cmd : CmdSubmit) : setupOf cmd.header = cmd.setup := by
  have hdrop : cmd.header.drop 40 = cmd.setup.toList := rfl
  apply Vector.ext
  intro i hi
  simp [setupOf, hdrop]

theorem CmdSubmit.parseSubmit_header {cmd : CmdSubmit}
    (hframed : (Command.submit cmd).Framed) (rest : Bytes) :
    parseSubmit cmd.header
      (cmd.data ++ (cmd.isoPackets.flatMap IsoPacketDescriptor.encode ++ rest)) =
        some (cmd, rest) := by
  rcases hframed with ⟨hout, hin, hiso⟩
  rcases CmdSubmit.header_words hiso with ⟨_, h1, h2, h3, h4, h5, h6, h7, h8, h9⟩
  have hdata : takeExact
      (if cmd.direction = 0 then cmd.transferBufferLength.toNat else 0)
      (cmd.data ++ (cmd.isoPackets.flatMap IsoPacketDescriptor.encode ++ rest)) =
      some (cmd.data, cmd.isoPackets.flatMap IsoPacketDescriptor.encode ++ rest) := by
    apply takeExact_append
    split
    · rename_i hdir
      exact hout hdir
    · rename_i hdir
      rw [hin hdir]
      rfl
  have hpackets : takeExact (cmd.isoPackets.length * isoDescriptorSize)
      (cmd.isoPackets.flatMap IsoPacketDescriptor.encode ++ rest) =
      some (cmd.isoPackets.flatMap IsoPacketDescriptor.encode, rest) :=
    takeExact_append (flatMap_encode_length cmd.isoPackets) rest
  unfold parseSubmit
  rw [h1, h2, h3, h4, h5, h6, h7, h8, h9, hdata]
  simp [hpackets, isoPacketsOf_flatMap_encode, CmdSubmit.setupOf_header]

theorem parseCommand_submit {cmd : CmdSubmit} (hframed : (Command.submit cmd).Framed)
    (rest : Bytes) :
    parseCommand (cmd.encode ++ rest) = some (Command.submit cmd, rest) := by
  rw [CmdSubmit.encode_eq, List.append_assoc, List.append_assoc]
  unfold parseCommand
  rw [takeExact_append cmd.header_length]
  have hcode : be32 cmd.header 0 = usbipCmdSubmit :=
    (CmdSubmit.header_words hframed.right.right).left
  simp [hcode, cmd.parseSubmit_header hframed]

theorem parseCommand_unlink (cmd : CmdUnlink) (rest : Bytes) :
    parseCommand (cmd.encode ++ rest) = some (Command.unlink cmd, rest) := by
  have hwords : be32 cmd.encode 0 = usbipCmdUnlink ∧ be32 cmd.encode 1 = cmd.seqnum ∧
      be32 cmd.encode 2 = cmd.devid ∧ be32 cmd.encode 5 = cmd.unlinkSeqnum := by
    simp [CmdUnlink.encode, be32_zero, be32_succ]
  rcases hwords with ⟨h0, h1, h2, h5⟩
  unfold parseCommand
  rw [takeExact_append cmd.encode_length]
  simp [h0, h1, h2, h5, show usbipCmdUnlink ≠ usbipCmdSubmit by decide]

theorem parseCommand_encode {c : Command} (hframed : c.Framed) (rest : Bytes) :
    parseCommand (c.encode ++ rest) = some (c, rest) := by
  cases c with
  | submit cmd => exact parseCommand_submit hframed rest
  | unlink cmd => exact parseCommand_unlink cmd rest

/-!
# Reading back a byte string of commands
-/

theorem Command.encode_length_pos (c : Command) : 0 < c.encode.length := by
  cases c with
  | submit cmd =>
      simp only [Command.encode, CmdSubmit.encode_eq, List.length_append,
        CmdSubmit.header_length, urbHeaderSize]
      omega
  | unlink cmd =>
      rw [Command.encode, CmdUnlink.encode_length]
      decide

theorem parseUpTo_flatMap_encode {cs : List Command} {n : Nat}
    (hframed : forall c, c ∈ cs -> c.Framed)
    (hn : (cs.flatMap Command.encode).length ≤ n) :
    parseUpTo n (cs.flatMap Command.encode) = some cs := by
  induction cs generalizing n with
  | nil =>
      cases n <;> rfl
  | cons c cs ih =>
      have hpos := c.encode_length_pos
      rw [List.flatMap_cons, List.length_append] at hn
      have hone : parseCommand (c.encode ++ cs.flatMap Command.encode) =
          some (c, cs.flatMap Command.encode) :=
        parseCommand_encode (hframed c List.mem_cons_self) _
      cases n with
      | zero => omega
      | succ n =>
          have hrest : parseUpTo n (cs.flatMap Command.encode) = some cs :=
            ih (fun d hd => hframed d (List.mem_cons_of_mem c hd)) (by omega)
          rw [List.flatMap_cons]
          cases hbytes : c.encode ++ cs.flatMap Command.encode with
          | nil =>
              have hlen := congrArg List.length hbytes
              rw [List.length_append, List.length_nil] at hlen
              omega
          | cons b bytes =>
              rw [hbytes] at hone
              simp [parseUpTo, hone, hrest]

/-- Commands are found again in the concatenation of their encodings. -/
theorem parseCommands_flatMap_encode {cs : List Command}
    (hframed : forall c, c ∈ cs -> c.Framed) :
    parseCommands (cs.flatMap Command.encode) = some cs :=
  parseUpTo_flatMap_encode hframed (Nat.le_refl _)

end Protocol
end UsbIp
