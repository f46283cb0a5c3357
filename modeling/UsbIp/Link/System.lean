import UsbIp.Client.Framing
import UsbIp.Link.Agreement
import UsbIp.Server.Serve

/-!
# A session and its server

The two sides joined by a connection: what one side writes is on its way until
it arrives, in pieces of any length, at the other side.  Every step is one of
the client, of the server, or of the connection, so a list of steps is a run
with any interleaving of the two programs and any way the stream is cut.
-/

namespace UsbIp
namespace Link

open Foundation
open Protocol
open Client (Shared SubmitRequest Session ExportedDevice)
open Server (Urb Urbs Answer Outcome Completion Job Connection urbOf unlinkStatus)

/-!
# States and steps
-/

structure System where
  client : Session
  server : Connection
  /-- Written by the client and not yet arrived. -/
  toServer : Bytes
  /-- Written by the server and not yet arrived. -/
  toClient : Bytes

def exportDevid (device : ExportedDevice) : UInt32 :=
  (device.busnum <<< 16) ||| device.devnum

def System.start (device : ExportedDevice) (endpoints : List (UInt8 × UInt8)) : System where
  client := Session.start device
  server := Connection.start (exportDevid device) endpoints
  toServer := []
  toClient := []

inductive Step where
  | client (st : Client.Step)
  | server (st : Server.Step)
  /-- The next `n` bytes arrive at the server. -/
  | toServer (n : Nat)
  /-- The next `n` bytes arrive at the client, which sees none behind the end. -/
  | toClient (n : Nat)
  /-- The client sees the end of the stream. -/
  | hangUp

/-- Bytes and the end of the stream come from the connection only. -/
def isOwn : Client.Step -> Bool
  | Client.Step.receive _ => false
  | Client.Step.hangUp => false
  | _ => true

def isServers : Server.Step -> Bool
  | Server.Step.receive _ => false
  | _ => true

def System.clientStep (l : System) (st : Client.Step) : System :=
  { l with
    client := l.client.step st
    toServer := l.toServer ++ (l.client.step st).written.drop l.client.written.length }

def System.serverStep (l : System) (st : Server.Step) : System :=
  { l with
    server := l.server.step st
    toClient := l.toClient ++ (l.server.step st).written.drop l.server.written.length }

def System.step (l : System) : Step -> System
  | Step.client st => if isOwn st then l.clientStep st else l
  | Step.server st => if isServers st then l.serverStep st else l
  | Step.toServer n =>
      { l with
        server := l.server.step (Server.Step.receive (l.toServer.take n))
        toServer := l.toServer.drop n }
  | Step.toClient n =>
      if l.client.ended then
        l
      else
        { l with
          client := l.client.step (Client.Step.receive (l.toClient.take n))
          toClient := l.toClient.drop n }
  | Step.hangUp =>
      if l.server.writing = false ∧ l.toClient = [] then
        { l with client := l.client.step Client.Step.hangUp }
      else
        l

/-!
# What the runs are about
-/

def System.dialogue (l : System) : Dialogue where
  client := sent l.client.shared
  server := l.server.urbs

/-- A command that the server has nothing to complain about. -/
def OrderPolite (endpoints : List (UInt8 × UInt8)) : Order -> Prop
  | Order.submit _ cmd => Server.Polite endpoints cmd
  | Order.unlink _ _ => True

instance (endpoints : List (UInt8 × UInt8)) (o : Order) :
    Decidable (OrderPolite endpoints o) :=
  match o with
  | Order.submit _ cmd => inferInstanceAs (Decidable (Server.Polite endpoints cmd))
  | Order.unlink _ _ => inferInstanceAs (Decidable True)

/--
The client issues what the server accepts, under numbers that belong to nothing
under way, and a device returns no more than it was asked for.
-/
def System.Allowed (l : System) : Step -> Prop
  | Step.client st =>
      forall o, o ∈ newOrders l.client.shared (l.client.step st).shared ->
        l.dialogue.Unused o.seqnum ∧ OrderPolite l.server.endpoints o
  | Step.server (Server.Step.finish address outcome) =>
      outcomeFits l.server.urbs address outcome
  | _ => True

instance (l : System) (st : Step) : Decidable (l.Allowed st) :=
  match st with
  | Step.client st =>
      inferInstanceAs (Decidable (forall o,
        o ∈ newOrders l.client.shared (l.client.step st).shared ->
          l.dialogue.Unused o.seqnum ∧ OrderPolite l.server.endpoints o))
  | Step.server (Server.Step.finish address outcome) =>
      inferInstanceAs (Decidable (outcomeFits l.server.urbs address outcome))
  | Step.server (Server.Step.receive _) => isTrue trivial
  | Step.server Server.Step.readFails => isTrue trivial
  | Step.server Server.Step.read => isTrue trivial
  | Step.server (Server.Step.skip _) => isTrue trivial
  | Step.server Server.Step.write => isTrue trivial
  | Step.server (Server.Step.writeFails _) => isTrue trivial
  | Step.toServer _ => isTrue trivial
  | Step.toClient _ => isTrue trivial
  | Step.hangUp => isTrue trivial

/-!
# The two streams
-/

/-- What the server has not read: arrived, under way, or not yet written. -/
def System.upstream (l : System) : Bytes :=
  l.server.input ++ (l.toServer ++ (l.client.batch ++ l.client.shared.frames.flatten))

/-- The frames in front of the end of the channel to the writer. -/
def queued : List (Option Bytes) -> Bytes
  | some frame :: rest => frame ++ queued rest
  | _ => []

/-- What the client has not read. A writer that has stopped writes nothing more. -/
def System.downstream (l : System) : Bytes :=
  l.client.input ++ (l.toClient ++ (if l.server.writing then queued l.server.tx else []))

theorem queued_append_open {tx : List (Option Bytes)} (h : none ∉ tx)
    (more : List (Option Bytes)) : queued (tx ++ more) = queued tx ++ queued more := by
  induction tx with
  | nil => rfl
  | cons frame rest ih =>
      cases frame with
      | none => exact absurd List.mem_cons_self h
      | some bytes =>
          have hrest := ih fun hmem => h (List.mem_cons_of_mem _ hmem)
          simp only [List.cons_append, queued, hrest, List.append_assoc]

theorem queued_append_ended {tx : List (Option Bytes)} (h : none ∈ tx)
    (more : List (Option Bytes)) : queued (tx ++ more) = queued tx := by
  induction tx with
  | nil => cases h
  | cons frame rest ih =>
      cases frame with
      | none => rfl
      | some bytes =>
          have hmem : none ∈ rest := by simpa using h
          simp only [List.cons_append, queued, ih hmem]

def payloadOf (cmd : CmdSubmit) : Bytes :=
  cmd.data ++ cmd.isoPackets.flatMap IsoPacketDescriptor.encode

/-- What the server's loop stands in front of, given the orders it has not taken. -/
inductive Upstream : Server.Phase -> List Order -> Bytes -> Prop where
  | header {orders : List Order} :
      Upstream Server.Phase.header orders (orders.flatMap Order.encode)
  | body {reply : Nat} {cmd : CmdSubmit} {rest : List Order} :
      Upstream (Server.Phase.body (urbOf cmd).bare) (Order.submit reply cmd :: rest)
        (payloadOf cmd ++ rest.flatMap Order.encode)
  | stopped {orders : List Order} {bytes : Bytes} :
      Upstream Server.Phase.stopped orders bytes

def returned (ret : RetSubmit) : Bytes :=
  ret.data ++ ret.isoPackets.flatMap IsoPacketDescriptor.encode

/-- What the client's reader stands in front of, given the answers it has not read. -/
inductive Downstream : Client.ReaderPhase -> List Answer -> Bytes -> Prop where
  | header {answers : List Answer} :
      Downstream Client.ReaderPhase.header answers (answers.flatMap Answer.encode)
  | payload {cancel : Nat} {urb : Urb} {c : Completion} {rest : List Answer}
      {direction : Direction} {length : UInt32} :
      (urb.serverSubmit c).WellFormed direction length ->
      Downstream (Client.ReaderPhase.payload (urb.reply c).submitHeader direction length)
        (Answer.ret cancel urb c :: rest)
        (returned (urb.reply c) ++ rest.flatMap Answer.encode)
  | failed {reason : String} {answers : List Answer} {bytes : Bytes} :
      Downstream (Client.ReaderPhase.failed reason) answers bytes
  | stopped {answers : List Answer} {bytes : Bytes} :
      Downstream Client.ReaderPhase.stopped answers bytes

/-- A reason for the end of a session other than a reply that makes no sense. -/
inductive Benign : String -> Prop where
  | byClient : Benign "closed by client"
  | byServer : Benign "server closed the connection"
  | writing (text : String) : Benign ("write failed: " ++ text)
  | reading (text : String) : Benign ("i/o error: " ++ text)

end Link
end UsbIp
