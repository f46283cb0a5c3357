import UsbIp.Engine.System
import UsbIp.Hci.AddressPool

/-!
# The host controller

The commands of `host.rs`.  The framework keeps a state machine for the
controller, its port, each device and each endpoint; here these are handles, and
whatever a call of them returns while a command is handled is in a `Framework`
record, which is arbitrary in all statements.  A command that waits forever, for
a sequence number or for the clock, does not return.
-/

namespace UsbIp
namespace Host

open Foundation
open Protocol
open Hci
open Engine (EndpointKey)
open Client (SubmitRequest TransferError Session)

/-!
# The frame clock
-/

structure FrameClock where
  epoch : UInt64
  numer : UInt32
  denom : UInt32
  last : Option UInt64

namespace FrameClock

def frameAt (clock : FrameClock) (ticks : UInt64) : UInt64 :=
  UInt64.ofNat ((ticks - clock.epoch).toNat * clock.numer.toNat /
    (clock.denom.toNat * 1000000))

def startOf (clock : FrameClock) (frame : UInt64) : UInt64 :=
  clock.epoch + UInt64.ofNat (frame.toNat * clock.denom.toNat * 1000000 / clock.numer.toNat)

/--
A frame number later than any reported before, and the time at which it began. The
readings are what the clock shows, one after the other; nothing is returned if it
does not get past the last frame.
-/
def next (clock : FrameClock) : List UInt64 -> Option ((UInt64 × UInt64) × FrameClock)
  | [] => none
  | ticks :: readings =>
      let frame := clock.frameAt ticks
      if clock.last.any (fun last => frame ≤ last) then
        clock.next readings
      else
        some ((frame, clock.startOf frame), { clock with last := some frame })

end FrameClock

/-!
# The framework
-/

inductive MessageStatus where
  | success
  | error
  | noResources
deriving DecidableEq, Repr

inductive DeviceSpeed where
  | low
  | full
  | high
  | super
  | superPlus
deriving DecidableEq, Repr

def ciSpeed : Speed -> DeviceSpeed
  | .low => DeviceSpeed.low
  | .full | .unknown => DeviceSpeed.full
  | .high | .wireless => DeviceSpeed.high
  | .super => DeviceSpeed.super
  | .superPlus => DeviceSpeed.superPlus

/-- An answer to a command: some carry an address or a frame and its time. -/
structure Response where
  status : MessageStatus
  address : Option UInt8 := none
  frame : Option (UInt64 × UInt64) := none
deriving DecidableEq, Repr

/-- Calls that a command makes and that the host sees. -/
inductive Call where
  | respond (response : Response)
  | updateLinkState (speed : DeviceSpeed)
deriving DecidableEq, Repr

def Call.isRespond : Call -> Bool
  | Call.respond _ => true
  | Call.updateLinkState _ => false

structure DeviceMachine where
  handle : Nat
deriving DecidableEq, Repr

structure EndpointMachine where
  handle : Nat
  deviceAddress : Nat
  endpointAddress : Nat
deriving DecidableEq, Repr

/-- What the framework, the clock and the other tasks do while a command is handled. -/
structure Framework (R : Type) where
  /-- The state machine of the port that the command is for. -/
  port : Except String Unit
  createDevice : Except String DeviceMachine
  createEndpoint : Except String (EndpointMachine × R)
  inspect : Except String Unit
  respond : Response -> Except String Unit
  updateLinkState : Except String Unit
  /-- The byte at an address of the host's memory. -/
  memory : UInt64 -> UInt8
  readings : List UInt64
  /-- What other tasks do to the session while the queue waits for a reset. -/
  meanwhile : List Client.Step
  /-- The order in which a table lists its keys. -/
  order : List EndpointKey -> List EndpointKey
  order_perm : forall keys, (order keys).Perm keys

def Framework.read {R : Type} (fw : Framework R) (address : UInt64) (count : Nat) : Bytes :=
  (List.range count).map fun i => fw.memory (address + UInt64.ofNat i)

def endpointDescriptor {R : Type} (fw : Framework R) (msg : RawMessage) : EndpointInfo :=
  if msg.data1 = 0 then
    EndpointInfo.control
  else
    let head := fw.read msg.data1 4
    let len :=
      if byteAt head 1 = 2 then
        max 4 (min (le16 (byteAt head 2) (byteAt head 3)).toNat 512)
      else
        7
    (EndpointInfo.parse (fw.read msg.data1 len)).getD EndpointInfo.control

/-!
# The controller's state
-/

structure Shared (R : Type) where
  engine : Engine R
  speed : DeviceSpeed
  clock : FrameClock
  devices : Table UInt8 DeviceMachine
  endpoints : Table EndpointKey EndpointMachine
  addresses : AddressPool
  powered : Bool
  /-- The host has created a device; port resets before that are the initial one. -/
  enumerated : Bool

/-- A command as far as it got: nothing is its result if it does not return. -/
structure Handled (R : Type) where
  shared : Shared R
  calls : List Call
  result : Option (Except String Unit)

variable {R : Type} [Engine.Ring R]

/-!
# Resetting the device
-/

def portResetSetup : Vector UInt8 8 :=
  #v[0x23, 0x03, 0x04, 0x00, 0x01, 0x00, 0x00, 0x00]

/--
Resets the device on the server and waits for it to finish, while other tasks go
on. Nothing is returned if the session has no number for the transfer.
-/
def resetDevice (e : Engine R) (meanwhile : List Client.Step) :
    Engine R × Option (Except TransferError Unit) :=
  let req := { SubmitRequest.new 0 Direction.out 0 with setup := portResetSetup }
  let e := e.acquire
  match e.session.shared.submit req with
  | none => ({ e with stuck := true }, none)
  | some (.error err, _) => (e, some (.error err))
  | some (.ok (_, reply), shared) =>
      let session := meanwhile.foldl Session.step { e.session with shared := shared }
      let result :=
        match session.shared.sent.find? (fun x => x.1 = reply) with
        | none => .error (.disconnected "device reset timed out")
        | some (_, .error err) => .error err
        | some (_, .ok ret) =>
            if ret.status = 0 then
              .ok ()
            else
              .error (.invalid s!"device reset failed: {ret.status}")
      ({ e with session := session }, some result)

/-!
# Commands
-/

def Shared.done (s : Shared R) : Handled R where
  shared := s
  calls := []
  result := if s.engine.stuck then none else some (.ok ())

/--
Inspects and answers a command. The host waits for an answer to every command, so
one is sent even when the state machine rejects the command or `act` fails.
-/
def answer (fw : Framework R) (response : MessageStatus -> Response)
    (act : Shared R -> Handled R) (s : Shared R) : Handled R :=
  match fw.inspect with
  | .error text =>
      { shared := s
        calls := [Call.respond (response MessageStatus.error)]
        result := some (.error s!"rejected: {text}") }
  | .ok () =>
      let acted := act s
      match acted.result with
      | none => acted
      | some result =>
          let status := if result.isOk then MessageStatus.success else MessageStatus.error
          { shared := acted.shared
            calls := acted.calls ++ [Call.respond (response status)]
            result :=
              match fw.respond (response status) with
              | .ok () => some result
              | .error text => some (.error text) }

def Handled.andThen (h : Handled R) (next : Shared R -> Handled R) : Handled R :=
  match h.result with
  | some (.ok ()) =>
      let more := next h.shared
      { more with calls := h.calls ++ more.calls }
  | _ => h

def Shared.fails (s : Shared R) (text : String) : Handled R where
  shared := s
  calls := []
  result := some (.error text)

def plainResponse (status : MessageStatus) : Response :=
  { status := status }

def controllerCommand (fw : Framework R) (s : Shared R) : Handled R :=
  answer fw plainResponse Shared.done s

def frameNumber (fw : Framework R) (s : Shared R) : Handled R :=
  match s.clock.next fw.readings with
  | none => { shared := s, calls := [], result := none }
  | some (frame, clock) =>
      answer fw (fun status => { status := status, frame := some frame }) Shared.done
        { s with clock := clock }

/-- The device is reset on the server first, whether that works or not. -/
def portReset (fw : Framework R) (s : Shared R) : Handled R :=
  let s :=
    if s.enumerated then
      { s with engine := (resetDevice s.engine fw.meanwhile).1 }
    else
      s
  if s.engine.stuck then
    { shared := s, calls := [], result := none }
  else
    { shared := s, calls := [Call.updateLinkState s.speed], result := some fw.updateLinkState }

def portCommand (fw : Framework R) (kind : UInt32) (s : Shared R) : Handled R :=
  match fw.port with
  | .error text => s.fails text
  | .ok () =>
      let act := if kind = MessageType.portReset then portReset fw else Shared.done
      (answer fw plainResponse act s).andThen fun s =>
        if kind = MessageType.portPowerOn then
          Shared.done { s with powered := true }
        else
          s.done

def createDevice (fw : Framework R) (s : Shared R) : Handled R :=
  match fw.createDevice with
  | .error text => s.fails text
  | .ok machine =>
      match s.addresses.allocate with
      | none =>
          { shared := s
            calls := [Call.respond { status := MessageStatus.noResources }]
            result := some (.error "out of device addresses") }
      | some (address, addresses) =>
          let response : Response :=
            { status := MessageStatus.success, address := some address }
          match fw.respond response with
          | .error text =>
              { shared := { s with addresses := addresses.release address }
                calls := [Call.respond response]
                result := some (.error text) }
          | .ok () =>
              { shared :=
                  { s with
                    addresses := addresses
                    enumerated := true
                    devices := s.devices.insert address machine }
                calls := [Call.respond response]
                result := some (.ok ()) }

/-- Everything of the device goes, unless the engine waits for a number. -/
def destroyDevice (fw : Framework R) (address : UInt8) (s : Shared R) : Handled R :=
  let keys := fw.order (s.engine.endpoints.keys.filter fun k => k.1 = address)
  let s := { s with engine := s.engine.removeDevice address keys }
  if s.engine.stuck then
    s.done
  else
    Shared.done
      { s with
        endpoints := Table.retain (fun k _ => k.1 ≠ address) s.endpoints
        devices := s.devices.erase address
        addresses := s.addresses.release address }

def pauseDevice (fw : Framework R) (address : UInt8) (s : Shared R) : Handled R :=
  let keys := fw.order (s.endpoints.keys.filter fun k => k.1 = address)
  Shared.done { s with engine := keys.foldl Engine.pauseEndpoint s.engine }

def deviceCommand (fw : Framework R) (kind : UInt32) (address : UInt8) (s : Shared R) :
    Handled R :=
  match s.devices.lookup address with
  | none => s.fails s!"unknown device {address}"
  | some _ =>
      let act :=
        if kind = MessageType.deviceDestroy then
          destroyDevice fw address
        else if kind = MessageType.devicePause then
          pauseDevice fw address
        else
          Shared.done
      answer fw plainResponse act s

def createEndpoint (fw : Framework R) (msg : RawMessage) (s : Shared R) : Handled R :=
  match fw.createEndpoint with
  | .error text => s.fails text
  | .ok (machine, ring) =>
      let response := plainResponse MessageStatus.success
      match fw.respond response with
      | .error text =>
          { shared := s, calls := [Call.respond response], result := some (.error text) }
      | .ok () =>
          let key : EndpointKey :=
            (UInt8.ofNat machine.deviceAddress, UInt8.ofNat machine.endpointAddress)
          let s :=
            { s with
              endpoints := s.endpoints.insert key machine
              engine := s.engine.addEndpoint key (endpointDescriptor fw msg) ring }
          { s.done with calls := [Call.respond response] }

def endpointAction (fw : Framework R) (msg : RawMessage) (kind : UInt32) (key : EndpointKey)
    (s : Shared R) : Handled R :=
  if kind = MessageType.endpointDestroy then
    let s := { s with engine := s.engine.removeEndpoint key }
    if s.engine.stuck then s.done else Shared.done { s with endpoints := s.endpoints.erase key }
  else if kind = MessageType.endpointPause then
    Shared.done { s with engine := s.engine.pauseEndpoint key }
  else if kind = MessageType.endpointUpdate then
    Shared.done { s with engine := s.engine.updateEndpoint key (endpointDescriptor fw msg) }
  else if kind = MessageType.endpointReset then
    Shared.done { s with engine := s.engine.resetEndpoint key }
  else
    s.done

def endpointCommand (fw : Framework R) (msg : RawMessage) (kind : UInt32) (key : EndpointKey)
    (s : Shared R) : Handled R :=
  match s.endpoints.lookup key with
  | none => s.fails s!"unknown endpoint ({key.1}, {key.2})"
  | some _ =>
      (answer fw plainResponse (endpointAction fw msg kind key) s).andThen fun s =>
        if kind = MessageType.endpointSetNextTransfer then
          Shared.done { s with engine := s.engine.syncEndpoint key }
        else
          s.done

def between (first last kind : UInt32) : Bool :=
  first ≤ kind && kind ≤ last

def command (fw : Framework R) (msg : RawMessage) (s : Shared R) : Handled R :=
  let kind := msg.messageType
  if between MessageType.controllerPowerOn MessageType.controllerPause kind then
    controllerCommand fw s
  else if kind = MessageType.controllerFrameNumber then
    frameNumber fw s
  else if between MessageType.portPowerOn MessageType.portStatus kind then
    portCommand fw kind s
  else if kind = MessageType.deviceCreate then
    createDevice fw s
  else if between MessageType.deviceDestroy MessageType.deviceUpdate kind then
    deviceCommand fw kind msg.deviceAddress s
  else if kind = MessageType.endpointCreate then
    createEndpoint fw msg s
  else if between MessageType.endpointDestroy MessageType.endpointSetNextTransfer kind then
    endpointCommand fw msg kind (msg.deviceAddress, msg.endpointAddress) s
  else
    -- Unsupported commands are ignored.
    { shared := s, calls := [], result := some (.ok ()) }

def doorbell (rounds : Nat) (processed : Except String Unit) (doorbell : UInt32)
    (s : Shared R) : Shared R :=
  let (device, endpoint, _) := decodeDoorbell doorbell
  match s.endpoints.lookup (device, endpoint), processed with
  | some _, .ok () => { s with engine := s.engine.pump rounds (device, endpoint) }
  | _, _ => s

/-!
# Runs
-/

def start (device : Client.ExportedDevice) (schedule : List (List Client.Step))
    (epoch : UInt64) (numer denom : UInt32) : Shared R where
  engine := Engine.start device schedule
  speed := ciSpeed device.speed
  clock := { epoch, numer, denom, last := none }
  devices := ∅
  endpoints := ∅
  addresses := AddressPool.empty
  powered := false
  enumerated := false

inductive HostOp (R : Type) where
  | command (fw : Framework R) (msg : RawMessage)
  /-- The state machine of the endpoint may reject the doorbell. -/
  | doorbell (processed : Except String Unit) (doorbell : UInt32)
  /-- The task that waits for a reply gets it. -/
  | deliver (reply : Nat)
  /-- A task or thread that shares the session takes a step. -/
  | session (st : Client.Step)
  /-- The host changes the ring of an endpoint. -/
  | host (key : EndpointKey) (ring : R)

def perform (rounds : Nat) (s : Shared R) : HostOp R -> Shared R
  | HostOp.command fw msg => (command fw msg s).shared
  | HostOp.doorbell processed value => doorbell rounds processed value s
  | HostOp.deliver reply => { s with engine := s.engine.deliver rounds reply }
  | HostOp.session st =>
      { s with engine := { s.engine with session := s.engine.session.step st } }
  | HostOp.host key ring => { s with engine := s.engine.hostRing key ring }

/-- Nothing more happens on a queue that is blocked. -/
def step (rounds : Nat) (s : Shared R) (op : HostOp R) : Shared R :=
  if s.engine.stuck then s else perform rounds s op

def run (rounds : Nat) (s : Shared R) (ops : List (HostOp R)) : Shared R :=
  ops.foldl (step rounds) s

end Host
end UsbIp
