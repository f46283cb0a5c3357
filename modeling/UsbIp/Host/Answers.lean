import UsbIp.Engine.SlotRing
import UsbIp.Host.Controller

/-!
# Answers

The host waits for an answer to every command.  `answer` sends one whatever
happens, but a command only gets there once its state machine is at hand: a
command for an unknown device or endpoint, one whose state machine cannot be
found or created, and one of an unsupported kind are not answered at all.
-/

namespace UsbIp
namespace Host

open Foundation
open Protocol
open Hci
open Engine (EndpointKey QueueRing reads sampleDevice)

variable {R : Type}

/-- How many answers to the command were tried. -/
def Handled.responses (h : Handled R) : Nat :=
  h.calls.countP Call.isRespond

/-- The command does not answer by itself. -/
def Silent (act : Shared R -> Handled R) : Prop :=
  forall s, (act s).responses = 0

theorem done_silent : Silent (Shared.done : Shared R -> Handled R) :=
  fun _ => rfl

theorem portReset_silent (fw : Framework R) : Silent (portReset fw) := by
  intro s
  unfold portReset
  dsimp only
  split <;> split <;> rfl

theorem destroyDevice_silent (fw : Framework R) (address : UInt8) :
    Silent (destroyDevice fw address) := by
  intro s
  unfold destroyDevice
  dsimp only
  split <;> rfl

theorem endpointAction_silent (fw : Framework R) (msg : RawMessage) (kind : UInt32)
    (key : EndpointKey) : Silent (endpointAction fw msg kind key) := by
  intro s
  unfold endpointAction
  dsimp only
  repeat' split
  all_goals rfl

/-- A command that gets to `answer`, and returns, is answered once. -/
theorem answer_responses {fw : Framework R} {response : MessageStatus -> Response}
    {act : Shared R -> Handled R} (hact : Silent act) {s : Shared R}
    (hreturns : (answer fw response act s).result.isSome = true) :
    (answer fw response act s).responses = 1 := by
  unfold answer at hreturns ⊢
  cases hinspect : fw.inspect with
  | error text => rfl
  | ok =>
      simp only [hinspect] at hreturns ⊢
      cases hresult : (act s).result with
      | none =>
          simp only [hresult] at hreturns
          cases hreturns
      | some result =>
          have hnone := hact s
          simp only [Handled.responses] at hnone ⊢
          rw [List.countP_append, hnone]
          rfl

theorem andThen_responses {h : Handled R} {next : Shared R -> Handled R}
    (hnext : Silent next) : (h.andThen next).responses = h.responses := by
  unfold Handled.andThen
  split
  · have hnone := hnext h.shared
    simp only [Handled.responses] at hnone ⊢
    rw [List.countP_append, hnone, Nat.add_zero]
  · rfl

theorem andThen_returns {h : Handled R} {next : Shared R -> Handled R}
    (hreturns : (h.andThen next).result.isSome = true) : h.result.isSome = true := by
  unfold Handled.andThen at hreturns
  split at hreturns
  · rename_i hresult
    rw [hresult]
    rfl
  · exact hreturns

/-!
# Families of commands
-/

theorem frameNumber_responses {fw : Framework R} {s : Shared R}
    (hreturns : (frameNumber fw s).result.isSome = true) :
    (frameNumber fw s).responses = 1 := by
  unfold frameNumber at hreturns ⊢
  split
  · rename_i hnext
    simp only [hnext] at hreturns
    cases hreturns
  · rename_i hnext
    simp only [hnext] at hreturns
    exact answer_responses done_silent hreturns

theorem portCommand_responses {fw : Framework R} {kind : UInt32} {s : Shared R}
    (hreturns : (portCommand fw kind s).result.isSome = true) :
    (portCommand fw kind s).responses = if fw.port.isOk then 1 else 0 := by
  unfold portCommand at hreturns ⊢
  cases hport : fw.port with
  | error text => rfl
  | ok =>
      simp only [hport] at hreturns ⊢
      have hact : Silent (if kind = MessageType.portReset then portReset fw else Shared.done) := by
        split
        · exact portReset_silent fw
        · exact done_silent
      rw [andThen_responses]
      · exact answer_responses hact (andThen_returns hreturns)
      · intro s
        dsimp only
        split <;> rfl

theorem createDevice_responses (fw : Framework R) (s : Shared R) :
    (createDevice fw s).responses = if fw.createDevice.isOk then 1 else 0 := by
  unfold createDevice
  cases fw.createDevice with
  | error text => rfl
  | ok machine =>
      dsimp only
      split
      · rfl
      · split <;> rfl

theorem deviceCommand_responses {fw : Framework R} {kind : UInt32} {address : UInt8}
    {s : Shared R} (hreturns : (deviceCommand fw kind address s).result.isSome = true) :
    (deviceCommand fw kind address s).responses =
      if (s.devices.lookup address).isSome then 1 else 0 := by
  unfold deviceCommand at hreturns ⊢
  cases hlookup : s.devices.lookup address with
  | none => rfl
  | some machine =>
      simp only [hlookup] at hreturns ⊢
      refine answer_responses ?_ hreturns
      split
      · exact destroyDevice_silent fw address
      · split
        · exact fun _ => rfl
        · exact done_silent

theorem createEndpoint_responses (fw : Framework R) (msg : RawMessage) (s : Shared R) :
    (createEndpoint fw msg s).responses = if fw.createEndpoint.isOk then 1 else 0 := by
  unfold createEndpoint
  cases fw.createEndpoint with
  | error text => rfl
  | ok created =>
      dsimp only
      split <;> rfl

theorem endpointCommand_responses [Engine.Ring R] {fw : Framework R} {msg : RawMessage}
    {kind : UInt32} {key : EndpointKey} {s : Shared R}
    (hreturns : (endpointCommand fw msg kind key s).result.isSome = true) :
    (endpointCommand fw msg kind key s).responses =
      if (s.endpoints.lookup key).isSome then 1 else 0 := by
  unfold endpointCommand at hreturns ⊢
  cases hlookup : s.endpoints.lookup key with
  | none => rfl
  | some machine =>
      simp only [hlookup] at hreturns ⊢
      rw [andThen_responses]
      · exact answer_responses (endpointAction_silent fw msg kind key)
          (andThen_returns hreturns)
      · intro s
        dsimp only
        split <;> rfl

/-!
# All commands
-/

def addressed (fw : Framework R) (msg : RawMessage) (s : Shared R) : Bool :=
  let kind := msg.messageType
  if between MessageType.controllerPowerOn MessageType.controllerPause kind then
    true
  else if kind = MessageType.controllerFrameNumber then
    true
  else if between MessageType.portPowerOn MessageType.portStatus kind then
    fw.port.isOk
  else if kind = MessageType.deviceCreate then
    fw.createDevice.isOk
  else if between MessageType.deviceDestroy MessageType.deviceUpdate kind then
    (s.devices.lookup msg.deviceAddress).isSome
  else if kind = MessageType.endpointCreate then
    fw.createEndpoint.isOk
  else if between MessageType.endpointDestroy MessageType.endpointSetNextTransfer kind then
    (s.endpoints.lookup (msg.deviceAddress, msg.endpointAddress)).isSome
  else
    false

/-- If the command returns, it has been answered once or not at all. -/
def Answered (h : Handled R) (once : Bool) : Prop :=
  h.result.isSome = true -> h.responses = if once then 1 else 0

theorem Answered.ite {condition : Prop} [Decidable condition] {h h' : Handled R}
    {once once' : Bool} (hthen : Answered h once) (helse : Answered h' once') :
    Answered (if condition then h else h') (if condition then once else once') := by
  split
  · exact hthen
  · exact helse

theorem command_answered [Engine.Ring R] (fw : Framework R) (msg : RawMessage) (s : Shared R) :
    Answered (command fw msg s) (addressed fw msg s) := by
  unfold command addressed
  refine Answered.ite ?_ (Answered.ite ?_ (Answered.ite ?_ (Answered.ite ?_ (Answered.ite ?_
    (Answered.ite ?_ (Answered.ite ?_ ?_))))))
  · exact fun h => answer_responses done_silent h
  · exact fun h => frameNumber_responses h
  · exact fun h => portCommand_responses h
  · exact fun _ => createDevice_responses fw s
  · exact fun h => deviceCommand_responses h
  · exact fun _ => createEndpoint_responses fw msg s
  · exact fun h => endpointCommand_responses h
  · exact fun _ => rfl

/--
A command that returns is answered exactly once if its kind is supported and its
state machine is at hand, and only then.
-/
theorem command_answered_once_iff [Engine.Ring R] (fw : Framework R) (msg : RawMessage)
    (s : Shared R) (hreturns : (command fw msg s).result.isSome = true) :
    (command fw msg s).responses = 1 <-> addressed fw msg s = true := by
  rw [command_answered fw msg s hreturns]
  cases addressed fw msg s with
  | true => simp
  | false => simp

def workingFramework (machine : EndpointMachine) (ring : QueueRing) : Framework QueueRing where
  port := .ok ()
  createDevice := .ok { handle := 1 }
  createEndpoint := .ok (machine, ring)
  inspect := .ok ()
  respond := fun _ => .ok ()
  updateLinkState := .ok ()
  memory := fun _ => 0
  readings := [0]
  meanwhile := []
  order := id
  order_perm := fun _ => List.Perm.refl _

def sampleFramework : Framework QueueRing :=
  workingFramework { handle := 2, deviceAddress := 1, endpointAddress := 0x81 } (reads 1)

def sampleCommand (kind : UInt32) : RawMessage where
  control := kind
  data0 := 0x8101
  data1 := 0

def sampleStart : Shared QueueRing :=
  start sampleDevice [] 0 1 1

theorem command_answered_once_create :
    (command sampleFramework (sampleCommand MessageType.deviceCreate)
        sampleStart).responses = 1 := by
  have hiff := command_answered_once_iff sampleFramework
    (sampleCommand MessageType.deviceCreate) sampleStart (by decide +kernel)
  exact hiff.mpr (by decide +kernel)

/--
The host destroys a device, and then an endpoint that went with it. The second
command returns, but nobody has answered it.
-/
theorem endpoint_of_destroyed_device_unanswered :
    let s := run 8 sampleStart
      [HostOp.command sampleFramework (sampleCommand MessageType.deviceCreate),
        HostOp.command sampleFramework (sampleCommand MessageType.endpointCreate),
        HostOp.command sampleFramework (sampleCommand MessageType.deviceDestroy)]
    let h := command sampleFramework (sampleCommand MessageType.endpointDestroy) s
    s.engine.stuck = false ∧ h.result.isSome = true ∧ h.responses = 0 := by
  decide +kernel

end Host
end UsbIp
