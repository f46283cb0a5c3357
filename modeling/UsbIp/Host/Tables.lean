import UsbIp.Engine.Views
import UsbIp.Host.Answers

/-!
# The controller's tables

Four tables in two places tell of the same devices and endpoints: the address
pool, the state machines of devices and endpoints, and the engine's endpoints.
They are changed one after the other by commands that may fail in between.  After
every command they agree.
-/

namespace UsbIp
namespace Host

open Foundation
open Protocol
open Hci
open Engine (EndpointKey QueueRing Op)

variable {R : Type}

/-- The tables tell of the same devices and endpoints. -/
structure TablesAgree (s : Shared R) : Prop where
  addresses : forall a, s.addresses.marked a = true <-> a ∈ s.devices
  endpoints : forall k, k ∈ s.endpoints <-> k ∈ s.engine.endpoints

theorem start_tablesAgree (device : Client.ExportedDevice)
    (schedule : List (List Client.Step)) (epoch : UInt64) (numer denom : UInt32) :
    TablesAgree (start device schedule epoch numer denom : Shared R) where
  addresses := by simp [start]
  endpoints := by simp [start, Engine.start]

theorem TablesAgree.engine {s : Shared R} (h : TablesAgree s) {e : Engine R}
    (hkeys : forall k, k ∈ e.endpoints <-> k ∈ s.engine.endpoints) :
    TablesAgree { s with engine := e } where
  addresses := h.addresses
  endpoints := fun k => (h.endpoints k).trans (hkeys k).symm

/-!
# What the engine's operations do to its keys
-/

theorem mem_addEndpoint {e : Engine R} {key k : EndpointKey} {info : EndpointInfo} {ring : R} :
    k ∈ (e.addEndpoint key info ring).endpoints <-> k = key ∨ k ∈ e.endpoints := by
  rw [Engine.addEndpoint, (Engine.unlinkAll_with e _ _).core]
  exact Engine.mem_put

theorem mem_removeAll {e : Engine R} {keys : List EndpointKey} {k : EndpointKey} :
    k ∈ (e.removeAll keys).endpoints <-> k ∈ e.endpoints ∧ k ∉ keys := by
  rw [Engine.removeAll, (Engine.unlinkAll_with e _ _).core]
  exact Engine.mem_takeOutAll

theorem mem_removeDevice {e : Engine R} {device : UInt8} {keys : List EndpointKey}
    (hperm : keys.Perm (e.endpoints.keys.filter fun k => k.1 = device)) {k : EndpointKey} :
    k ∈ (e.removeDevice device keys).endpoints <-> k ∈ e.endpoints ∧ k.1 ≠ device := by
  have hkeys : k ∈ keys <-> k ∈ e.endpoints ∧ k.1 = device := by
    rw [hperm.mem_iff, List.mem_filter, decide_eq_true_eq, AList.mem_keys]
  rw [Engine.removeDevice, if_pos (List.isPerm_iff.mpr hperm), mem_removeAll, hkeys]
  constructor
  · intro h
    exact ⟨h.left, fun hdevice => h.right ⟨h.left, hdevice⟩⟩
  · intro h
    exact ⟨h.left, fun hboth => h.right hboth.right⟩

theorem resetDevice_endpoints (e : Engine R) (meanwhile : List Client.Step) :
    (resetDevice e meanwhile).1.endpoints = e.endpoints := by
  unfold resetDevice
  dsimp only
  split <;> rfl

theorem mem_pauseAll [Engine.Ring R] (e : Engine R) (keys : List EndpointKey) (k : EndpointKey) :
    k ∈ (keys.foldl Engine.pauseEndpoint e).endpoints <-> k ∈ e.endpoints := by
  apply invariant_of_step (I := fun e' : Engine R => k ∈ e'.endpoints <-> k ∈ e.endpoints)
  · intro e' key hsame
    have hkeeps : (Op.pauseEndpoint key : Op R).KeepsKeys := trivial
    have hpause : k ∈ (e'.perform 0 (Op.pauseEndpoint key)).endpoints <-> k ∈ e'.endpoints :=
      Engine.perform_mem_endpoints hkeeps k
    exact hpause.trans hsame
  · exact Iff.rfl

/-!
# Commands
-/

/-- The tables agree unless the command waits forever. -/
def Keeps (h : Handled R) : Prop :=
  h.shared.engine.stuck = false -> TablesAgree h.shared

theorem answer_keeps {fw : Framework R} {response : MessageStatus -> Response}
    {act : Shared R -> Handled R} {s : Shared R} (hs : TablesAgree s) (hact : Keeps (act s)) :
    Keeps (answer fw response act s) := by
  unfold answer
  cases fw.inspect with
  | error text => exact fun _ => hs
  | ok =>
      dsimp only
      cases hresult : (act s).result with
      | none => exact hact
      | some result => exact hact

theorem andThen_keeps {h : Handled R} {next : Shared R -> Handled R} (hh : Keeps h)
    (hnext : Keeps h -> Keeps (next h.shared)) : Keeps (h.andThen next) := by
  unfold Handled.andThen
  split
  · exact hnext hh
  · exact hh

theorem done_keeps {s : Shared R} (hs : TablesAgree s) : Keeps s.done :=
  fun _ => hs

theorem stuck_keeps {s : Shared R} (hstuck : s.engine.stuck = true) : Keeps s.done := by
  intro hrunning
  exact absurd (hrunning.symm.trans hstuck) Bool.false_ne_true

theorem fails_keeps {s : Shared R} (hs : TablesAgree s) (text : String) :
    Keeps (s.fails text) :=
  fun _ => hs

theorem frameNumber_keeps (fw : Framework R) {s : Shared R} (hs : TablesAgree s) :
    Keeps (frameNumber fw s) := by
  unfold frameNumber
  split
  · exact fun _ => hs
  · exact answer_keeps ⟨hs.addresses, hs.endpoints⟩ (done_keeps ⟨hs.addresses, hs.endpoints⟩)

theorem portReset_keeps (fw : Framework R) {s : Shared R} (hs : TablesAgree s) :
    Keeps (portReset fw s) := by
  have hreset : TablesAgree { s with engine := (resetDevice s.engine fw.meanwhile).1 } := by
    apply hs.engine
    intro k
    rw [resetDevice_endpoints]
  unfold portReset
  dsimp only
  split
  · split <;> exact fun _ => hreset
  · split <;> exact fun _ => hs

theorem portCommand_keeps (fw : Framework R) (kind : UInt32) {s : Shared R}
    (hs : TablesAgree s) : Keeps (portCommand fw kind s) := by
  unfold portCommand
  split
  · exact fails_keeps hs _
  · apply andThen_keeps
    · apply answer_keeps hs
      split
      · exact portReset_keeps fw hs
      · exact done_keeps hs
    · intro hh
      split
      · exact fun hstuck => ⟨(hh hstuck).addresses, (hh hstuck).endpoints⟩
      · exact hh

/-- The address is taken back if the answer fails. -/
theorem createDevice_keeps (fw : Framework R) {s : Shared R} (hs : TablesAgree s) :
    Keeps (createDevice fw s) := by
  unfold createDevice
  split
  · exact fails_keeps hs _
  · split
    · exact fun _ => hs
    · rename_i machine _ address addresses hallocate
      rcases AddressPool.allocate_some hallocate with ⟨hlowest, hmarked⟩
      dsimp only
      split
      · refine fun _ => ⟨?_, hs.endpoints⟩
        intro a
        rw [AddressPool.release_marked, hmarked, ← hs.addresses a]
        by_cases ha : a = address
        · rw [ha, hlowest.free]
          simp
        · simp [ha]
      · refine fun _ => ⟨?_, hs.endpoints⟩
        intro a
        rw [hmarked, Bool.or_eq_true, hs.addresses, decide_eq_true_eq, or_comm]
        exact (AList.mem_insert s.devices).symm

theorem destroyDevice_keeps (fw : Framework R) (address : UInt8) {s : Shared R}
    (hs : TablesAgree s) : Keeps (destroyDevice fw address s) := by
  unfold destroyDevice
  dsimp only
  split
  · rename_i hstuck
    exact stuck_keeps hstuck
  · refine fun _ => ⟨?_, ?_⟩
    · intro a
      rw [Shared.done, AddressPool.release_marked, Bool.and_eq_true, hs.addresses,
        decide_eq_true_eq, and_comm]
      exact AList.mem_erase.symm
    · intro k
      have htest : decide (k.1 ≠ address) = true <-> k.1 ≠ address := decide_eq_true_iff
      dsimp only [Shared.done]
      rw [mem_removeDevice (fw.order_perm _), ← hs.endpoints k, ← htest]
      exact Table.mem_retain_keys

theorem deviceCommand_keeps [Engine.Ring R] (fw : Framework R) (kind : UInt32) (address : UInt8)
    {s : Shared R} (hs : TablesAgree s) : Keeps (deviceCommand fw kind address s) := by
  unfold deviceCommand
  split
  · exact fails_keeps hs _
  · apply answer_keeps hs
    split
    · exact destroyDevice_keeps fw address hs
    · split
      · apply done_keeps
        exact hs.engine (mem_pauseAll s.engine _)
      · exact done_keeps hs

theorem createEndpoint_keeps (fw : Framework R) (msg : RawMessage) {s : Shared R}
    (hs : TablesAgree s) : Keeps (createEndpoint fw msg s) := by
  unfold createEndpoint
  split
  · exact fails_keeps hs _
  · dsimp only
    split
    · exact fun _ => hs
    · refine fun _ => ⟨hs.addresses, ?_⟩
      intro k
      dsimp only [Shared.done]
      rw [mem_addEndpoint, ← hs.endpoints k]
      exact AList.mem_insert s.endpoints

theorem TablesAgree.perform [Engine.Ring R] {s : Shared R} (hs : TablesAgree s) (op : Op R)
    (hop : op.KeepsKeys) (rounds : Nat) :
    TablesAgree { s with engine := s.engine.perform rounds op } :=
  hs.engine (Engine.perform_mem_endpoints hop)

theorem endpointAction_keeps [Engine.Ring R] (fw : Framework R) (msg : RawMessage) (kind : UInt32)
    (key : EndpointKey) {s : Shared R} (hs : TablesAgree s) :
    Keeps (endpointAction fw msg kind key s) := by
  have hkeeps : forall op : Op R, op.KeepsKeys ->
      Keeps (Shared.done { s with engine := s.engine.perform 0 op }) :=
    fun op hop => done_keeps (hs.perform op hop 0)
  unfold endpointAction
  dsimp only
  split
  · split
    · rename_i hstuck
      exact stuck_keeps hstuck
    · refine fun _ => ⟨hs.addresses, ?_⟩
      intro k
      dsimp only [Shared.done]
      rw [Engine.removeEndpoint, mem_removeAll, List.mem_singleton, ← hs.endpoints k, and_comm]
      exact AList.mem_erase
  · split
    · exact hkeeps (Op.pauseEndpoint key) trivial
    · split
      · exact hkeeps (Op.updateEndpoint key (endpointDescriptor fw msg)) trivial
      · split
        · exact hkeeps (Op.resetEndpoint key) trivial
        · exact done_keeps hs

theorem syncEndpoint_running [Engine.Ring R] {e : Engine R} {key : EndpointKey}
    (h : (e.syncEndpoint key).stuck = false) : e.stuck = false := by
  cases e.perform_outcome 0 (Op.syncEndpoint key) with
  | nothing hsame =>
      rw [← hsame]
      exact h
  | change hchange =>
      cases hchange with
      | synced _ _ _ hmoves => exact hmoves.not_stuck h
  | doorbell hop _ => cases hop
  | callback hop _ _ _ => cases hop

theorem endpointCommand_keeps [Engine.Ring R] (fw : Framework R) (msg : RawMessage) (kind : UInt32)
    (key : EndpointKey) {s : Shared R} (hs : TablesAgree s) :
    Keeps (endpointCommand fw msg kind key s) := by
  unfold endpointCommand
  split
  · exact fails_keeps hs _
  · apply andThen_keeps
    · exact answer_keeps hs (endpointAction_keeps fw msg kind key hs)
    · intro hh
      split
      · intro hrunning
        exact (hh (syncEndpoint_running hrunning)).perform (Op.syncEndpoint key) trivial 0
      · exact hh

theorem command_keeps [Engine.Ring R] (fw : Framework R) (msg : RawMessage) {s : Shared R}
    (hs : TablesAgree s) : Keeps (command fw msg s) := by
  have hite : forall (condition : Prop) [Decidable condition] (h h' : Handled R),
      Keeps h -> Keeps h' -> Keeps (if condition then h else h') := by
    intro condition _ h h' hthen helse
    split
    · exact hthen
    · exact helse
  unfold command
  refine hite _ _ _ ?_ (hite _ _ _ ?_ (hite _ _ _ ?_ (hite _ _ _ ?_ (hite _ _ _ ?_
    (hite _ _ _ ?_ (hite _ _ _ ?_ ?_))))))
  · exact answer_keeps hs (done_keeps hs)
  · exact frameNumber_keeps fw hs
  · exact portCommand_keeps fw _ hs
  · exact createDevice_keeps fw hs
  · exact deviceCommand_keeps fw _ _ hs
  · exact createEndpoint_keeps fw msg hs
  · exact endpointCommand_keeps fw msg _ _ hs
  · exact fun _ => hs

/-!
# Runs
-/

theorem perform_keeps [Engine.Ring R] (rounds : Nat) {s : Shared R} (hs : TablesAgree s)
    (op : HostOp R) (hrunning : (perform rounds s op).engine.stuck = false) :
    TablesAgree (perform rounds s op) := by
  cases op with
  | command fw msg => exact command_keeps fw msg hs hrunning
  | doorbell processed value =>
      unfold perform doorbell
      dsimp only
      split
      · exact hs.perform (Op.doorbell _) trivial rounds
      · exact hs
  | deliver reply => exact hs.perform (Op.deliver reply) trivial rounds
  | session st => exact hs.perform (Op.session st) trivial rounds
  | host key ring => exact hs.perform (Op.host key ring) trivial rounds

theorem run_tablesAgree [Engine.Ring R] (rounds : Nat) (device : Client.ExportedDevice)
    (schedule : List (List Client.Step)) (epoch : UInt64) (numer denom : UInt32)
    (ops : List (HostOp R))
    (hrunning : (run rounds (start device schedule epoch numer denom) ops).engine.stuck =
      false) :
    TablesAgree (run rounds (start device schedule epoch numer denom) ops) := by
  have hinvariant : (run rounds (start device schedule epoch numer denom) ops).engine.stuck =
      false -> TablesAgree (run rounds (start device schedule epoch numer denom) ops) := by
    apply invariant_of_step
      (I := fun s : Shared R => s.engine.stuck = false -> TablesAgree s)
    · intro s op hs
      unfold step
      split
      · exact hs
      · rename_i hstuck
        exact perform_keeps rounds (hs (Bool.eq_false_iff.mpr hstuck)) op
    · exact fun _ => start_tablesAgree device schedule epoch numer denom
  exact hinvariant hrunning

/-!
# New devices
-/

/-- The address is not that of a live device, and no lower one is free. -/
def LowestFree (s : Shared R) (address : UInt8) : Prop :=
  AddressPool.Lowest (fun a => a ∉ s.devices) address

inductive Creation (s : Shared R) (h : Handled R) : Prop where
  | impossible (hcalls : h.calls = []) (hdevices : h.shared.devices = s.devices)
  | refused (hcalls : h.calls = [Call.respond { status := MessageStatus.noResources }])
      (hdevices : h.shared.devices = s.devices)
      (hall : forall a, 1 ≤ a -> a ≤ 127 -> a ∈ s.devices)
  | failed {address : UInt8} (hlowest : LowestFree s address)
      (hcalls : h.calls =
        [Call.respond { status := MessageStatus.success, address := some address }])
      (hdevices : h.shared.devices = s.devices)
  | created {address : UInt8} {machine : DeviceMachine} (hlowest : LowestFree s address)
      (hcalls : h.calls =
        [Call.respond { status := MessageStatus.success, address := some address }])
      (hdevices : h.shared.devices = s.devices.insert address machine)

theorem createDevice_creation (fw : Framework R) {s : Shared R} (hs : TablesAgree s) :
    Creation s (createDevice fw s) := by
  have hfree : forall a, s.addresses.marked a = false <-> a ∉ s.devices := by
    intro a
    rw [← hs.addresses a, Bool.not_eq_true]
  unfold createDevice
  split
  · exact Creation.impossible rfl rfl
  · split
    · rename_i hallocate
      refine Creation.refused rfl rfl ?_
      intro a hlow hhigh
      exact (hs.addresses a).mp (AddressPool.allocate_none hallocate hlow hhigh)
    · rename_i machine _ address addresses hallocate
      have hlowest : LowestFree s address := by
        have hlow := (AddressPool.allocate_some hallocate).left
        exact ⟨hlow.low, hlow.high, (hfree address).mp hlow.free,
          fun a hpos ha => fun hnot => hlow.least a hpos ha ((hfree a).mpr hnot)⟩
      dsimp only
      split
      · exact Creation.failed hlowest rfl rfl
      · exact Creation.created hlowest rfl rfl

theorem command_creation [Engine.Ring R] (fw : Framework R) {msg : RawMessage} {s : Shared R}
    (hs : TablesAgree s) (hkind : msg.messageType = MessageType.deviceCreate) :
    Creation s (command fw msg s) := by
  have hcreate : command fw msg s = createDevice fw s := by
    unfold command
    rw [hkind]
    rfl
  rw [hcreate]
  exact createDevice_creation fw hs

/--
In every run, whatever the framework's calls return, the tables tell of the same
devices and endpoints. A new device gets the lowest address that no live device
has, and is refused for lack of addresses only if there is none.
-/
theorem controller_tables_agree [Engine.Ring R] (rounds : Nat) (device : Client.ExportedDevice)
    (schedule : List (List Client.Step)) (epoch : UInt64) (numer denom : UInt32)
    (ops : List (HostOp R))
    (hrunning : (run rounds (start device schedule epoch numer denom) ops).engine.stuck =
      false) :
    let s := run rounds (start device schedule epoch numer denom) ops
    (forall a, s.addresses.marked a = true <-> a ∈ s.devices) ∧
      (forall k, k ∈ s.endpoints <-> k ∈ s.engine.endpoints) ∧
      forall fw msg, msg.messageType = MessageType.deviceCreate ->
        Creation s (command fw msg s) := by
  intro s
  have hs := run_tablesAgree rounds device schedule epoch numer denom ops hrunning
  exact ⟨hs.addresses, hs.endpoints, fun fw msg hkind => command_creation fw hs hkind⟩

theorem controller_tables_agree_one_device :
    let ops :=
      [HostOp.command sampleFramework (sampleCommand MessageType.deviceCreate),
        HostOp.command sampleFramework (sampleCommand MessageType.endpointCreate)]
    let s := run 8 sampleStart ops
    1 ∈ s.devices ∧ s.addresses.marked 1 = true ∧ (1, 0x81) ∈ s.endpoints ∧
      (1, 0x81) ∈ s.engine.endpoints ∧
      Creation s (command sampleFramework (sampleCommand MessageType.deviceCreate) s) := by
  intro ops s
  have hs := controller_tables_agree 8 Engine.sampleDevice [] 0 1 1 ops (by decide +kernel)
  have hdevice : (1 : UInt8) ∈ s.devices := by decide +kernel
  have hendpoint : ((1, 0x81) : EndpointKey) ∈ s.endpoints := by decide +kernel
  exact ⟨hdevice, (hs.left 1).mpr hdevice, hendpoint, (hs.right.left _).mp hendpoint,
    hs.right.right sampleFramework (sampleCommand MessageType.deviceCreate) (by decide)⟩

end Host
end UsbIp
