import UsbIp.Link.Guarantees
import UsbIp.Link.Transfers

/-!
# What a host and a device can rely on

The results about every allowed run (`World.Run`) of an engine and a server:
between the rings of the host and the device there are an engine, its session,
two streams and a server, and tasks and threads that take their turns in any
order.  The host keeps to its policy, and outcomes fit, so none is a raw reply.
-/

namespace UsbIp
namespace Link

open Foundation
open Protocol
open Hci
open Client (Shared SubmitRequest Session ExportedDevice)
open Server (Urb Urbs Answer Outcome Connection urbOf attributesOf)
open Engine (EndpointKey InFlight Stage Submission Op FakeRing)

/-!
# A run
-/

def bringsNothing {R : Type} : Op R -> Bool
  | Op.addEndpoint _ _ _ => false
  | Op.updateEndpoint _ _ => false
  | Op.host _ _ => false
  | Op.session st => isOwn st && st.request?.isNone
  | _ => true

theorem bringsNothing_op {R : Type} [Engine.Ring R] {endpoints : List (UInt8 × UInt8)} {op : Op R}
    (h : bringsNothing op = true) : (hostPolicy endpoints).op op := by
  cases op with
  | addEndpoint key info ring => cases h
  | updateEndpoint key info => cases h
  | host key ring => cases h
  | session st =>
      rcases Bool.and_eq_true_iff.mp h with ⟨hown, hnone⟩
      refine ⟨hown, ?_⟩
      rintro req rfl
      cases hnone
  | _ => exact trivial

def World.Easy {R : Type} [Engine.Ring R] (rounds : Nat) (w : World R) : Act R -> Bool
  | Act.engine op => bringsNothing op &&
      decide ((ordersOf (Engine.step rounds w.engine op).session.shared).length + 1 <
        UInt32.size)
  | Act.server (Server.Step.finish address outcome) =>
      decide (outcomeFits w.server.urbs address outcome)
  | _ => true

theorem World.allowed_of_easy {R : Type} [Engine.Ring R] {rounds : Nat} {w : World R}
    {acts : List (Act R)} (h : Guarded (World.step rounds) (fun w a => w.Easy rounds a = true) w acts) :
    Guarded (World.step rounds) (World.Allowed rounds) w acts := by
  refine Guarded.weaken (I := fun _ => True) ?_ h trivial
  intro w a ha _
  refine ⟨?_, trivial⟩
  cases a with
  | engine op =>
      rcases Bool.and_eq_true_iff.mp ha with ⟨hop, hfew⟩
      exact ⟨bringsNothing_op hop, of_decide_eq_true hfew⟩
  | server st =>
      cases st with
      | finish address outcome =>
          have hfits : outcomeFits w.server.urbs address outcome := of_decide_eq_true ha
          exact hfits
      | _ => exact trivial
  | _ => exact trivial

def addReads : Act FakeRing :=
  Act.engine (Op.addEndpoint (1, 0x81) { kind := .bulk, maxPacketSize := 512, bInterval := 0 }
    { active := true, rejectCompletions := false,
      queue := [(Transfer.normal 2, [0, 0]), (Transfer.normal 2, [0, 0])], headId := 10 })

def sampleActs : List (Act FakeRing) :=
  [Act.engine (Op.doorbell (1, 0x81)), Act.engine (Op.session Client.Step.takeFrame),
    Act.engine (Op.session Client.Step.takeFrame),
    Act.engine (Op.session Client.Step.sealBatch),
    Act.engine (Op.session (Client.Step.writeBytes 96)), Act.toServer 50, Act.toServer 46,
    Act.server Server.Step.read, Act.server Server.Step.read, Act.server Server.Step.read,
    Act.server Server.Step.read,
    Act.server (Server.Step.finish 0x81 (Outcome.complete (Server.Completion.ok [7, 8]))),
    Act.server (Server.Step.finish 0x81 (Outcome.complete (Server.Completion.ok [9]))),
    Act.server Server.Step.write, Act.server Server.Step.write, Act.toClient 99,
    Act.engine (Op.session Client.Step.readHeader),
    Act.engine (Op.session Client.Step.readPayload),
    Act.engine (Op.session Client.Step.readHeader),
    Act.engine (Op.session Client.Step.readPayload), Act.engine (Op.deliver 1),
    Act.engine (Op.deliver 0)]

theorem addReads_allowed :
    (World.start sampleDevice sampleEndpoints [] : World FakeRing).Allowed 8 addReads := by
  have hattributes : attributesOf sampleEndpoints (addressOf (1, 0x81)) = some 2 := by decide
  refine ⟨⟨?_, Engine.FakeRing.follows ?_⟩, by decide +kernel⟩
  · intro attributes h
    cases hattributes.symm.trans h
    exact ⟨fun hiso => absurd hiso (by decide), fun hinterrupt => absurd hinterrupt (by decide)⟩
  · intro m hm ahead
    refine Or.inr ⟨?_, ?_⟩
    · revert hm
      revert m
      decide
    · intro attributes length h hiso
      cases hattributes.symm.trans h
      exact absurd hiso (by decide)

theorem sampleWorld :
    World.Run 8 sampleDevice sampleEndpoints [] (addReads :: sampleActs) where
  lists := by decide
  polite := by
    intro steps hsteps
    cases hsteps
  guarded := ⟨addReads_allowed, World.allowed_of_easy (by decide +kernel)⟩

variable {R : Type} [Engine.Ring R]

/-!
# The session in between
-/

/--
An engine does nothing to its session that a session could not be asked for: what
an engine and a server do in an allowed run is what a session and a server do, in
an allowed run of theirs.
-/
theorem engine_runs_are_session_runs (rounds : Nat) (device : ExportedDevice)
    (endpoints : List (UInt8 × UInt8)) (schedule : List (List Client.Step))
    (acts : List (Act R)) (h : World.Run rounds device endpoints schedule acts)
    (hdevnum : device.devnum.toNat < 65536) :
    exists steps, System.Run device endpoints steps ∧
      (World.after rounds device endpoints schedule acts).link =
        System.after device endpoints steps := by
  rcases h.session with ⟨steps, hsteps, hend⟩
  exact ⟨steps, run_of_few hdevnum hsteps, hend⟩

theorem engine_runs_are_session_runs_sample :
    exists steps, System.Run sampleDevice sampleEndpoints steps ∧
      (World.after 8 sampleDevice sampleEndpoints [] (addReads :: sampleActs)).link =
        System.after sampleDevice sampleEndpoints steps :=
  engine_runs_are_session_runs 8 sampleDevice sampleEndpoints [] (addReads :: sampleActs)
    sampleWorld (by decide)

/--
A host that describes periodic endpoints as the device does, and whose messages
are no longer than a server takes, never gives the server a reason to complain,
nor, as long as outcomes fit, the session one to close.
-/
theorem host_gives_no_offence (rounds : Nat) (device : ExportedDevice)
    (endpoints : List (UInt8 × UInt8)) (schedule : List (List Client.Step))
    (acts : List (Act R)) (h : World.Run rounds device endpoints schedule acts)
    (hdevnum : device.devnum.toNat < 65536) :
    (World.after rounds device endpoints schedule acts).server.violations = [] ∧
      forall reason,
        (World.after rounds device endpoints schedule acts).engine.session.shared.state.closed =
          some reason ->
        Benign reason := by
  rcases h.session with ⟨steps, hsteps, hend⟩
  have hsync := (run_of_few hdevnum hsteps).sync hdevnum
  rw [← hend] at hsync
  exact ⟨hsync.clean, hsync.closed⟩

theorem host_gives_no_offence_sample :
    (World.after 8 sampleDevice sampleEndpoints []
        (addReads :: sampleActs)).server.violations = [] ∧
      forall reason,
        (World.after 8 sampleDevice sampleEndpoints []
          (addReads :: sampleActs)).engine.session.shared.state.closed = some reason ->
        Benign reason :=
  host_gives_no_offence 8 sampleDevice sampleEndpoints [] (addReads :: sampleActs)
    sampleWorld (by decide)

/-!
# The device behind it
-/

theorem World.Run.delivered {rounds : Nat} {device : ExportedDevice}
    {endpoints : List (UInt8 × UInt8)} {schedule : List (List Client.Step)}
    {acts : List (Act R)} (h : World.Run rounds device endpoints schedule acts)
    (hdevnum : device.devnum.toNat < 65536) :
    (World.after rounds device endpoints schedule acts).link.dialogue.Delivered := by
  rcases h.session with ⟨steps, hsteps, hend⟩
  rw [hend]
  exact (run_of_few hdevnum hsteps).delivered hdevnum

/--
What a message that stands for data gets in an allowed run is what has become of
the URB built from it: it was the head of the ring, the device was asked for what the message
says, and the host sees what the device came to, byte for byte, or nothing at all
because the server has cancelled the URB or the session is over.
-/
theorem messages_get_their_transfers (rounds : Nat) (device : ExportedDevice)
    (endpoints : List (UInt8 × UInt8)) (schedule : List (List Client.Step))
    (acts : List (Act R)) (h : World.Run rounds device endpoints schedule acts)
    (hdevnum : device.devnum.toNat < 65536) (c : Engine.Completion R) (f : InFlight)
    (hcompleted : Engine.Event.completed c ∈
      (World.after rounds device endpoints schedule acts).engine.log)
    (horigin : c.origin = some f) (hdata : f.stage.IsData) :
    exists s, Engine.Event.submitted s ∈
        (World.after rounds device endpoints schedule acts).engine.log ∧
      s.key = c.key ∧ s.flight.token = f.token ∧ s.Built ∧
      (Engine.Ring.current c.ring).1 = s.flight.message ∧ Requested s ∧
      Concluded (World.after rounds device endpoints schedule acts) c s := by
  have hrelay := World.relaying rounds device endpoints schedule acts
  rcases hrelay.completion hcompleted horigin with ⟨s, result, hfrom⟩
  have hstage : s.flight.stage.IsData := hfrom.same.stage ▸ hdata
  exact ⟨s, hfrom.submitted, hfrom.key, hfrom.same.token.symm, hfrom.built, hfrom.head,
    Requested.of_asked hfrom.asked hstage,
    World.concluded (h.delivered hdevnum) hfrom hdata⟩

theorem messages_get_their_transfers_sample :
    exists c f s, Engine.Event.completed c ∈
        (World.after 8 sampleDevice sampleEndpoints [] (addReads :: sampleActs)).engine.log ∧
      c.origin = some f ∧ Engine.Event.submitted s ∈
        (World.after 8 sampleDevice sampleEndpoints [] (addReads :: sampleActs)).engine.log ∧
      s.key = c.key ∧ s.flight.token = f.token ∧ s.Built ∧
      (Engine.Ring.current c.ring).1 = s.flight.message ∧ Requested s ∧
      Concluded (World.after 8 sampleDevice sampleEndpoints [] (addReads :: sampleActs)) c s := by
  generalize hw : World.after 8 sampleDevice sampleEndpoints [] (addReads :: sampleActs) = w
  have hlast : ((w.engine.log.head?.bind Engine.Event.origin?).filter fun f =>
      f.stage = Stage.normal).isSome = true := by
    rw [← hw]
    decide +kernel
  rcases Option.isSome_iff_exists.mp hlast with ⟨f, hf⟩
  rcases Option.filter_eq_some_iff.mp hf with ⟨hbind, hstage⟩
  rcases Option.bind_eq_some_iff.mp hbind with ⟨ev, hev, horigin⟩
  cases ev with
  | completed c =>
      have hcompleted := List.mem_of_head? hev
      rw [← hw] at hcompleted
      rcases messages_get_their_transfers 8 sampleDevice sampleEndpoints []
          (addReads :: sampleActs) sampleWorld (by decide) c f hcompleted horigin
          (Or.inl (of_decide_eq_true hstage)) with ⟨s, hs⟩
      rw [hw] at hs hcompleted
      exact ⟨c, f, s, hcompleted, horigin, hs⟩
  | _ => cases horigin

/--
In an allowed run the messages of a data endpoint get the replies of the device in
the order in which the device has given them, none of them twice, whatever order
the replies are handed on in.
-/
theorem results_in_order (rounds : Nat) (device : ExportedDevice)
    (endpoints : List (UInt8 × UInt8)) (schedule : List (List Client.Step))
    (acts : List (Act R)) (h : World.Run rounds device endpoints schedule acts)
    (hdevnum : device.devnum.toNat < 65536) (key : EndpointKey)
    (hkey : Engine.isControl key = false) :
    (received (World.after rounds device endpoints schedule acts).engine key).Sublist
      (given (World.after rounds device endpoints schedule acts).server.urbs
        (addressOf key)) :=
  World.received_in_order (World.relaying rounds device endpoints schedule acts)
    (h.delivered hdevnum) hkey

theorem results_in_order_sample :
    (received (World.after 8 sampleDevice sampleEndpoints []
        (addReads :: sampleActs)).engine (1, 0x81)).Sublist
      (given (World.after 8 sampleDevice sampleEndpoints []
        (addReads :: sampleActs)).server.urbs 0x81) :=
  results_in_order 8 sampleDevice sampleEndpoints [] (addReads :: sampleActs) sampleWorld
    (by decide) (1, 0x81) (by decide)

end Link
end UsbIp
