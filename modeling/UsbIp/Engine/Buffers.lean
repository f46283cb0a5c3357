import UsbIp.Client.Buffers
import UsbIp.Engine.Conduct
import UsbIp.Engine.Lengths

/-!
# From ring messages to buffers

The length of a ring message becomes the length of a request, and that is all that
bounds the buffer for the reply.  A message on a control endpoint is cut to the
`wLength` of its setup packet, and nothing is buffered for an OUT endpoint; the length
of any other message reaches the reader as it is.  As long as no ring shows a message
that is too long, and nobody else submits such a transfer, every buffer of the session
is within the bound, at every moment of every run.
-/

namespace UsbIp
namespace Engine

open Foundation
open Protocol
open Hci
open Client (SubmitRequest TransferResult Session)
open Relation (ReflTransGen)

variable {R : Type} [Ring R]

/-!
# Single messages
-/

def MessageWithin (key : EndpointKey) (ahead : Nat) (transfer : Transfer) : Prop :=
  ahead = 0 ∧ isControl key = true ∨
    Client.Within (Direction.ofEndpoint key.2) transfer.length

theorem dataRequest_asked {speed : Speed} {ep : Endpoint R} {key : EndpointKey}
    {ahead : Nat} {transfer : Transfer} {req : SubmitRequest} {stage : Stage}
    (h : dataRequest speed ep key ahead transfer = some (req, stage)) :
    req.direction = Direction.ofEndpoint key.2 ∧ req.length = transfer.length := by
  cases transfer with
  | normal length =>
      cases h
      dsimp only
      split <;> exact ⟨rfl, rfl⟩
  | isochronous length frame =>
      cases h
      cases frame with
      | none =>
          dsimp only
          split <;> exact ⟨rfl, rfl⟩
      | some frame =>
          dsimp only
          split <;> exact ⟨rfl, rfl⟩
  | setup bytes => cases h
  | status => cases h
  | link needsResponse => cases h
  | other type => cases h

theorem dataRequest_within_iff {speed : Speed} {ep : Endpoint R} {key : EndpointKey}
    {ahead : Nat} (hahead : 0 < ahead) {transfer : Transfer} {req : SubmitRequest}
    {stage : Stage} (h : dataRequest speed ep key ahead transfer = some (req, stage)) :
    req.Within <-> MessageWithin key ahead transfer := by
  rcases dataRequest_asked h with ⟨hdirection, hlength⟩
  unfold SubmitRequest.Within MessageWithin
  rw [hdirection, hlength]
  constructor
  · exact Or.inr
  · rintro (⟨hzero, _⟩ | hwithin)
    · exact absurd hzero (Nat.ne_of_gt hahead)
    · exact hwithin

theorem controlRequest_within (ep : Endpoint R) (bytes : Vector UInt8 8) {length : UInt32}
    (h : length.toNat ≤ 65535) : (controlRequest ep bytes length).Within := by
  apply Or.inr
  rw [controlRequest_length, UInt32.le_iff_toNat_le]
  exact Nat.le_trans h (by decide)

theorem Asks.within_iff {speed : Speed} {key : EndpointKey} {ep : Endpoint R}
    {transfer : Transfer} {req : SubmitRequest} {stage : Stage}
    (h : Asks speed key ep transfer req stage) :
    req.Within <-> MessageWithin key 0 transfer := by
  cases h with
  | @controlData length bytes hcontrol hsetup =>
      exact iff_of_true (controlRequest_within ep bytes (min_wLength_le length bytes))
        (Or.inl ⟨rfl, hcontrol⟩)
  | controlStatus hcontrol hsetup =>
      exact iff_of_true (controlRequest_within ep _ (Nat.zero_le _)) (Or.inl ⟨rfl, hcontrol⟩)
  | transfer hcontrol hreq =>
      rcases dataRequest_asked hreq with ⟨hdirection, hlength⟩
      unfold SubmitRequest.Within MessageWithin
      rw [hdirection, hlength, hcontrol]
      constructor
      · exact Or.inr
      · rintro (⟨_, hcontrol⟩ | hwithin)
        · cases hcontrol
        · exact hwithin

/-!
# Runs
-/

/-- Nobody submits, and no ring shows, what is beyond the bound. -/
def boundPolicy : Policy where
  step := Client.Step.Within
  message := MessageWithin
  info := fun _ _ => True

theorem boundPolicy_sound : boundPolicy.Sound R where
  unlink := by
    intro n req hreq
    cases hreq
  head := by
    intro speed key ep transfer req stage _ hasks hmessage req' hreq'
    cases hreq'
    exact hasks.within_iff.mpr hmessage
  ahead := by
    intro speed key ep ahead transfer req stage _ hahead hrequest hmessage req' hreq'
    cases hreq'
    exact (dataRequest_within_iff hahead hrequest).mpr hmessage

def Op.Within (op : Op R) : Prop :=
  boundPolicy.op op

/--
The buffers of the replies to an accepted transfer are within the bound, whatever the
server sends, exactly if the transfer is an OUT transfer or itself within the bound.
For one that comes from a ring message this depends on the message: it may be longer
only on an OUT endpoint or at the head of a control endpoint.  In a run without any
that is longer, the session has only ever been in states in which no reply gets a larger
buffer.
-/
theorem reply_buffers_within :
    (forall (s s' : Client.Shared) (req : SubmitRequest) (n : UInt32) (reply : Nat),
      s.submit req = some (.ok (n, reply), s') -> (s'.BuffersWithin n <-> req.Within)) ∧
    (forall (speed : Speed) (key : EndpointKey) (ep : Endpoint R) (transfer : Transfer)
      (req : SubmitRequest) (stage : Stage) (s s' : Client.Shared) (n : UInt32) (reply : Nat),
      Asks speed key ep transfer req stage -> s.submit req = some (.ok (n, reply), s') ->
      (s'.BuffersWithin n <-> MessageWithin key 0 transfer)) ∧
    (forall (speed : Speed) (key : EndpointKey) (ep : Endpoint R) (ahead : Nat)
      (transfer : Transfer) (req : SubmitRequest) (stage : Stage) (s s' : Client.Shared)
      (n : UInt32) (reply : Nat), 0 < ahead ->
      dataRequest speed ep key ahead transfer = some (req, stage) ->
      s.submit req = some (.ok (n, reply), s') ->
      (s'.BuffersWithin n <-> MessageWithin key ahead transfer)) ∧
    (forall (rounds : Nat) (device : Client.ExportedDevice)
      (schedule : List (List Client.Step)) (ops : List (Op R)),
      (forall steps, steps ∈ schedule -> forall st, st ∈ steps -> Client.Step.Within st) ->
      (forall op, op ∈ ops -> op.Within) ->
      exists steps,
        (run rounds (start device schedule : Engine R) ops).session =
          List.foldl Session.step (Session.start device) steps ∧
        forall front back, steps = front ++ back ->
          (List.foldl Session.step (Session.start device) front).BuffersWithin) := by
  refine ⟨?_, ?_, ?_, ?_⟩
  · intro s s' req n reply hsubmit
    exact Client.Shared.buffersWithin_iff hsubmit
  · intro speed key ep transfer req stage s s' n reply hasks hsubmit
    exact (Client.Shared.buffersWithin_iff hsubmit).trans hasks.within_iff
  · intro speed key ep ahead transfer req stage s s' n reply hahead hreq hsubmit
    exact (Client.Shared.buffersWithin_iff hsubmit).trans (dataRequest_within_iff hahead hreq)
  · intro rounds device schedule ops hschedule hops
    rcases (boundPolicy_sound.run_keeps rounds device hschedule hops).driven with
      ⟨steps, hsession, hsteps⟩
    refine ⟨steps, hsession, ?_⟩
    intro front back hsplit
    apply Session.run_buffersWithin
    intro st hst
    apply hsteps
    rw [hsplit]
    exact List.mem_append_left back hst

/-!
# Concrete runs
-/

def fakeRead (length : UInt32) : FakeRing where
  active := true
  rejectCompletions := false
  queue := [(Transfer.normal length, [])]
  headId := 0

def announced (length : UInt32) : List (Op FakeRing) :=
  [Op.addEndpoint (1, 0x81) { kind := .bulk, maxPacketSize := 512, bInterval := 0 }
      (fakeRead length),
    Op.doorbell (1, 0x81),
    Op.session (Client.Step.receive (Client.fullReply 1 length).header),
    Op.session Client.Step.readHeader]

/-- A read of one byte more than the bound gets a buffer of that size. -/
theorem long_read_buffer :
    ¬ forall ops : List (Op FakeRing),
      (run 2 (start sampleDevice []) ops).session.BuffersWithin := by
  intro h
  have hreader : (run 2 (start sampleDevice []) (announced 16777217)).session.reader =
      Client.ReaderPhase.payload (Client.fullReply 1 16777217).ret.submitHeader
        Direction.in 16777217 := by
    decide +kernel
  have hbuffer := (h (announced 16777217)).payload _ _ _ hreader []
  rw [Client.replyBuffer_full] at hbuffer
  exact absurd hbuffer (by decide)

theorem reply_buffers_within_of_read :
    exists steps, (run 2 (start sampleDevice []) (announced 16777216)).session =
        List.foldl Session.step (Session.start sampleDevice) steps ∧
      forall front back, steps = front ++ back ->
        (List.foldl Session.step (Session.start sampleDevice) front).BuffersWithin := by
  apply (reply_buffers_within (R := FakeRing)).right.right.right
  · intro steps hsteps
    cases hsteps
  · intro op hop
    simp only [announced, List.mem_cons, List.not_mem_nil, or_false] at hop
    rcases hop with rfl | rfl | rfl | rfl
    · refine ⟨trivial, FakeRing.follows ?_⟩
      intro m hm ahead
      rw [List.mem_singleton.mp hm]
      exact Or.inr (by decide)
    · trivial
    · intro req hreq
      cases hreq
    · intro req hreq
      cases hreq

end Engine
end UsbIp
