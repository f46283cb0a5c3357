import UsbIp.Engine.Lengths
import UsbIp.Engine.Orphans
import UsbIp.Hci.Bounds
import UsbIp.Protocol.Bounds

/-!
# Faults

`apply` once more, with everything checked that it computes from what the server
sent: the negation of a status, the casts, the slices of a configuration.  The
engine never asks for more than 65535 bytes in a control transfer, so only the
negation can go wrong, and it does for one status.
-/

namespace UsbIp
namespace Engine

open Foundation
open Protocol
open Hci
open Client (SubmitRequest TransferResult)

variable {R : Type}

namespace Checked

def fromUrbStatus (status : Int32) : Option Status := do
  let _ ← neg32 status
  return Status.fromUrbStatus status

def statusAndActual (f : InFlight) (ret : RetSubmit) : Option (Status × UInt32) :=
  match f.stage, ret.isoPackets.head? with
  | .isochronous, some p => do
      let status ← fromUrbStatus p.status
      return (status, p.actualLength)
  | _, _ => do
      let status ← fromUrbStatus ret.status
      return (status, ret.actualLength)

def outcome (f : InFlight) : TransferResult -> Option (Status × Bytes × UInt32)
  | .ok ret => do
      let (status, actual) ← statusAndActual f ret
      let length := min actual f.length
      let n ← usize length.toNat
      return (status, ret.data.take n, length)
  | .error e => return (errorStatus e, [], 0)

/-- The remembered total replaces the original one in a read too short to filter. -/
def patchTotal (data : Bytes) (original hidden : UInt16) : Option Bytes :=
  if 4 ≤ data.length then do
    let field ← slice data 2 4
    if field = leBytes16 original then
      Hci.Checked.setTotalLength data hidden
    else
      return data
  else
    return data

def hideConfig (ep : Endpoint R) (data : Bytes) : Option (Bytes × Endpoint R × Bool) := do
  let (data, totals) ← Hci.Checked.hideUas data
  match totals with
  | some totals => return (data, { ep with hiddenConfig := some totals }, true)
  | none =>
      match ep.hiddenConfig with
      | some (original, hidden) => do
          let data ← patchTotal data original hidden
          return (data, ep, false)
      | none => return (data, ep, false)

def applyStage (ep : Endpoint R) (stage : Stage) (data : Bytes) (length : UInt32) :
    Option (Endpoint R × Bytes × UInt32 × Bool) :=
  match stage with
  | .controlData =>
      let setup := ep.setup.map fun s => { s with dataDone := true }
      let ep := { ep with setup := setup }
      if setup.any Setup.isGetConfiguration then do
        let (data, ep, hidden) ← hideConfig ep data
        let n ← fit UInt32.size data.length
        return (ep, data, min length (UInt32.ofNat n), hidden)
      else
        return (ep, data, length, false)
  | .controlStatus => return ({ ep with setup := none }, data, length, false)
  | .normal | .isochronous => return (ep, data, length, false)

def apply [Ring R] (e : Engine R) (key : EndpointKey) (ep : Endpoint R)
    (flight : InFlight) (result : TransferResult) : Option (Engine R × Flow) := do
  let (status, data, length) ← outcome flight result
  let data := if flight.direction = Direction.in then data else []
  let (ep, data, length, hidden) ← applyStage ep flight.stage data length
  let e := { e with uasWarned := e.uasWarned || hidden }
  match e.complete key ep (some flight) status data length with
  | (e, false) => return (e, Flow.stop)
  | (e, true) =>
      return (e, if status = Status.offline then Flow.offline else Flow.continue)

end Checked

/-- The status that `apply` negates. -/
def InFlight.urbStatus (f : InFlight) : TransferResult -> Option Int32
  | .ok ret =>
      match f.stage, ret.isoPackets.head? with
      | .isochronous, some p => some p.status
      | _, _ => some ret.status
  | .error _ => none

/-!
# When `apply` does not panic
-/

namespace Checked

theorem fromUrbStatus_eq {status : Int32} (h : status ≠ Int32.minValue) :
    fromUrbStatus status = some (Status.fromUrbStatus status) := by
  rw [fromUrbStatus, neg32, if_neg h]
  rfl

theorem outcome_eq {f : InFlight} {result : TransferResult}
    (h : f.urbStatus result ≠ some Int32.minValue) :
    outcome f result = some (f.outcome result) := by
  cases result with
  | error e => rfl
  | ok ret =>
      have hsize : forall x : UInt32, usize x.toNat = some x.toNat := fun x =>
        usize_of_lt x.toNat_lt
      unfold InFlight.urbStatus at h
      unfold outcome statusAndActual InFlight.outcome
      cases hstage : f.stage <;> cases hpacket : ret.isoPackets.head? <;>
        simp only [hstage, hpacket, ne_eq, Option.some.injEq] at h ⊢ <;>
        simp only [fromUrbStatus_eq h, Option.bind_eq_bind, Option.bind_some, Option.pure_def,
          hsize]

theorem outcome_none {f : InFlight} {result : TransferResult}
    (h : f.urbStatus result = some Int32.minValue) : outcome f result = none := by
  have hmin : fromUrbStatus Int32.minValue = none := rfl
  cases result with
  | error e => cases h
  | ok ret =>
      unfold InFlight.urbStatus at h
      unfold outcome statusAndActual
      cases hstage : f.stage <;> cases hpacket : ret.isoPackets.head? <;>
        simp only [hstage, hpacket, Option.some.injEq] at h ⊢ <;>
        simp only [h, hmin, Option.bind_eq_bind, Option.bind_none]

theorem patchTotal_eq (data : Bytes) (original hidden : UInt16) :
    patchTotal data original hidden =
      some (if 4 ≤ data.length ∧ (data.drop 2).take 2 = leBytes16 original then
        setTotalLength data hidden else data) := by
  unfold patchTotal
  by_cases hlong : 4 ≤ data.length
  · rw [if_pos hlong, slice_of_le (by decide) hlong]
    simp only [Option.bind_eq_bind, Option.bind_some]
    by_cases hfield : (data.drop 2).take 2 = leBytes16 original
    · rw [if_pos hfield, if_pos ⟨hlong, hfield⟩, Hci.Checked.setTotalLength,
        slice_of_le (by decide) hlong]
      rfl
    · rw [if_neg hfield, if_neg fun h => hfield h.right]
      rfl
  · rw [if_neg hlong, if_neg fun h => hlong h.left]
    rfl

theorem hideConfig_eq (ep : Endpoint R) {data : Bytes} (h : data.length ≤ 65535) :
    hideConfig ep data = some (Engine.hideConfig ep data) := by
  unfold hideConfig Engine.hideConfig
  rw [Hci.Checked.hideUas_eq h]
  simp only [Option.bind_eq_bind, Option.bind_some]
  cases hideUas data with
  | mk out totals =>
      cases totals with
      | some totals => rfl
      | none =>
          cases ep.hiddenConfig with
          | none => rfl
          | some pair =>
              simp only [patchTotal_eq, Option.bind_some]
              split <;> rfl

theorem applyStage_eq (ep : Endpoint R) {stage : Stage} {data : Bytes} (length : UInt32)
    (h : stage = Stage.controlData -> data.length ≤ 65535) :
    applyStage ep stage data length = some (Engine.applyStage ep stage data length) := by
  cases stage with
  | controlData =>
      unfold applyStage Engine.applyStage
      dsimp only
      split
      · have hle := hideConfig_length_le
          { ep with setup := ep.setup.map fun s => { s with dataDone := true } } data
        rw [hideConfig_eq _ (h rfl)]
        cases hfound : Engine.hideConfig
            { ep with setup := ep.setup.map fun s => { s with dataDone := true } } data with
        | mk out found =>
            rcases found with ⟨ep', hidden⟩
            rw [hfound] at hle
            have hfit : fit UInt32.size out.length = some out.length :=
              fit_of_lt (Nat.lt_of_le_of_lt (Nat.le_trans hle (h rfl)) (by decide))
            simp only [Option.bind_eq_bind, Option.bind_some, hfit]
            rfl
      · rfl
  | controlStatus => rfl
  | normal => rfl
  | isochronous => rfl

theorem outcome_data_le (f : InFlight) (result : TransferResult) :
    (f.outcome result).2.1.length ≤ f.length.toNat := by
  cases result with
  | error e => exact Nat.zero_le _
  | ok ret =>
      rw [outcome_ok, List.length_take]
      exact Nat.le_trans (Nat.min_le_left _ _)
        (UInt32.le_iff_toNat_le.mp (outcome_within f ret))

variable [Ring R]

theorem apply_eq_iff (e : Engine R) (key : EndpointKey) (ep : Endpoint R) {f : InFlight}
    (hlength : f.stage = Stage.controlData -> f.length.toNat ≤ 65535)
    (result : TransferResult) :
    apply e key ep f result = some (e.apply key ep f result) <->
      f.urbStatus result ≠ some Int32.minValue := by
  constructor
  · intro h hmin
    rw [apply, outcome_none hmin] at h
    cases h
  · intro hstatus
    have hdata : f.stage = Stage.controlData ->
        (if f.direction = Direction.in then (f.outcome result).2.1 else []).length ≤
          65535 := by
      intro hstage
      split
      · exact Nat.le_trans (outcome_data_le f result) (hlength hstage)
      · exact Nat.zero_le _
    unfold apply Engine.apply
    rw [outcome_eq hstatus]
    simp only [Option.bind_eq_bind, Option.bind_some]
    rw [applyStage_eq ep _ hdata]
    simp only [Option.bind_some]
    generalize Engine.complete (R := R) _ key _ (some f) _ _ _ = done
    rcases done with ⟨e', accepted⟩
    cases accepted <;> rfl

end Checked

/-!
# What the engine asks for
-/

variable [Ring R]

/-- What holds of every URB that the pump may submit holds of all submissions of a run. -/
theorem run_submissions {P : Submission R -> Prop}
    (hpush : forall (speed : Speed) key (ep : Endpoint R) message req stage token seqnum
      reply devid, Target speed key ep message req stage ->
        P { key, ahead := ep.inFlight.length, ring := ep.ring,
            flight := newFlight token message req stage seqnum, reply,
            cmd := req.command seqnum devid })
    (rounds : Nat) (device : Client.ExportedDevice) (schedule : List (List Client.Step))
    (ops : List (Op R)) :
    forall s, Event.submitted s ∈ (run rounds (start device schedule) ops).log -> P s := by
  refine run_invariant (I := fun e : Engine R => forall s, Event.submitted s ∈ e.log -> P s)
    (fun _ _ _ hchange hall s hs => hall s (hchange.ofPump rfl hs)) ?_ rounds ops
    (fun s hs => by cases hs)
  intro key e e' haction hall
  have hold : forall {c : Core R} {flights : List InFlight}, Moves e e' c flights ->
      (forall s, Event.submitted s ∈ c.log -> Event.submitted s ∈ e.log) ->
      forall s, Event.submitted s ∈ e'.log -> P s := by
    intro c flights hmoves hlog s hs
    rw [← hmoves.log] at hs
    exact hall s (hlog s hs)
  cases haction with
  | idle h => exact hold h fun _ hs => hs
  | stale _ _ _ _ h => exact hold h fun _ hs => List.mem_of_ne_of_mem (by simp) hs
  | applied _ _ _ _ _ _ h => exact hold h fun _ hs => List.mem_of_ne_of_mem (by simp) hs
  | settled _ _ _ _ _ h => exact hold h fun _ hs => List.mem_of_ne_of_mem (by simp) hs
  | submitted _ htarget _ _ _ h =>
      intro s hs
      rw [← h.log] at hs
      rcases List.mem_cons.mp hs with hnew | hs
      · cases hnew
        exact hpush _ _ _ _ _ _ _ _ _ _ htarget
      · exact hall s hs
  | refused _ _ _ _ _ _ h => exact hold h fun _ hs => List.mem_of_ne_of_mem (by simp) hs

theorem Target.control_length {speed : Speed} {key : EndpointKey} {ep : Endpoint R}
    {message : UInt64} {req : SubmitRequest} {stage : Stage}
    (h : Target speed key ep message req stage) (hstage : stage = Stage.controlData) :
    req.length.toNat ≤ 65535 := by
  subst hstage
  have hdata : forall ahead transfer,
      dataRequest speed ep key ahead transfer = some (req, Stage.controlData) -> False := by
    intro ahead transfer hreq
    cases transfer <;> simp [dataRequest] at hreq
  cases h with
  | ahead _ _ _ _ hreq => exact (hdata _ _ hreq).elim
  | head _ _ _ hasks =>
      cases hasks with
      | transfer _ hreq => exact (hdata _ _ hreq).elim
      | @controlData length bytes _ _ =>
          rw [controlRequest_length]
          exact min_wLength_le length bytes

/--
Whatever a server sends and whatever is outstanding: reading a reply does not
panic; and where a run completes a message with a URB result, `apply` does not
panic exactly if the status it negates is not the smallest one there is.
-/
theorem replies_fault_iff (rounds : Nat) (device : Client.ExportedDevice)
    (schedule : List (List Client.Step)) (ops : List (Op R)) (c : Completion R)
    (f : InFlight)
    (hcompleted : Event.completed c ∈ (run rounds (start device schedule) ops).log)
    (horigin : c.origin = some f) :
    (forall bytes, Protocol.Checked.readReplyHeader bytes = some (readReplyHeader bytes)) ∧
      (forall bytes header expected length,
        Protocol.Checked.readSubmitPayload bytes header expected length =
          some (readSubmitPayload bytes header expected length)) ∧
      exists result, f.result = some result ∧
        forall (e : Engine R) (ep : Endpoint R),
          Checked.apply e c.key ep f result = some (e.apply c.key ep f result) <->
            f.urbStatus result ≠ some Int32.minValue := by
  refine ⟨Protocol.Checked.readReplyHeader_eq, Protocol.Checked.readSubmitPayload_eq, ?_⟩
  rcases List.append_of_mem hcompleted with ⟨newer, older, hlog⟩
  have hrightful : c.Rightful f older :=
    (run_tokensOk rounds device schedule ops).completed_rightful.at hlog c f rfl horigin
  rcases hrightful.result with ⟨result, hresult, _⟩
  rcases hrightful.submission with ⟨s, _, hsame, _, hsince⟩
  rcases hsince.exists with ⟨ev, hmem, rfl⟩
  have hsubmitted : Event.submitted s ∈ (run rounds (start device schedule) ops).log := by
    rw [hlog]
    exact List.mem_append_right _ (List.mem_cons_of_mem _ hmem)
  have hlength := run_submissions
    (P := fun s => s.flight.stage = Stage.controlData -> s.flight.length.toNat ≤ 65535)
    (fun _ _ _ _ _ _ _ _ _ _ htarget hstage => htarget.control_length hstage)
    rounds device schedule ops s hsubmitted
  refine ⟨result, hresult, fun e ep => Checked.apply_eq_iff e c.key ep ?_ result⟩
  intro hstage
  rw [hsame.length]
  exact hlength (hsame.stage ▸ hstage)

/-!
# A status that cannot be negated
-/

def answeredStatus (status : Int32) : List (Op QueueRing) :=
  let ret : RetSubmit :=
    { seqnum := 1, status, actualLength := 0, startFrame := 0, errorCount := 0, data := [],
      isoPackets := [] }
  let reply : ServerSubmit :=
    { ret, unused := Vector.replicate 12 0, padding := Vector.replicate 8 0,
      noCount := true }
  [Op.session (Client.Step.receive reply.encode), Op.session Client.Step.readHeader,
    Op.session Client.Step.readPayload, Op.deliver 0]

def statusRun (status : Int32) : Engine QueueRing :=
  let ring : QueueRing :=
    { active := true, slots := [⟨10, .normal 2, [0, 0], rfl⟩], next := 11 }
  run 8 (start sampleDevice [])
    ([Op.addEndpoint (1, 0x81) { kind := .bulk, maxPacketSize := 512, bInterval := 0 } ring,
      Op.doorbell (1, 0x81)] ++ answeredStatus status)

theorem replies_fault_iff_timeout :
    exists c f result, Event.completed c ∈ (statusRun (-110)).log ∧ c.origin = some f ∧
      f.result = some result ∧ f.urbStatus result = some (-110) ∧
      forall (e : Engine QueueRing) (ep : Endpoint QueueRing),
        Checked.apply e c.key ep f result = some (e.apply c.key ep f result) := by
  have hcompleted : exists c f result older,
      (statusRun (-110)).log = Event.completed c :: older ∧ c.origin = some f ∧
        f.result = some result ∧ f.urbStatus result = some (-110) :=
    ⟨_, _, _, _, rfl, rfl, rfl, rfl⟩
  rcases hcompleted with ⟨c, f, result, older, hlog, horigin, hresult, hstatus⟩
  have hmem : Event.completed c ∈ (statusRun (-110)).log := by
    rw [hlog]
    exact List.mem_cons_self
  rcases replies_fault_iff 8 sampleDevice [] _ c f hmem horigin with
    ⟨_, _, result', hresult', hiff⟩
  rw [hresult] at hresult'
  cases hresult'
  refine ⟨c, f, result, hmem, horigin, hresult, hstatus, fun e ep => (hiff e ep).mpr ?_⟩
  rw [hstatus]
  decide

/-- A reply with the smallest status there is makes `apply` panic. -/
theorem smallest_status_panics :
    exists c f result, Event.completed c ∈ (statusRun Int32.minValue).log ∧
      c.origin = some f ∧ f.result = some result ∧
      forall (e : Engine QueueRing) (ep : Endpoint QueueRing),
        Checked.apply e c.key ep f result = none := by
  have hcompleted : exists c f result older,
      (statusRun Int32.minValue).log = Event.completed c :: older ∧ c.origin = some f ∧
        f.result = some result ∧ f.urbStatus result = some Int32.minValue :=
    ⟨_, _, _, _, rfl, rfl, rfl, rfl⟩
  rcases hcompleted with ⟨c, f, result, older, hlog, horigin, hresult, hstatus⟩
  refine ⟨c, f, result, ?_, horigin, hresult, fun e ep => ?_⟩
  · rw [hlog]
    exact List.mem_cons_self
  · rw [Checked.apply, Checked.outcome_none hstatus]
    rfl

end Engine
end UsbIp
