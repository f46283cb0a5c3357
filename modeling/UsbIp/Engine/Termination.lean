import UsbIp.Engine.Doorbell
import UsbIp.Foundation.Recursion

/-!
# The pump returns

`pump` goes on in a loop, `submit` pumps again when the session refuses a URB for
the head message, and `fill` submits in a loop of its own.  Here their calls are left
open, as the source has them, without a number of rounds.  On a ring that runs out of
messages every call comes back: each is a tail call that leaves fewer messages to
complete, or fewer URBs to give up, or less room to read ahead.
-/

namespace UsbIp
namespace Engine

open Foundation
open Protocol
open Hci
open Client (SubmitRequest TransferError TransferResult)

variable {R : Type}

/-!
# Calls
-/

/-- A call of `pump`, in the state of its `offline` flag, or of `fill`. -/
inductive Call (R : Type) where
  | pump (offline : Bool) (e : Engine R)
  | fill (e : Engine R)

def Call.engine : Call R -> Engine R
  | .pump _ e => e
  | .fill e => e

def Call.code [Ring R] (key : EndpointKey) (run : Call R -> Engine R) : Call R -> Engine R
  | .pump offline e =>
      pumpCode (fun offline e => run (.pump offline e)) (fun e => run (.fill e)) offline key e
  | .fill e => fillCode (fun e => run (.fill e)) (fun e => run (.pump false e)) key e

theorem Call.code_pump [Ring R] (key : EndpointKey) (run : Call R -> Engine R)
    (offline : Bool) (e : Engine R) :
    Call.code key run (Call.pump offline e) =
      pumpCode (fun offline e => run (Call.pump offline e)) (fun e => run (Call.fill e))
        offline key e := rfl

/-!
# Rings that run out of messages
-/

/-- A ring holds so many messages, and an accepted completion consumes one of them. -/
class HeldRing (R : Type) extends Ring R where
  held : R -> Nat
  complete_accepted : forall {r : R} {status : Status} {data : Bytes} {length : UInt32},
    (complete r status data length).2.isOk = true ->
    held (complete r status data length).1 + 1 = held r
  complete_rejected : forall {r : R} {status : Status} {data : Bytes} {length : UInt32},
    (complete r status data length).2.isOk = false ->
    held (complete r status data length).1 = held r

def room (key : EndpointKey) (e : Engine R) : Nat :=
  ((e.endpoints.lookup key).map fun ep =>
    depth ep.info.kind - ep.inFlight.length).getD 0

theorem room_of_lookup {key : EndpointKey} {e : Engine R} {ep : Endpoint R}
    (hep : e.endpoints.lookup key = some ep) :
    room key e = depth ep.info.kind - ep.inFlight.length := by
  rw [room, hep]
  rfl

theorem room_le (key : EndpointKey) (e : Engine R) : room key e ≤ 32 := by
  cases hep : e.endpoints.lookup key with
  | none =>
      rw [room, hep]
      exact Nat.zero_le 32
  | some ep =>
      rw [room_of_lookup hep]
      exact Nat.le_trans (Nat.sub_le _ _) (depth_le ep.info.kind)

variable [HeldRing R]

def heldAt (key : EndpointKey) (e : Engine R) : Nat :=
  ((e.endpoints.lookup key).map fun ep => HeldRing.held ep.ring).getD 0

/-- The messages that may still be completed, and the URBs that may still be given up. -/
def unsettled (key : EndpointKey) (e : Engine R) : Nat :=
  ((e.endpoints.lookup key).map fun ep =>
    ep.inFlight.length + HeldRing.held ep.ring).getD 0

def Call.size (key : EndpointKey) : Call R -> Nat
  | .pump _ e => 33 + unsettled key e
  | .fill e => room key e

theorem heldAt_of_lookup {key : EndpointKey} {e : Engine R} {ep : Endpoint R}
    (hep : e.endpoints.lookup key = some ep) : heldAt key e = HeldRing.held ep.ring := by
  rw [heldAt, hep]
  rfl

theorem unsettled_of_lookup {key : EndpointKey} {e : Engine R} {ep : Endpoint R}
    (hep : e.endpoints.lookup key = some ep) :
    unsettled key e = ep.inFlight.length + HeldRing.held ep.ring := by
  rw [unsettled, hep]
  rfl

theorem unsettled_dropStale {key : EndpointKey} {e : Engine R} {ep : Endpoint R}
    (hep : e.endpoints.lookup key = some ep) {front : InFlight} {rest : List InFlight}
    (hflight : ep.inFlight = front :: rest) :
    unsettled key (e.dropStale key ep Cause.stale) < unsettled key e := by
  have hlookup : (e.dropStale key ep Cause.stale).endpoints.lookup key =
      some { ep with inFlight := [] } := by
    apply (e.dropStale_moves key ep Cause.stale).lookup
    rw [Core.note_endpoints, Core.put_lookup, if_pos rfl]
  rw [unsettled_of_lookup hlookup, unsettled_of_lookup hep, hflight]
  simp only [List.length_nil, List.length_cons]
  omega

theorem unsettled_complete {key : EndpointKey} {e e' : Engine R} {ep ep' : Endpoint R}
    (hep : e.endpoints.lookup key = some ep) (hring : ep'.ring = ep.ring)
    (hflight : ep'.inFlight.length ≤ ep.inFlight.length) {origin : Option InFlight}
    {status : Status} {data : Bytes} {length : UInt32}
    (hcore : e'.toCore = e.toCore.complete key ep' origin status data length)
    (haccepted : (Ring.complete ep'.ring status data length).2.isOk = true) :
    unsettled key e' < unsettled key e := by
  have hlookup : e'.endpoints.lookup key =
      some { ep' with ring := (Ring.complete ep'.ring status data length).1 } := by
    rw [hcore]
    exact complete_lookup e.toCore key ep' origin status data length
  have hheld := HeldRing.complete_accepted haccepted
  rw [unsettled_of_lookup hlookup, unsettled_of_lookup hep]
  rw [hring] at hheld
  dsimp only
  rw [hring]
  omega

/-!
# What a call leads to
-/

def Call.Sound : Call R -> Prop
  | .pump _ e => Alive e
  | .fill e => e.stuck = false

def Returns (c : Call R) (e' : Engine R) : Prop :=
  c.Sound -> Alive e'

/-- A call of `pump` or `fill` leaves the rest to another one. -/
structure Calls (key : EndpointKey) (c c' : Call R) : Prop where
  smaller : c'.size key < c.size key
  sound : c.Sound -> c'.Sound

/-- What a submission comes to, whatever the session answers. -/
inductive Submitting (e : Engine R) (key : EndpointKey) (ep : Endpoint R)
    (message : UInt64) (req : SubmitRequest) (stage : Stage) : Prop where
  | returns (e' : Engine R) (hlive : e.stuck = false -> Alive e')
      (h : forall pump, e.submit pump key message req stage = (e', false))
  | flies (e' : Engine R) (flight : InFlight) (hstuck : e'.stuck = e.stuck)
      (hlookup : e'.endpoints.lookup key =
        some { ep with inFlight := ep.inFlight ++ [flight] })
      (h : forall pump, e.submit pump key message req stage = (e', true))
  /-- The head message is completed instead, and the pump goes on. -/
  | pumps (e' : Engine R) (hempty : ep.inFlight = []) (hstuck : e'.stuck = e.stuck)
      (hless : unsettled key e' < unsettled key e)
      (h : forall pump, e.submit pump key message req stage = (pump e', false))

theorem submit_submitting {e : Engine R} {key : EndpointKey} {ep : Endpoint R}
    (hep : e.endpoints.lookup key = some ep) (message : UInt64) (req : SubmitRequest)
    (stage : Stage) : Submitting e key ep message req stage := by
  cases hsubmit : e.acquire.session.shared.submit req with
  | none =>
      apply Submitting.returns { e.acquire with stuck := true }
      · intro _ _
        exact Client.Shared.submit_none hsubmit
      · intro pump
        simp only [submit, hep, hsubmit]
  | some found =>
      rcases found with ⟨answer, shared⟩
      cases answer with
      | ok accepted =>
          rcases accepted with ⟨seqnum, reply⟩
          have hpush : forall pump, e.submit pump key message req stage =
              ({ e.acquire with
                  session := { e.acquire.session with shared := shared }
                  toCore := e.toCore.push key ep
                    (newFlight e.nextToken message req stage seqnum) reply
                    (req.command seqnum e.acquire.session.shared.devid) }, true) := by
            intro pump
            simp only [submit, hep, hsubmit]
            rfl
          refine Submitting.flies _ (newFlight e.nextToken message req stage seqnum) ?_ ?_
            hpush
          · rfl
          · exact push_lookup e.toCore key ep _ reply _
      | error err =>
          cases hflight : ep.inFlight with
          | cons front rest =>
              apply Submitting.returns e.acquire
              · exact fun hrunning => Alive.of_running hrunning
              · intro pump
                simp only [submit, hep, hsubmit, hflight, List.isEmpty_cons,
                  Bool.false_eq_true, if_false]
          | nil =>
              have hcomplete : forall pump, e.submit pump key message req stage =
                  (if (Ring.complete ep.ring (errorStatus err) [] 0).2.isOk = true ∧
                      errorStatus err ≠ Status.offline then
                    pump (e.acquire.complete key ep none (errorStatus err) [] 0).1
                  else
                    (e.acquire.complete key ep none (errorStatus err) [] 0).1, false) := by
                intro pump
                simp only [submit, hep, hsubmit, hflight, List.isEmpty_nil, if_true,
                  complete]
                rfl
              by_cases hmore : (Ring.complete ep.ring (errorStatus err) [] 0).2.isOk = true ∧
                  errorStatus err ≠ Status.offline
              · refine Submitting.pumps (e.acquire.complete key ep none (errorStatus err)
                  [] 0).1 hflight rfl ?_ ?_
                · exact unsettled_complete hep rfl (Nat.le_refl _) rfl hmore.left
                · intro pump
                  rw [hcomplete, if_pos hmore]
              · refine Submitting.returns (e.acquire.complete key ep none (errorStatus err)
                  [] 0).1 ?_ ?_
                · exact fun hrunning => Alive.of_running hrunning
                · intro pump
                  rw [hcomplete, if_neg hmore]

theorem fill_unfolds (key : EndpointKey) (e : Engine R) :
    Unfolds (Call.code key) Returns (Calls key) (Call.fill e) := by
  cases fillCode_round key e with
  | rests h =>
      apply Unfolds.returns e (fun hrunning => Alive.of_running hrunning)
      intro run
      exact h _ _
  | @asks ep message transfer req stage hep hsome hdepth _ _ _ h =>
      cases submit_submitting hep message req stage with
      | returns e' hlive hsubmit =>
          apply Unfolds.returns e' hlive
          intro run
          exact h _ _ _ _ (hsubmit _)
      | flies e' flight hstuck hlookup hsubmit =>
          apply Unfolds.calls (Call.fill e')
          · constructor
            · show room key e' < room key e
              rw [room_of_lookup hlookup, room_of_lookup hep]
              simp only [List.length_append, List.length_singleton]
              omega
            · exact fun hrunning => hstuck.trans hrunning
          · intro run
            exact h _ _ _ _ (hsubmit _)
      | pumps e' hempty _ _ _ => exact absurd hempty hsome

theorem unfolds_of_complete {key : EndpointKey} {e : Engine R} {ep : Endpoint R}
    (hlooks : Looks e key ep) (e' : Engine R) (ep' : Endpoint R) (hring : ep'.ring = ep.ring)
    (hflight : ep'.inFlight.length ≤ ep.inFlight.length) {origin : Option InFlight}
    {status : Status} {data : Bytes} {length : UInt32}
    (hcore : e'.toCore = e.toCore.complete key ep' origin status data length)
    (hrunning : e'.stuck = false) {offline : Bool} (offline' : Bool)
    (h : forall run, Call.code key run (Call.pump offline e) =
      if (Ring.complete ep'.ring status data length).2.isOk = true then
        run (Call.pump offline' e')
      else
        e') :
    Unfolds (Call.code key) Returns (Calls key) (Call.pump offline e) := by
  by_cases haccepted : (Ring.complete ep'.ring status data length).2.isOk = true
  · apply Unfolds.calls (Call.pump offline' e')
    · constructor
      · apply Nat.add_lt_add_left
        exact unsettled_complete hlooks.lookup hring hflight hcore haccepted
      · exact fun _ => Alive.of_running hrunning
    · intro run
      rw [h, if_pos haccepted]
  · apply Unfolds.returns e' fun _ => Alive.of_running hrunning
    intro run
    rw [h, if_neg haccepted]

theorem result_unfolds {key : EndpointKey} {e : Engine R} {ep : Endpoint R}
    (hlooks : Looks e key ep) {front : InFlight} {rest : List InFlight}
    (hflight : ep.inFlight = front :: rest) (result : TransferResult) (offline offline' : Bool)
    (h : forall run, Call.code key run (Call.pump offline e) =
      if (settle key { ep with inFlight := rest } front result).2.1.accepted = true then
        run (Call.pump offline' (e.apply key { ep with inFlight := rest } front result).1)
      else
        (e.apply key { ep with inFlight := rest } front result).1) :
    Unfolds (Call.code key) Returns (Calls key) (Call.pump offline e) := by
  cases hstage : applyStage { ep with inFlight := rest } front.stage
      (if front.direction = Direction.in then (front.outcome result).2.1 else [])
      (front.outcome result).2.2 with
  | mk ep' found =>
      rcases found with ⟨data, length, hidden⟩
      have hframe := applyStage_frame hstage
      have hcore : (e.apply key { ep with inFlight := rest } front result).1.toCore =
          e.toCore.complete key ep' (some front) (front.outcome result).1 data length := by
        rw [apply_fst hstage]
      refine unfolds_of_complete hlooks _ ep' hframe.left ?_ hcore ?_ offline' ?_
      · rw [hframe.right.left, hflight]
        exact Nat.le_succ _
      · rw [apply_fst hstage]
        exact hlooks.running
      · intro run
        rw [h]
        simp only [settle, hstage]

theorem pump_unfolds (key : EndpointKey) (offline : Bool) (e : Engine R) :
    Unfolds (Call.code key) Returns (Calls key) (Call.pump offline e) := by
  cases pumpCode_round offline key e with
  | rests h =>
      apply Unfolds.returns e fun hlive => hlive
      intro run
      rw [Call.code_pump]
      exact h _ _
  | @stale ep front rest hlooks hflight hmoved h =>
      apply Unfolds.calls (Call.pump offline (e.dropStale key ep Cause.stale))
      · constructor
        · apply Nat.add_lt_add_left
          exact unsettled_dropStale hlooks.lookup hflight
        · exact fun hlive => hlive.dropStale key ep Cause.stale
      · intro run
        rw [Call.code_pump]
        exact h _ _
  | result hlooks hflight hhead hresult h =>
      apply result_unfolds hlooks hflight
      intro run
      rw [Call.code_pump]
      exact h _ _
  | fills hlooks hflight hhead hresult h =>
      apply Unfolds.calls (Call.fill e)
      · constructor
        · show room key e < 33 + unsettled key e
          have hroom := room_le key e
          omega
        · exact fun _ => hlooks.running
      · intro run
        rw [Call.code_pump]
        exact h _ _
  | @completes ep ep' transfer status hlooks hflight hcurrent hsettles h =>
      have hframe := hsettles.frame
      refine unfolds_of_complete hlooks
        { e with toCore := e.toCore.complete key ep' none status [] 0 } ep' hframe.left
        ?_ rfl hlooks.running false ?_
      · rw [hframe.right.left]
      · intro run
        rw [Call.code_pump]
        exact h _ _
  | @asks ep transfer req stage hlooks hflight hcurrent hasks h =>
      cases submit_submitting hlooks.lookup (Ring.current ep.ring).1 req stage with
      | returns e' hreturns hsubmit =>
          apply Unfolds.returns e' fun _ => hreturns hlooks.running
          intro run
          rw [Call.code_pump]
          exact h _ _ _ _ (hsubmit _)
      | flies e' flight hstuck hlookup hsubmit =>
          apply Unfolds.calls (Call.fill e')
          · constructor
            · show room key e' < 33 + unsettled key e
              have hroom := room_le key e'
              omega
            · exact fun _ => hstuck.trans hlooks.running
          · intro run
            rw [Call.code_pump]
            exact h _ _ _ _ (hsubmit _)
      | pumps e' hempty hstuck hless hsubmit =>
          apply Unfolds.calls (Call.pump false e')
          · constructor
            · exact Nat.add_lt_add_left hless 33
            · exact fun _ => Alive.of_running (hstuck.trans hlooks.running)
          · intro run
            rw [Call.code_pump]
            exact h _ _ _ _ (hsubmit _)

theorem tailCalls (key : EndpointKey) :
    TailCalls (Call.code (R := R) key) Returns (Calls key) (Call.size key) where
  unfolds := by
    intro c
    cases c with
    | pump offline e => exact pump_unfolds key offline e
    | fill e => exact fill_unfolds key e
  smaller := Calls.smaller

/-!
# The loops with a number of rounds
-/

def Call.answer (pump : Bool -> Engine R -> Engine R) (fill : Engine R -> Engine R) :
    Call R -> Engine R
  | .pump offline e => pump offline e
  | .fill e => fill e

/-- Reading ahead makes no pump, so the one it is given does not matter. -/
theorem fillLoop_eq {key : EndpointKey} {run : Call R -> Engine R}
    (hrun : Solves (Call.code key) run) (pump : Engine R -> Engine R) {rounds : Nat}
    {e : Engine R} (hrounds : room key e ≤ rounds) :
    fillLoop pump key rounds e = run (Call.fill e) := by
  induction rounds generalizing e with
  | zero =>
      have hnone : Call.code key run (Call.fill e) = e := by
        cases hep : e.endpoints.lookup key with
        | none => simp only [Call.code, fillCode, hep]
        | some ep =>
            have hfull : depth ep.info.kind ≤ ep.inFlight.length := by
              rw [room_of_lookup hep] at hrounds
              exact Nat.le_of_sub_eq_zero (Nat.le_zero.mp hrounds)
            have hstop : ep.inFlight.length = 0 ∨
                depth ep.info.kind ≤ ep.inFlight.length ∨
                ep.inFlight.any (fun f => f.result.isSome) := Or.inr (Or.inl hfull)
            simp only [Call.code, fillCode, hep, if_pos hstop]
      rw [hrun, hnone]
      rfl
  | succ rounds ih =>
      have hloop : fillLoop pump key (rounds + 1) e =
          Call.code key (Call.answer (fun _ => pump) (fillLoop pump key rounds))
            (Call.fill e) := rfl
      rw [hloop, hrun]
      cases fill_unfolds key e with
      | returns e' _ hcode => rw [hcode, hcode]
      | calls c hcalls hcode =>
          rw [hcode, hcode]
          have hsmaller : c.size key < room key e := hcalls.smaller
          cases c with
          | pump offline e' =>
              have hroom := room_le key e
              simp only [Call.size] at hsmaller
              omega
          | fill e' =>
              apply ih
              exact Nat.le_of_lt_succ (Nat.lt_of_lt_of_le hsmaller hrounds)

theorem pumpLoop_eq {key : EndpointKey} {run : Call R -> Engine R}
    (hrun : Solves (Call.code key) run) {rounds : Nat} {offline : Bool} {e : Engine R}
    (hrounds : unsettled key e < rounds) :
    pumpLoop rounds offline key e = run (Call.pump offline e) := by
  induction rounds generalizing offline e with
  | zero => cases hrounds
  | succ rounds ih =>
      have hloop : pumpLoop (rounds + 1) offline key e =
          Call.code key (Call.answer (fun offline e => pumpLoop rounds offline key e)
            (fun e => e.fill (pumpLoop rounds false key) key)) (Call.pump offline e) := rfl
      rw [hloop, hrun]
      cases pump_unfolds key offline e with
      | returns e' _ hcode => rw [hcode, hcode]
      | calls c hcalls hcode =>
          rw [hcode, hcode]
          cases c with
          | pump offline' e' =>
              apply ih
              have hsmaller := Nat.lt_of_add_lt_add_left hcalls.smaller
              exact Nat.lt_of_lt_of_le hsmaller (Nat.le_of_lt_succ hrounds)
          | fill e' => exact fillLoop_eq hrun _ (room_le key e')

/-!
# What the ring is left with
-/

def Event.isAcceptance : Event R -> Bool
  | .completed c => c.accepted
  | _ => false

def acceptances (events : List (Event R)) : Nat :=
  events.countP Event.isAcceptance

/-- The messages completed in between are those that the ring does not hold any more. -/
def Accounted (key : EndpointKey) (e e' : Engine R) : Prop :=
  exists newer, e'.log = newer ++ e.log ∧
    acceptances newer + heldAt key e' = heldAt key e

theorem Accounted.trans {key : EndpointKey} {e e' e'' : Engine R} (h : Accounted key e e')
    (h' : Accounted key e' e'') : Accounted key e e'' := by
  rcases h with ⟨newer, hlog, hheld⟩
  rcases h' with ⟨newest, hlog', hheld'⟩
  refine ⟨newest ++ newer, ?_, ?_⟩
  · rw [hlog', hlog, List.append_assoc]
  · rw [acceptances, List.countP_append]
    rw [acceptances] at hheld hheld'
    omega

theorem Accounted.of_core {key : EndpointKey} {e e' : Engine R}
    (h : e'.toCore = e.toCore) : Accounted key e e' := by
  refine ⟨[], ?_, ?_⟩
  · rw [h]
    rfl
  · rw [heldAt, heldAt, h]
    exact Nat.zero_add _

theorem Accounted.of_ring {key : EndpointKey} {e e' : Engine R} {ep ep' : Endpoint R}
    (hep : e.endpoints.lookup key = some ep) (hep' : e'.endpoints.lookup key = some ep')
    (hring : ep'.ring = ep.ring) {event : Event R} (hlog : e'.log = event :: e.log)
    (hevent : event.isAcceptance = false) : Accounted key e e' := by
  refine ⟨[event], hlog, ?_⟩
  rw [heldAt_of_lookup hep, heldAt_of_lookup hep', hring, acceptances,
    List.countP_singleton, hevent, if_neg Bool.false_ne_true]
  exact Nat.zero_add _

theorem Accounted.of_complete {key : EndpointKey} {e e' : Engine R} {ep ep' : Endpoint R}
    (hep : e.endpoints.lookup key = some ep) (hring : ep'.ring = ep.ring)
    {origin : Option InFlight} {status : Status} {data : Bytes} {length : UInt32}
    (hcore : e'.toCore = e.toCore.complete key ep' origin status data length) :
    Accounted key e e' := by
  have hlookup : e'.endpoints.lookup key =
      some { ep' with ring := (Ring.complete ep'.ring status data length).1 } := by
    rw [hcore]
    exact complete_lookup e.toCore key ep' origin status data length
  have hlog : e'.log = Event.completed
      { key, ring := ep'.ring, origin, status, data, length,
        accepted := (Ring.complete ep'.ring status data length).2.isOk } :: e.log := by
    rw [hcore]
    rfl
  cases haccepted : (Ring.complete ep'.ring status data length).2.isOk with
  | true =>
      have hheld := HeldRing.complete_accepted haccepted
      refine ⟨[_], hlog, ?_⟩
      rw [heldAt_of_lookup hep, heldAt_of_lookup hlookup, acceptances,
        List.countP_singleton, Event.isAcceptance, if_pos haccepted, ← hring, ← hheld]
      exact Nat.add_comm _ _
  | false =>
      have hheld := HeldRing.complete_rejected haccepted
      refine ⟨[_], hlog, ?_⟩
      rw [heldAt_of_lookup hep, heldAt_of_lookup hlookup, acceptances,
        List.countP_singleton, Event.isAcceptance, haccepted, if_neg Bool.false_ne_true,
        ← hring]
      dsimp only
      rw [hheld]
      exact Nat.zero_add _

theorem Action.accounted {key : EndpointKey} {e e' : Engine R} (h : Action key e e') :
    Accounted key e e' := by
  cases h with
  | idle h => exact Accounted.of_core h.core
  | @stale ep front rest hep hactive hflight hmoved h =>
      have hlookup : e'.endpoints.lookup key = some { ep with inFlight := [] } := by
        apply h.lookup
        rw [Core.note_endpoints, Core.put_lookup, if_pos rfl]
      exact Accounted.of_ring hep hlookup rfl h.log.symm rfl
  | applied hep _ _ _ _ hstage h =>
      exact Accounted.of_complete hep (applyStage_frame hstage).left h.core
  | settled hep _ _ _ hsettles h => exact Accounted.of_complete hep hsettles.frame.left h.core
  | submitted hep _ _ _ _ h =>
      exact Accounted.of_ring hep (h.lookup (push_lookup _ key _ _ _ _)) rfl h.log.symm rfl
  | refused hep _ _ _ _ _ h => exact Accounted.of_complete hep rfl h.core

theorem pumpLoop_accounted (rounds : Nat) (offline : Bool) (key : EndpointKey)
    (e : Engine R) : Accounted key e (pumpLoop rounds offline key e) := by
  apply Actions.invariant (I := Accounted key e)
  · exact fun e' e'' hstep h => h.trans hstep.accounted
  · exact pumpLoop_actions rounds offline key e
  · exact Accounted.of_core rfl

/-!
# The pump returns
-/

/--
Calls nested deep enough never reach the bottom, and the pump comes back in the same
state with every larger number of rounds.  It completes the messages that the ring
does not hold any more.  It waits in the session only when no number is left there.
-/
theorem pump_terminates (key : EndpointKey) (offline : Bool) (e : Engine R) :
    exists e',
      (forall bottom n, 33 + unsettled key e < n ->
        nested (Call.code key) bottom n (Call.pump offline e) = e') ∧
      (forall run, Solves (Call.code key) run -> run (Call.pump offline e) = e') ∧
      (forall rounds, unsettled key e < rounds -> pumpLoop rounds offline key e = e') ∧
      (e.stuck = false -> e'.stuck = true -> e'.session.shared.state.Full) ∧
      exists newer, e'.log = newer ++ e.log ∧
        acceptances newer + heldAt key e' = heldAt key e := by
  have htail := tailCalls (R := R) key
  have hsolves := htail.solves Call.engine
  have hloop : pumpLoop (unsettled key e + 1) offline key e = _ :=
    pumpLoop_eq hsolves (Nat.lt_succ_self (unsettled key e))
  refine ⟨pumpLoop (unsettled key e + 1) offline key e, ?_, ?_, ?_, ?_, ?_⟩
  · intro bottom n hn
    rw [htail.nested_eq_of_solves hsolves bottom hn]
    exact hloop.symm
  · intro run hrun
    exact (pumpLoop_eq hrun (Nat.lt_succ_self (unsettled key e))).symm
  · intro rounds hrounds
    exact (pumpLoop_eq hsolves hrounds).trans hloop.symm
  · intro hrunning
    rw [hloop]
    apply htail.post hsolves (P := fun c e' => c.Sound -> Alive e')
    · exact fun hreturns => hreturns
    · exact fun hcalls h hsound => h (hcalls.sound hsound)
    · exact Alive.of_running hrunning
  · exact pumpLoop_accounted _ offline key e

/-!
# The ring of the tests
-/

/-- Whoever sets it up decides whether it accepts completions. -/
structure FakeRing where
  active : Bool
  rejectCompletions : Bool
  queue : List (Transfer × Bytes)
  /-- Identity of the message at the front of the queue. -/
  headId : UInt64

def FakeRing.peek (r : FakeRing) (ahead : Nat) : Option (UInt64 × Transfer) :=
  match r.queue[ahead]? with
  | none => none
  | some (transfer, _) =>
      if transfer.isLink then none else some (r.headId + UInt64.ofNat ahead, transfer)

def FakeRing.complete (r : FakeRing) : FakeRing × Except String Unit :=
  if r.rejectCompletions ∨ r.active = false then
    (r, .error "endpoint not active")
  else
    match r.queue with
    -- The source panics.
    | [] => (r, .error "complete without message")
    | _ :: queue => ({ r with queue := queue, headId := r.headId + 1 }, .ok ())

instance : HeldRing FakeRing where
  active := FakeRing.active
  current r := (r.headId, r.queue.head?.map Prod.fst)
  peek := FakeRing.peek
  read r ahead length := ((r.queue[ahead]?).map fun m => m.2.take length).getD []
  complete r _ _ _ := r.complete
  held r := r.queue.length
  complete_accepted := by
    intro r _ _ _ h
    unfold FakeRing.complete at h ⊢
    split at h
    · cases h
    · rename_i haccepts
      rw [if_neg haccepts]
      split at h
      · cases h
      · rename_i hqueue
        simp only [hqueue, List.length_cons]
  complete_rejected := by
    intro r _ _ _ h
    unfold FakeRing.complete at h ⊢
    split at h
    · rename_i hrejects
      rw [if_pos hrejects]
    · rename_i haccepts
      rw [if_neg haccepts]
      split at h
      · rename_i hqueue
        simp only [hqueue]
      · cases h

def fakeLinks (rejectCompletions : Bool) : FakeRing where
  active := true
  rejectCompletions := rejectCompletions
  queue := [(Transfer.link true, []), (Transfer.link true, [])]
  headId := 0

def engineWith (r : FakeRing) : Engine FakeRing :=
  (start sampleDevice []).addEndpoint (1, 0x81)
    { kind := .interrupt, maxPacketSize := 8, bInterval := 4 } r

example :
    heldAt (1, 0x81) ((engineWith (fakeLinks false)).pump 3 (1, 0x81)) = 0 ∧
      heldAt (1, 0x81) ((engineWith (fakeLinks true)).pump 3 (1, 0x81)) = 2 := by
  decide +kernel

end Engine
end UsbIp
