import UsbIp.Engine.Steps

/-!
# One round of the pump

What a round of `pump` or `fill` comes to, whatever the functions it calls do.  A proof
about whole runs of the pump is an induction on the number of rounds with one case for
each of these, and does not unfold the loops.
-/

namespace UsbIp
namespace Engine

open Foundation
open Protocol
open Hci
open Client (SubmitRequest TransferError TransferResult Session)
open Relation (ReflTransGen)

variable {R : Type} [Ring R]

/-!
# Finished URBs
-/

/-- What a URB result does to its endpoint, the completion, and whether it hid UAS. -/
def settle (key : EndpointKey) (ep : Endpoint R) (f : InFlight) (result : TransferResult) :
    Endpoint R × Completion R × Bool :=
  let data := if f.direction = Direction.in then (f.outcome result).2.1 else []
  let staged := applyStage ep f.stage data (f.outcome result).2.2
  let outcome :=
    Ring.complete staged.1.ring (f.outcome result).1 staged.2.1 staged.2.2.1
  ({ staged.1 with ring := outcome.1 },
    { key, ring := staged.1.ring, origin := some f, status := (f.outcome result).1,
      data := staged.2.1, length := staged.2.2.1, accepted := outcome.2.isOk },
    staged.2.2.2)

theorem settle_inFlight (key : EndpointKey) (ep : Endpoint R) (f : InFlight)
    (result : TransferResult) (flights : List InFlight) :
    settle key { ep with inFlight := flights } f result =
      ({ (settle key ep f result).1 with inFlight := flights },
        (settle key ep f result).2) := by
  have hstage : forall data length,
      applyStage { ep with inFlight := flights } f.stage data length =
        ({ (applyStage ep f.stage data length).1 with inFlight := flights },
          (applyStage ep f.stage data length).2) := by
    intro data length
    cases f.stage with
    | controlData =>
        simp only [applyStage]
        split
        · simp only [hideConfig]
          split
          · rfl
          · split
            · split <;> rfl
            · rfl
        · rfl
    | controlStatus => rfl
    | normal => rfl
    | isochronous => rfl
  simp only [settle, hstage]

theorem settle_of_stage (key : EndpointKey) {ep ep' : Endpoint R} {f : InFlight}
    {result : TransferResult} {data : Bytes} {length : UInt32} {hidden : Bool}
    (hstage : applyStage ep f.stage
      (if f.direction = Direction.in then (f.outcome result).2.1 else [])
      (f.outcome result).2.2 = (ep', data, length, hidden)) :
    settle key ep f result =
      ({ ep' with ring := (Ring.complete ep'.ring (f.outcome result).1 data length).1 },
        { key, ring := ep'.ring, origin := some f, status := (f.outcome result).1,
          data := data, length := length,
          accepted := (Ring.complete ep'.ring (f.outcome result).1 data length).2.isOk },
        hidden) := by
  simp only [settle, hstage]

theorem settle_ring (key : EndpointKey) (ep : Endpoint R) (f : InFlight)
    (result : TransferResult) :
    (settle key ep f result).2.1.ring = ep.ring := by
  cases hstage : applyStage ep f.stage
      (if f.direction = Direction.in then (f.outcome result).2.1 else [])
      (f.outcome result).2.2 with
  | mk ep' found =>
      rcases found with ⟨data, length, hidden⟩
      simp only [settle, hstage]
      exact (applyStage_frame hstage).left

/-- The completion that a result stands for is the one the ring sees. -/
theorem settle_complete (key : EndpointKey) (ep : Endpoint R) (f : InFlight)
    (result : TransferResult) :
    let c := (settle key ep f result).2.1
    (settle key ep f result).1.ring = (Ring.complete ep.ring c.status c.data c.length).1 ∧
      c.accepted = (Ring.complete ep.ring c.status c.data c.length).2.isOk := by
  intro c
  have hring : c.ring = ep.ring := settle_ring key ep f result
  rw [← hring]
  exact ⟨rfl, rfl⟩

theorem apply_settle (e : Engine R) (key : EndpointKey) (ep : Endpoint R) (f : InFlight)
    (result : TransferResult) :
    e.apply key ep f result =
      ({ e with
          toCore := (e.toCore.put key (settle key ep f result).1).note
            (Event.completed (settle key ep f result).2.1)
          uasWarned := e.uasWarned || (settle key ep f result).2.2 },
        if (settle key ep f result).2.1.accepted = true then
          if (f.outcome result).1 = Status.offline then Flow.offline else Flow.continue
        else
          Flow.stop) := by
  cases hstage : applyStage ep f.stage
      (if f.direction = Direction.in then (f.outcome result).2.1 else [])
      (f.outcome result).2.2 with
  | mk ep' found =>
      rcases found with ⟨data, length, hidden⟩
      apply Prod.ext
      · rw [apply_fst hstage]
        simp only [settle, hstage]
        rfl
      · rw [apply_snd hstage]
        simp only [settle, hstage]

/-!
# Where a round ends
-/

structure Looks (e : Engine R) (key : EndpointKey) (ep : Endpoint R) : Prop where
  running : e.stuck = false
  lookup : e.endpoints.lookup key = some ep
  active : Ring.active ep.ring = true

section Equations

variable {e : Engine R} {key : EndpointKey} {ep : Endpoint R}
  (pump : Bool -> Engine R -> Engine R) (fill : Engine R -> Engine R) (offline : Bool)

theorem pumpCode_stuck (h : e.stuck = true) : pumpCode pump fill offline key e = e := by
  rw [pumpCode, if_pos h]

theorem pumpCode_absent (h : e.endpoints.lookup key = none) :
    pumpCode pump fill offline key e = e := by
  rw [pumpCode, h]
  exact ite_self e

theorem pumpCode_inactive (hep : e.endpoints.lookup key = some ep)
    (h : Ring.active ep.ring = false) : pumpCode pump fill offline key e = e := by
  rw [pumpCode, hep]
  dsimp only
  rw [if_pos h]
  exact ite_self e

theorem pumpCode_stale (h : Looks e key ep) {front : InFlight} {rest : List InFlight}
    (hflight : ep.inFlight = front :: rest)
    (hmoved : front.message ≠ (Ring.current ep.ring).1) :
    pumpCode pump fill offline key e = pump offline (e.dropStale key ep Cause.stale) := by
  simp only [pumpCode, h.running, h.lookup, h.active, hflight, if_pos hmoved,
    Bool.false_eq_true, Bool.true_eq_false, if_false]

theorem pumpCode_result (h : Looks e key ep) {front : InFlight} {rest : List InFlight}
    (hflight : ep.inFlight = front :: rest)
    (hhead : front.message = (Ring.current ep.ring).1) {result : TransferResult}
    (hresult : front.result = some result) :
    pumpCode pump fill offline key e =
      if (settle key { ep with inFlight := rest } front result).2.1.accepted = true then
        pump (offline || decide ((front.outcome result).1 = Status.offline))
          (e.apply key { ep with inFlight := rest } front result).1
      else
        (e.apply key { ep with inFlight := rest } front result).1 := by
  simp only [pumpCode, h.running, h.lookup, h.active, hflight, hhead, hresult,
    Bool.false_eq_true, Bool.true_eq_false, if_false, ne_eq, not_true_eq_false]
  rw [apply_settle]
  by_cases haccepted :
      (settle key { ep with inFlight := rest } front result).2.1.accepted = true
  · rw [if_pos haccepted, if_pos haccepted]
    by_cases hgone : (front.outcome result).1 = Status.offline
    · simp [hgone]
    · simp [hgone]
  · rw [if_neg haccepted, if_neg haccepted]

theorem pumpCode_waiting (h : Looks e key ep) {front : InFlight} {rest : List InFlight}
    (hflight : ep.inFlight = front :: rest)
    (hhead : front.message = (Ring.current ep.ring).1) (hresult : front.result = none) :
    pumpCode pump fill offline key e = if offline = true then e else fill e := by
  simp only [pumpCode, h.running, h.lookup, h.active, hflight, hhead, hresult,
    Bool.false_eq_true, Bool.true_eq_false, if_false, ne_eq, not_true_eq_false]

theorem pumpCode_exhausted (h : Looks e key ep) (hflight : ep.inFlight = [])
    (hcurrent : (Ring.current ep.ring).2 = none) :
    pumpCode pump fill offline key e = e := by
  simp only [pumpCode, h.running, h.lookup, h.active, hflight, hcurrent,
    Bool.false_eq_true, Bool.true_eq_false, if_false]

theorem pumpCode_completes {ep' : Endpoint R} (h : Looks e key ep)
    (hflight : ep.inFlight = []) {transfer : Transfer}
    (hcurrent : (Ring.current ep.ring).2 = some transfer) {status : Status}
    (hhead : e.headRequest key ep transfer = e.completeHead key ep' status) :
    pumpCode pump fill false key e =
      if (Ring.complete ep'.ring status [] 0).2.isOk = true then
        pump false { e with toCore := e.toCore.complete key ep' none status [] 0 }
      else
        { e with toCore := e.toCore.complete key ep' none status [] 0 } := by
  simp only [pumpCode, h.running, h.lookup, h.active, hflight, hcurrent, hhead, completeHead,
    complete, Bool.false_eq_true, Bool.true_eq_false, if_false]
  cases (Ring.complete ep'.ring status [] 0).2.isOk with
  | true => rfl
  | false => rfl

theorem pumpCode_rests (h : Looks e key ep) (hflight : ep.inFlight = [])
    {transfer : Transfer} (hcurrent : (Ring.current ep.ring).2 = some transfer)
    (hhead : e.headRequest key ep transfer = (e, Next.stop)) :
    pumpCode pump fill false key e = e := by
  simp only [pumpCode, h.running, h.lookup, h.active, hflight, hcurrent, hhead,
    Bool.false_eq_true, Bool.true_eq_false, if_false]

theorem pumpCode_asks (h : Looks e key ep) (hflight : ep.inFlight = [])
    {transfer : Transfer} (hcurrent : (Ring.current ep.ring).2 = some transfer)
    {req : SubmitRequest} {stage : Stage}
    (hhead : e.headRequest key ep transfer = (e, Next.submit req stage)) {e' : Engine R}
    {inFlight : Bool}
    (hsubmit : e.submit (pump false) key (Ring.current ep.ring).1 req stage =
      (e', inFlight)) :
    pumpCode pump fill false key e = if inFlight = true then fill e' else e' := by
  simp only [pumpCode, h.running, h.lookup, h.active, hflight, hcurrent, hhead, hsubmit,
    Bool.false_eq_true, Bool.true_eq_false, if_false]
  cases inFlight with
  | true => rfl
  | false => rfl

theorem pumpCode_offline (hep : e.endpoints.lookup key = some ep)
    (hflight : ep.inFlight = []) : pumpCode pump fill true key e = e := by
  cases hstuck : e.stuck with
  | true => exact pumpCode_stuck pump fill true hstuck
  | false =>
      cases hactive : Ring.active ep.ring with
      | false => exact pumpCode_inactive pump fill true hep hactive
      | true =>
          cases hcurrent : (Ring.current ep.ring).2 with
          | none =>
              exact pumpCode_exhausted pump fill true ⟨hstuck, hep, hactive⟩ hflight hcurrent
          | some transfer =>
              simp only [pumpCode, hstuck, hep, hactive, hflight, hcurrent,
                Bool.false_eq_true, Bool.true_eq_false, if_false, if_true]

end Equations

/-!
# What a round comes to
-/

inductive FillRound (key : EndpointKey) (e : Engine R) : Prop where
  | rests (h : forall fill pump, fillCode fill pump key e = e)
  | asks {ep : Endpoint R} {message : UInt64} {transfer : Transfer} {req : SubmitRequest}
      {stage : Stage} (hep : e.endpoints.lookup key = some ep) (hsome : ep.inFlight ≠ [])
      (hdepth : ep.inFlight.length < depth ep.info.kind)
      (hnone : forall f, f ∈ ep.inFlight -> f.result = none)
      (hpeek : Ring.peek ep.ring ep.inFlight.length = some (message, transfer))
      (hreq : dataRequest e.session.device.speed ep key ep.inFlight.length transfer =
        some (req, stage))
      (h : forall fill pump e' inFlight,
        e.submit pump key message req stage = (e', inFlight) ->
        fillCode fill pump key e = if inFlight = true then fill e' else e')

theorem fillCode_round (key : EndpointKey) (e : Engine R) : FillRound key e := by
  cases hep : e.endpoints.lookup key with
  | none =>
      apply FillRound.rests
      intro fill pump
      simp only [fillCode, hep]
  | some ep =>
      by_cases hstop : ep.inFlight.length = 0 ∨ depth ep.info.kind ≤ ep.inFlight.length ∨
          ep.inFlight.any (fun f => f.result.isSome)
      · apply FillRound.rests
        intro fill pump
        simp only [fillCode, hep, if_pos hstop]
      · cases hpeek : Ring.peek ep.ring ep.inFlight.length with
        | none =>
            apply FillRound.rests
            intro fill pump
            simp only [fillCode, hep, if_neg hstop, hpeek]
        | some found =>
            rcases found with ⟨message, transfer⟩
            cases hreq : dataRequest e.session.device.speed ep key ep.inFlight.length
                transfer with
            | none =>
                apply FillRound.rests
                intro fill pump
                simp only [fillCode, hep, if_neg hstop, hpeek, hreq]
            | some asked =>
                rcases asked with ⟨req, stage⟩
                have hguard := hstop
                simp only [not_or, Nat.not_le, List.any_eq_true, not_exists,
                  not_and] at hguard
                rcases hguard with ⟨hlength, hdepth, hnone⟩
                refine FillRound.asks hep ?_ hdepth ?_ hpeek hreq ?_
                · intro hempty
                  rw [hempty] at hlength
                  exact hlength rfl
                · intro f hf
                  simpa using hnone f hf
                · intro fill pump e' inFlight hsubmit
                  simp only [fillCode, hep, if_neg hstop, hpeek, hreq, hsubmit]
                  cases inFlight with
                  | true => rfl
                  | false => rfl

/-- What a round of `pump` comes to. -/
inductive PumpRound (offline : Bool) (key : EndpointKey) (e : Engine R) : Prop where
  | rests (h : forall pump fill, pumpCode pump fill offline key e = e)
  | stale {ep : Endpoint R} {front : InFlight} {rest : List InFlight}
      (hlooks : Looks e key ep) (hflight : ep.inFlight = front :: rest)
      (hmoved : front.message ≠ (Ring.current ep.ring).1)
      (h : forall pump fill, pumpCode pump fill offline key e =
        pump offline (e.dropStale key ep Cause.stale))
  | result {ep : Endpoint R} {front : InFlight} {rest : List InFlight}
      {result : TransferResult} (hlooks : Looks e key ep)
      (hflight : ep.inFlight = front :: rest)
      (hhead : front.message = (Ring.current ep.ring).1)
      (hresult : front.result = some result)
      (h : forall pump fill, pumpCode pump fill offline key e =
        if (settle key { ep with inFlight := rest } front result).2.1.accepted = true then
          pump (offline || decide ((front.outcome result).1 = Status.offline))
            (e.apply key { ep with inFlight := rest } front result).1
        else
          (e.apply key { ep with inFlight := rest } front result).1)
  | fills {ep : Endpoint R} {front : InFlight} {rest : List InFlight}
      (hlooks : Looks e key ep) (hflight : ep.inFlight = front :: rest)
      (hhead : front.message = (Ring.current ep.ring).1) (hresult : front.result = none)
      (h : forall pump fill, pumpCode pump fill offline key e = fill e)
  | completes {ep ep' : Endpoint R} {transfer : Transfer} {status : Status}
      (hlooks : Looks e key ep) (hflight : ep.inFlight = [])
      (hcurrent : (Ring.current ep.ring).2 = some transfer)
      (hsettles : Settles key ep transfer ep' status)
      (h : forall pump fill, pumpCode pump fill offline key e =
        if (Ring.complete ep'.ring status [] 0).2.isOk = true then
          pump false { e with toCore := e.toCore.complete key ep' none status [] 0 }
        else
          { e with toCore := e.toCore.complete key ep' none status [] 0 })
  | asks {ep : Endpoint R} {transfer : Transfer} {req : SubmitRequest} {stage : Stage}
      (hlooks : Looks e key ep) (hflight : ep.inFlight = [])
      (hcurrent : (Ring.current ep.ring).2 = some transfer)
      (hasks : Asks e.session.device.speed key ep transfer req stage)
      (h : forall pump fill e' inFlight,
        e.submit (pump false) key (Ring.current ep.ring).1 req stage = (e', inFlight) ->
        pumpCode pump fill offline key e = if inFlight = true then fill e' else e')

theorem Looks.flights_round {key : EndpointKey} {e : Engine R} {ep : Endpoint R}
    (hlooks : Looks e key ep) {front : InFlight} {rest : List InFlight}
    (hflight : ep.inFlight = front :: rest) (offline : Bool) : PumpRound offline key e := by
  by_cases hhead : front.message = (Ring.current ep.ring).1
  · cases hresult : front.result with
    | some result =>
        apply PumpRound.result hlooks hflight hhead hresult
        intro pump fill
        exact pumpCode_result pump fill offline hlooks hflight hhead hresult
    | none =>
        cases offline with
        | true =>
            apply PumpRound.rests
            intro pump fill
            exact pumpCode_waiting pump fill true hlooks hflight hhead hresult
        | false =>
            apply PumpRound.fills hlooks hflight hhead hresult
            intro pump fill
            exact pumpCode_waiting pump fill false hlooks hflight hhead hresult
  · apply PumpRound.stale hlooks hflight hhead
    intro pump fill
    exact pumpCode_stale pump fill offline hlooks hflight hhead

theorem Looks.head_round {key : EndpointKey} {e : Engine R} {ep : Endpoint R}
    (hlooks : Looks e key ep) (hflight : ep.inFlight = []) (offline : Bool) :
    PumpRound offline key e := by
  cases offline with
  | true =>
      apply PumpRound.rests
      intro pump fill
      exact pumpCode_offline pump fill hlooks.lookup hflight
  | false =>
      cases hcurrent : (Ring.current ep.ring).2 with
      | none =>
          apply PumpRound.rests
          intro pump fill
          exact pumpCode_exhausted pump fill false hlooks hflight hcurrent
      | some transfer =>
          rcases e.headRequest_cases key ep transfer with
            ⟨ep', status, hsettles, hhead⟩ | hhead | ⟨req, stage, hasks, hhead⟩
          · apply PumpRound.completes hlooks hflight hcurrent hsettles
            intro pump fill
            exact pumpCode_completes pump fill hlooks hflight hcurrent hhead
          · apply PumpRound.rests
            intro pump fill
            exact pumpCode_rests pump fill hlooks hflight hcurrent hhead
          · apply PumpRound.asks hlooks hflight hcurrent hasks
            intro pump fill e' inFlight hsubmit
            exact pumpCode_asks pump fill hlooks hflight hcurrent hhead hsubmit

theorem pumpCode_round (offline : Bool) (key : EndpointKey) (e : Engine R) :
    PumpRound offline key e := by
  cases hstuck : e.stuck with
  | true =>
      apply PumpRound.rests
      intro pump fill
      exact pumpCode_stuck pump fill offline hstuck
  | false =>
      cases hep : e.endpoints.lookup key with
      | none =>
          apply PumpRound.rests
          intro pump fill
          exact pumpCode_absent pump fill offline hep
      | some ep =>
          cases hactive : Ring.active ep.ring with
          | false =>
              apply PumpRound.rests
              intro pump fill
              exact pumpCode_inactive pump fill offline hep hactive
          | true =>
              have hlooks : Looks e key ep := ⟨hstuck, hep, hactive⟩
              cases hflight : ep.inFlight with
              | cons front rest => exact hlooks.flights_round hflight offline
              | nil => exact hlooks.head_round hflight offline

/-!
# The pump is a chain of actions
-/

theorem fillLoop_actions {pump : Engine R -> Engine R} {key : EndpointKey}
    (hpump : forall e, Actions key e (pump e)) (rounds : Nat) (e : Engine R) :
    Actions key e (fillLoop pump key rounds e) := by
  induction rounds generalizing e with
  | zero => exact ReflTransGen.refl
  | succ rounds ih =>
      rw [fillLoop_succ]
      cases fillCode_round key e with
      | rests h =>
          rw [h]
      | @asks ep message transfer req stage hep hsome hdepth hnone hpeek hreq h =>
          have hsubmit := submit_actions hpump hep
            (Target.ahead hsome hdepth hnone hpeek hreq)
          cases hdone : e.submit pump key message req stage with
          | mk e' inFlight =>
              rw [hdone] at hsubmit
              rw [h _ _ _ _ hdone]
              split
              · exact hsubmit.trans (ih e')
              · exact hsubmit

theorem pumpLoop_actions (rounds : Nat) (offline : Bool) (key : EndpointKey)
    (e : Engine R) : Actions key e (pumpLoop rounds offline key e) := by
  induction rounds generalizing offline e with
  | zero =>
      apply Actions.single
      apply Action.idle
      exact Moves.quiet rfl (Session.Reaches.refl _) fun _ => rfl
  | succ rounds ih =>
      rw [pumpLoop_succ]
      cases pumpCode_round offline key e with
      | rests h =>
          rw [h]
      | stale hlooks hflight hmoved h =>
          have hstale := Action.stale hlooks.lookup hlooks.active hflight hmoved
            (e.dropStale_moves key _ Cause.stale)
          rw [h]
          exact (Actions.single hstale).trans (ih _ _)
      | result hlooks hflight hhead hresult h =>
          have happly := apply_action hlooks.lookup hlooks.active hflight hhead hresult
          rw [h]
          split
          · exact (Actions.single happly).trans (ih _ _)
          · exact Actions.single happly
      | fills hlooks hflight hhead hresult h =>
          rw [h]
          exact fillLoop_actions (fun e => ih false e) 32 e
      | completes hlooks hflight hcurrent hsettles h =>
          have hsettled := Action.settled hlooks.lookup hlooks.active hflight hcurrent
            hsettles (Moves.same e _)
          rw [h]
          split
          · exact (Actions.single hsettled).trans (ih _ _)
          · exact Actions.single hsettled
      | @asks ep transfer req stage hlooks hflight hcurrent hasks h =>
          have hsubmit := submit_actions (fun e => ih false e) hlooks.lookup
            (Target.head hflight hlooks.active (Prod.ext rfl hcurrent) hasks)
          cases hdone : e.submit (pumpLoop rounds false key) key (Ring.current ep.ring).1 req
              stage with
          | mk e' inFlight =>
              rw [hdone] at hsubmit
              rw [h _ _ _ _ hdone]
              split
              · exact hsubmit.trans (fillLoop_actions (fun e => ih false e) 32 e')
              · exact hsubmit

theorem pump_actions (rounds : Nat) (e : Engine R) (key : EndpointKey) :
    Actions key e (e.pump rounds key) :=
  pumpLoop_actions rounds false key e

/-!
# Rounds of the loop
-/

theorem pumpLoop_stuck {e : Engine R} (h : e.stuck = true) (rounds : Nat) (offline : Bool)
    (key : EndpointKey) : pumpLoop rounds offline key e = e := by
  cases rounds with
  | zero =>
      rw [pumpLoop, ← h]
  | succ rounds =>
      rw [pumpLoop, if_pos h]

theorem pumpLoop_result {e : Engine R} {key : EndpointKey} {ep : Endpoint R}
    (h : Looks e key ep) {front : InFlight} {rest : List InFlight}
    (hflight : ep.inFlight = front :: rest)
    (hhead : front.message = (Ring.current ep.ring).1) {result : TransferResult}
    (hresult : front.result = some result) (rounds : Nat) (offline : Bool) :
    pumpLoop (rounds + 1) offline key e =
      if (settle key { ep with inFlight := rest } front result).2.1.accepted = true then
        pumpLoop rounds (offline || decide ((front.outcome result).1 = Status.offline)) key
          (e.apply key { ep with inFlight := rest } front result).1
      else
        (e.apply key { ep with inFlight := rest } front result).1 := by
  rw [pumpLoop_succ]
  exact pumpCode_result _ _ offline h hflight hhead hresult

theorem pumpLoop_waiting {e : Engine R} {key : EndpointKey} {ep : Endpoint R}
    (h : Looks e key ep) {front : InFlight} {rest : List InFlight}
    (hflight : ep.inFlight = front :: rest)
    (hhead : front.message = (Ring.current ep.ring).1) (hresult : front.result = none)
    (rounds : Nat) (offline : Bool) :
    pumpLoop (rounds + 1) offline key e =
      if offline = true then e else e.fill (pumpLoop rounds false key) key := by
  rw [pumpLoop_succ]
  exact pumpCode_waiting _ _ offline h hflight hhead hresult

theorem pumpLoop_offline {e : Engine R} {key : EndpointKey} {ep : Endpoint R}
    (hep : e.endpoints.lookup key = some ep) (hflight : ep.inFlight = []) (rounds : Nat) :
    pumpLoop (rounds + 1) true key e = e := by
  rw [pumpLoop_succ]
  exact pumpCode_offline _ _ hep hflight

theorem fill_of_parked {e : Engine R} {key : EndpointKey} {ep : Endpoint R}
    (hep : e.endpoints.lookup key = some ep)
    (hparked : exists f, f ∈ ep.inFlight ∧ f.result.isSome = true)
    (pump : Engine R -> Engine R) : e.fill pump key = e := by
  have hany : ep.inFlight.any (fun f => f.result.isSome) = true :=
    List.any_eq_true.mpr hparked
  rw [fill, fillLoop, hep]
  exact if_pos (Or.inr (Or.inr hany))

end Engine
end UsbIp
