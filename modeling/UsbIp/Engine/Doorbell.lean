import UsbIp.Engine.Rounds
import UsbIp.Engine.Views

/-!
# Doorbells

The host may ring a doorbell as often as it likes.  A run of the pump ends where
another one would do nothing: the queue of the endpoint is as long as it can be, or
its first URB is still on the server, or the head message is none of the pump's
business.  This holds as long as nobody else uses the session, which must be open,
and the ring accepts what is completed.
-/

namespace UsbIp
namespace Engine

open Foundation
open Protocol
open Hci
open Client (SubmitRequest TransferError TransferResult)

variable {R : Type} [Ring R]

/-!
# Nobody else uses the session
-/

structure Quiet (e : Engine R) : Prop where
  schedule : e.schedule = []
  opened : e.session.shared.state.closed = none

omit [Ring R] in
theorem Quiet.acquire {e : Engine R} (h : Quiet e) : e.acquire = e := by
  unfold Engine.acquire
  rw [h.schedule]
  show { e with session := e.session, schedule := [] } = e
  rw [← h.schedule]

/-- The engine waits for a number only if none is free. -/
def Alive (e : Engine R) : Prop :=
  e.stuck = true -> e.session.shared.state.Full

omit [Ring R] in
theorem Alive.of_running {e : Engine R} (h : e.stuck = false) : Alive e := by
  intro hstuck
  rw [h] at hstuck
  cases hstuck

omit [Ring R] in
theorem Quiet.unlink {e : Engine R} (h : Quiet e) (n : UInt32) : Quiet (e.unlink n) := by
  unfold Engine.unlink
  split
  · exact h
  · dsimp only
    rw [h.acquire]
    split
    · rename_i shared hunlink
      constructor
      · exact h.schedule
      · rcases Client.Shared.unlink_cases hunlink with ⟨rfl, _⟩ | ⟨p, seqnum, _, hopen, _, _, rfl⟩
        · exact h.opened
        · exact hopen
    · exact ⟨h.schedule, h.opened⟩

omit [Ring R] in
theorem Alive.unlink {e : Engine R} (h : Alive e) (n : UInt32) : Alive (e.unlink n) := by
  unfold Engine.unlink
  split
  · exact h
  · rename_i hrunning
    dsimp only
    split
    · exact fun hstuck => absurd hstuck hrunning
    · rename_i hunlink
      intro _
      exact Client.Shared.unlink_none hunlink

omit [Ring R] in
theorem Quiet.unlinkAll {e : Engine R} (h : Quiet e) (flights : List InFlight) :
    Quiet (e.unlinkAll flights) := by
  unfold Engine.unlinkAll
  apply invariant_of_step (I := Quiet)
  · intro e f hok
    split
    · exact hok.unlink f.seqnum
    · exact hok
  · exact h

omit [Ring R] in
theorem Alive.unlinkAll {e : Engine R} (h : Alive e) (flights : List InFlight) :
    Alive (e.unlinkAll flights) := by
  unfold Engine.unlinkAll
  apply invariant_of_step (I := Alive)
  · intro e f hok
    split
    · exact hok.unlink f.seqnum
    · exact hok
  · exact h

omit [Ring R] in
theorem Quiet.dropStale {e : Engine R} (h : Quiet e) (key : EndpointKey) (ep : Endpoint R)
    (cause : Cause) : Quiet (e.dropStale key ep cause) := by
  apply Quiet.unlinkAll
  exact ⟨h.schedule, h.opened⟩

omit [Ring R] in
theorem Alive.dropStale {e : Engine R} (h : Alive e) (key : EndpointKey) (ep : Endpoint R)
    (cause : Cause) : Alive (e.dropStale key ep cause) := by
  apply Alive.unlinkAll
  exact h

/-- What a submission can come to when nobody else uses the session. -/
inductive Submits (e : Engine R) (key : EndpointKey) (ep : Endpoint R) (message : UInt64)
    (req : SubmitRequest) (stage : Stage) : Prop where
  /-- The session has no number left, and the call does not return. -/
  | full (hfull : e.session.shared.state.Full)
      (h : forall pump, e.submit pump key message req stage =
        ({ e with stuck := true }, false))
  | accepted (e' : Engine R) (flight : InFlight) (hquiet : Quiet e')
      (hstuck : e'.stuck = e.stuck)
      (hlookup : e'.endpoints.lookup key =
        some { ep with inFlight := ep.inFlight ++ [flight] })
      (hmessage : flight.message = message) (hresult : flight.result = none)
      (h : forall pump, e.submit pump key message req stage = (e', true))
  /-- The request itself is not valid. -/
  | refused (hahead : ep.inFlight ≠ [] -> forall pump,
        e.submit pump key message req stage = (e, false))
      (hhead : ep.inFlight = [] -> forall pump, e.submit pump key message req stage =
        (if (Ring.complete ep.ring Status.error [] 0).2.isOk = true then
          pump { e with toCore := e.toCore.complete key ep none Status.error [] 0 }
        else
          { e with toCore := e.toCore.complete key ep none Status.error [] 0 }, false))

theorem Quiet.submits {e : Engine R} (hq : Quiet e) {key : EndpointKey} {ep : Endpoint R}
    (hep : e.endpoints.lookup key = some ep) (message : UInt64) (req : SubmitRequest)
    (stage : Stage) : Submits e key ep message req stage := by
  have hacquire := hq.acquire
  cases hsubmit : e.session.shared.submit req with
  | none =>
      apply Submits.full (Client.Shared.submit_none hsubmit)
      intro pump
      simp only [submit, hep, hacquire, hsubmit]
  | some found =>
      rcases found with ⟨answer, shared⟩
      cases answer with
      | ok accepted =>
          rcases accepted with ⟨seqnum, reply⟩
          have hopen : shared.state.closed = none := by
            rcases Client.Shared.submit_cases hsubmit with ⟨_, herr, _⟩ | ⟨_, _, _, h, _, rfl⟩
            · cases herr
            · exact h
          have hpush : forall pump, e.submit pump key message req stage =
              ({ e with
                  session := { e.session with shared := shared }
                  toCore := e.toCore.push key ep
                    (newFlight e.nextToken message req stage seqnum) reply
                    (req.command seqnum e.session.shared.devid) }, true) := by
            intro pump
            simp only [submit, hep, hacquire, hsubmit]
          refine Submits.accepted _ (newFlight e.nextToken message req stage seqnum)
            ?_ ?_ ?_ ?_ ?_ hpush
          · exact ⟨hq.schedule, hopen⟩
          · rfl
          · exact push_lookup e.toCore key ep _ reply _
          · rfl
          · rfl
      | error err =>
          have hinvalid : errorStatus err = Status.error := by
            rcases Client.Shared.submit_error_open hsubmit hq.opened with ⟨text, rfl⟩
            rfl
          apply Submits.refused
          · intro hne pump
            have hempty : ep.inFlight.isEmpty = false := by simpa using hne
            simp only [submit, hep, hacquire, hsubmit, hempty, Bool.false_eq_true, if_false]
          · intro hempty pump
            simp only [submit, hep, hacquire, hsubmit, hempty, List.isEmpty_nil, if_true,
              complete, hinvalid]
            simp

/-!
# Reading ahead
-/

def Filled (e : Engine R) (key : EndpointKey) : Prop :=
  forall pump rounds, fillLoop pump key rounds e = e

inductive Fills (e : Engine R) (key : EndpointKey) (ep : Endpoint R) : Prop where
  | filled (h : Filled e key)
  | full (hfull : e.session.shared.state.Full)
      (h : forall pump rounds,
        fillLoop pump key (rounds + 1) e = { e with stuck := true })
  | more (e' : Engine R) (flight : InFlight) (hquiet : Quiet e')
      (hstuck : e'.stuck = e.stuck)
      (hlookup : e'.endpoints.lookup key =
        some { ep with inFlight := ep.inFlight ++ [flight] })
      (hroom : ep.inFlight.length < depth ep.info.kind)
      (h : forall pump rounds, fillLoop pump key (rounds + 1) e = fillLoop pump key rounds e')

theorem Quiet.fills {e : Engine R} (hq : Quiet e) {key : EndpointKey} {ep : Endpoint R}
    (hep : e.endpoints.lookup key = some ep) (hsome : ep.inFlight ≠ []) :
    Fills e key ep := by
  cases fillCode_round key e with
  | rests h =>
      apply Fills.filled
      intro pump rounds
      cases rounds with
      | zero => rfl
      | succ rounds => exact h _ _
  | @asks ep' message transfer req stage hep' _ hdepth _ _ _ h =>
      have hsame : ep' = ep := Option.some.inj (hep'.symm.trans hep)
      subst hsame
      cases hq.submits hep message req stage with
      | full hfull hsubmit =>
          apply Fills.full hfull
          intro pump rounds
          exact h _ _ _ _ (hsubmit pump)
      | accepted e' flight hquiet hstuck hlookup _ _ hsubmit =>
          apply Fills.more e' flight hquiet hstuck hlookup hdepth
          intro pump rounds
          exact h _ _ _ _ (hsubmit pump)
      | refused hahead _ =>
          apply Fills.filled
          intro pump rounds
          cases rounds with
          | zero => rfl
          | succ rounds => exact h _ _ _ _ (hahead hsome pump)

/--
Enough rounds of `fill` leave nothing to be read ahead. The first URB stays the
first, and nothing of the endpoint but its queue changes.
-/
theorem fillLoop_filled {e : Engine R} (hq : Quiet e) (hrunning : e.stuck = false)
    {key : EndpointKey} {ep : Endpoint R} (hep : e.endpoints.lookup key = some ep)
    {front : InFlight} {rest : List InFlight} (hflight : ep.inFlight = front :: rest)
    (pump : Engine R -> Engine R) {rounds : Nat}
    (hrounds : depth ep.info.kind ≤ ep.inFlight.length + rounds) :
    (fillLoop pump key rounds e).stuck = true ∨
      Filled (fillLoop pump key rounds e) key ∧
        exists rest', (fillLoop pump key rounds e).endpoints.lookup key =
          some { ep with inFlight := front :: rest' } := by
  induction rounds generalizing e ep rest with
  | zero =>
      refine Or.inr ⟨?_, rest, ?_⟩
      · intro pump rounds
        cases rounds with
        | zero => rfl
        | succ rounds =>
            rw [fillLoop, fillLoop, hep]
            exact if_pos (Or.inr (Or.inl hrounds))
      · rw [fillLoop, hep, ← hflight]
  | succ rounds ih =>
      cases hq.fills hep (by simp [hflight]) with
      | filled h =>
          rw [h pump (rounds + 1)]
          exact Or.inr ⟨h, rest, by rw [hep, ← hflight]⟩
      | full hfull h =>
          rw [h pump rounds]
          exact Or.inl rfl
      | more e' flight hquiet hstuck hlookup hroom h =>
          have hqueue : ep.inFlight ++ [flight] = front :: (rest ++ [flight]) := by
            rw [hflight]
            rfl
          rw [h pump rounds]
          apply ih hquiet (hstuck.trans hrunning) hlookup hqueue
          simp only [List.length_append, List.length_singleton]
          omega

/-!
# Where the pump ends
-/

/-- Another run of the pump does nothing. -/
def Settled (key : EndpointKey) (e : Engine R) : Prop :=
  forall rounds, pumpLoop (rounds + 1) false key e = e

theorem depth_le (kind : EndpointKind) : depth kind ≤ 32 := by
  cases kind <;> decide

theorem fill_settled {e : Engine R} (hq : Quiet e) {key : EndpointKey} {ep : Endpoint R}
    (hlooks : Looks e key ep) {front : InFlight} {rest : List InFlight}
    (hflight : ep.inFlight = front :: rest)
    (hhead : front.message = (Ring.current ep.ring).1) (hresult : front.result = none)
    (pump : Engine R -> Engine R) :
    Settled key (e.fill pump key) := by
  have hfill := fillLoop_filled hq hlooks.running hlooks.lookup hflight pump
    (Nat.le_trans (depth_le ep.info.kind) (Nat.le_add_left 32 _))
  intro rounds
  cases hstuck : (e.fill pump key).stuck with
  | true => exact pumpLoop_stuck hstuck (rounds + 1) false key
  | false =>
      rcases hfill with hfull | ⟨hfilled, rest', hlookup⟩
      · rw [fill, hfull] at hstuck
        cases hstuck
      · have hlooks' : Looks (e.fill pump key) key { ep with inFlight := front :: rest' } :=
          ⟨hstuck, hlookup, hlooks.active⟩
        rw [pumpLoop_waiting hlooks' rfl hhead hresult, if_neg Bool.false_ne_true]
        exact hfilled _ 32

def NoneOffline (key : EndpointKey) (e : Engine R) : Prop :=
  forall f, f ∈ flightsOf e.toCore key ->
    forall result, f.result = some result -> (f.outcome result).1 ≠ Status.offline

omit [Ring R] in
theorem NoneOffline.of_empty {key : EndpointKey} {e : Engine R}
    (h : flightsOf e.toCore key = []) : NoneOffline key e := by
  intro f hf
  rw [h] at hf
  cases hf

/-- What one round of the pump can come to when nobody else uses the session. -/
inductive Round (key : EndpointKey) (rounds : Nat) (e : Engine R) : Prop where
  | ends (hsettled : Settled key (pumpLoop (rounds + 1) false key e))
  | rejected {c : Completion R} (hrejected : c.accepted = false)
      (hlog : (pumpLoop (rounds + 1) false key e).log = Event.completed c :: e.log)
  | goesOn (e' : Engine R) (ev : Event R) (hquiet : Quiet e')
      (hparked : NoneOffline key e') (hlog : e'.log = ev :: e.log)
      (h : pumpLoop (rounds + 1) false key e = pumpLoop rounds false key e')

theorem Round.of_still {key : EndpointKey} {e : Engine R}
    (h : forall more, pumpLoop (more + 1) false key e = e) (rounds : Nat) :
    Round key rounds e := by
  apply Round.ends
  rw [h]
  exact h

theorem Round.of_completes {key : EndpointKey} {e e' : Engine R} {c : Completion R}
    (hq : Quiet e') (hparked : NoneOffline key e')
    (hlog : e'.log = Event.completed c :: e.log) {rounds : Nat}
    (hround : pumpLoop (rounds + 1) false key e =
      if c.accepted = true then pumpLoop rounds false key e' else e') :
    Round key rounds e := by
  cases haccepted : c.accepted with
  | true =>
      rw [if_pos haccepted] at hround
      exact Round.goesOn e' _ hq hparked hlog hround
  | false =>
      rw [haccepted, if_neg Bool.false_ne_true] at hround
      apply Round.rejected haccepted
      rw [hround]
      exact hlog

theorem Round.of_head {key : EndpointKey} {e : Engine R} (hq : Quiet e)
    {ep' : Endpoint R} (hempty : ep'.inFlight = []) {status : Status} {rounds : Nat}
    (h : pumpLoop (rounds + 1) false key e =
      if (Ring.complete ep'.ring status [] 0).2.isOk = true then
        pumpLoop rounds false key
          { e with toCore := e.toCore.complete key ep' none status [] 0 }
      else
        { e with toCore := e.toCore.complete key ep' none status [] 0 }) :
    Round key rounds e := by
  have hquiet : Quiet { e with toCore := e.toCore.complete key ep' none status [] 0 } :=
    ⟨hq.schedule, hq.opened⟩
  have hparked :
      NoneOffline key { e with toCore := e.toCore.complete key ep' none status [] 0 } := by
    apply NoneOffline.of_empty
    rw [flightsOf_of_lookup (complete_lookup e.toCore key ep' none status [] 0)]
    exact hempty
  exact Round.of_completes hquiet hparked rfl h

theorem Quiet.round_result {key : EndpointKey} {e : Engine R} (hq : Quiet e)
    (hparked : NoneOffline key e) {ep : Endpoint R} (hlooks : Looks e key ep)
    {front : InFlight} {rest : List InFlight} (hflight : ep.inFlight = front :: rest)
    {result : TransferResult} (hresult : front.result = some result) {rounds : Nat}
    (hround : pumpLoop (rounds + 1) false key e =
      if (settle key { ep with inFlight := rest } front result).2.1.accepted = true then
        pumpLoop rounds (false || decide ((front.outcome result).1 = Status.offline)) key
          (e.apply key { ep with inFlight := rest } front result).1
      else
        (e.apply key { ep with inFlight := rest } front result).1) :
    Round key rounds e := by
  rw [NoneOffline, flightsOf_of_lookup hlooks.lookup, hflight] at hparked
  have hgone := hparked front List.mem_cons_self result hresult
  rw [decide_eq_false hgone, Bool.false_or, apply_settle] at hround
  refine Round.of_completes ?_ ?_ ?_ hround
  · exact ⟨hq.schedule, hq.opened⟩
  · have hput := Core.put_lookup e.toCore key key
      (settle key { ep with inFlight := rest } front result).1
    rw [if_pos rfl] at hput
    intro f hf
    change f ∈ flightsOf (e.toCore.put key _) key at hf
    rw [flightsOf_of_lookup hput, settle_inFlight] at hf
    exact hparked f (List.mem_cons_of_mem front hf)
  · rfl

theorem Quiet.round_asks {key : EndpointKey} {e : Engine R} (hq : Quiet e)
    {ep : Endpoint R} (hlooks : Looks e key ep) (hflight : ep.inFlight = [])
    {req : SubmitRequest} {stage : Stage} {rounds : Nat}
    (h : forall e' inFlight,
      e.submit (pumpLoop rounds false key) key (Ring.current ep.ring).1 req stage =
        (e', inFlight) ->
      pumpLoop (rounds + 1) false key e =
        if inFlight = true then e'.fill (pumpLoop rounds false key) key else e') :
    Round key rounds e := by
  cases hq.submits hlooks.lookup (Ring.current ep.ring).1 req stage with
  | full hfull hsubmit =>
      have hround := h _ _ (hsubmit _)
      apply Round.ends
      rw [hround]
      exact fun more => pumpLoop_stuck rfl (more + 1) false key
  | accepted e' flight hquiet hstuck hlookup hmessage hresult hsubmit =>
      have hround := h _ _ (hsubmit _)
      rw [hflight] at hlookup
      have hlooks' : Looks e' key { ep with inFlight := [flight] } :=
        ⟨hstuck.trans hlooks.running, hlookup, hlooks.active⟩
      have hfill := fill_settled hquiet hlooks' rfl hmessage hresult
        (pumpLoop rounds false key)
      rw [if_pos rfl] at hround
      rw [← hround] at hfill
      exact Round.ends hfill
  | refused _ hsubmit => exact Round.of_head hq hflight (h _ _ (hsubmit hflight _))

theorem Quiet.round {e : Engine R} (hq : Quiet e) {key : EndpointKey}
    (hparked : NoneOffline key e) (rounds : Nat) : Round key rounds e := by
  cases pumpCode_round false key e with
  | rests h =>
      apply Round.of_still
      intro more
      rw [pumpLoop_succ]
      exact h _ _
  | @stale ep front rest hlooks hflight hmoved h =>
      refine Round.goesOn _ _ (hq.dropStale key ep Cause.stale) ?_
        (dropStale_log e key ep Cause.stale) ?_
      · exact NoneOffline.of_empty (flightsOf_dropStale e key ep Cause.stale)
      · rw [pumpLoop_succ]
        exact h _ _
  | result hlooks hflight _ hresult h =>
      apply hq.round_result hparked hlooks hflight hresult
      rw [pumpLoop_succ]
      exact h _ _
  | fills hlooks hflight hhead hresult h =>
      have hfill := fill_settled hq hlooks hflight hhead hresult (pumpLoop rounds false key)
      have hround : pumpLoop (rounds + 1) false key e =
          e.fill (pumpLoop rounds false key) key := by
        rw [pumpLoop_succ]
        exact h _ _
      rw [← hround] at hfill
      exact Round.ends hfill
  | completes hlooks hflight hcurrent hsettles h =>
      apply Round.of_head hq (hsettles.frame.right.left.trans hflight)
      rw [pumpLoop_succ]
      exact h _ _
  | asks hlooks hflight hcurrent _ h =>
      apply hq.round_asks hlooks hflight
      intro e' inFlight hsubmit
      rw [pumpLoop_succ]
      exact h _ _ _ _ hsubmit

/-!
# Whole runs of the pump
-/

def AcceptedSince (older log : List (Event R)) : Prop :=
  forall newer, log = newer ++ older ->
    forall c, Event.completed c ∈ newer -> c.accepted = true

omit [Ring R] in
theorem AcceptedSince.later {older log : List (Event R)} {ev : Event R}
    (h : AcceptedSince older log) : AcceptedSince (ev :: older) log := by
  intro newer hlog c hc
  apply h (newer ++ [ev])
  · rw [hlog, List.append_assoc]
    rfl
  · exact List.mem_append_left _ hc

/-- A run of the pump leaves nothing for another one to do. -/
theorem pumpLoop_settled {e : Engine R} (hq : Quiet e) {key : EndpointKey}
    (hparked : NoneOffline key e) {rounds : Nat}
    (haccepted : AcceptedSince e.log (pumpLoop rounds false key e).log) :
    Settled key (pumpLoop rounds false key e) := by
  induction rounds generalizing e with
  | zero =>
      intro more
      exact pumpLoop_stuck rfl (more + 1) false key
  | succ rounds ih =>
      cases hq.round hparked rounds with
      | ends hsettled => exact hsettled
      | rejected hrejected hlog =>
          rw [hlog] at haccepted
          rw [haccepted [_] rfl _ List.mem_cons_self] at hrejected
          cases hrejected
      | goesOn e' ev hquiet hparked' hlog h =>
          rw [h] at haccepted ⊢
          apply ih hquiet hparked'
          rw [hlog]
          exact haccepted.later

/--
Ringing a doorbell again changes nothing: after any number of doorbells the engine
is where the first one has left it.
-/
theorem doorbells_idempotent (rounds : Nat) (e : Engine R) (key : EndpointKey)
    (hschedule : e.schedule = []) (hopen : e.session.shared.state.closed = none)
    (hparked : NoneOffline key e)
    (haccepted : AcceptedSince e.log (e.pump rounds key).log) (n : Nat) :
    run rounds e (List.replicate (n + 1) (Op.doorbell key)) = e.pump rounds key := by
  have hagain : (e.pump rounds key).pump rounds key = e.pump rounds key := by
    cases hstuck : e.stuck with
    | true =>
        unfold pump
        rw [pumpLoop_stuck hstuck, pumpLoop_stuck hstuck]
    | false =>
        cases rounds with
        | zero => exact pumpLoop_stuck rfl 0 false key
        | succ rounds =>
            exact pumpLoop_settled ⟨hschedule, hopen⟩ hparked haccepted rounds
  have hfirst : step rounds e (Op.doorbell key) = e.pump rounds key := by
    rw [step]
    split
    · rename_i hstuck
      exact (pumpLoop_stuck hstuck rounds false key).symm
    · rfl
  have hmore : step rounds (e.pump rounds key) (Op.doorbell key) = e.pump rounds key := by
    rw [step]
    split
    · rfl
    · exact hagain
  induction n with
  | zero => exact hfirst
  | succ n ih =>
      rw [List.replicate_succ', run, List.foldl_append]
      rw [run] at ih
      rw [ih]
      exact hmore

def linkedReads : QueueRing :=
  { reads 2 with
    slots := { id := 9, transfer := Transfer.link true, buffer := [],
               buffer_length := by decide } :: (reads 2).slots }

theorem doorbells_idempotent_linked_reads :
    exists s t c,
      let e := run 8 (start sampleDevice [])
        [Op.addEndpoint (1, 0x81) { kind := .bulk, maxPacketSize := 512, bInterval := 0 }
          linkedReads]
      (e.pump 8 (1, 0x81)).log =
          [Event.submitted s, Event.submitted t, Event.completed c] ++ e.log ∧
        run 8 e [Op.doorbell (1, 0x81), Op.doorbell (1, 0x81), Op.doorbell (1, 0x81)] =
          e.pump 8 (1, 0x81) := by
  have hpump : exists s t c,
      let e := run 8 (start sampleDevice [])
        [Op.addEndpoint (1, 0x81) { kind := .bulk, maxPacketSize := 512, bInterval := 0 }
          linkedReads]
      (e.pump 8 (1, 0x81)).log =
          [Event.submitted s, Event.submitted t, Event.completed c] ++ e.log ∧
        c.accepted = true :=
    ⟨_, _, _, rfl, rfl⟩
  rcases hpump with ⟨s, t, c, hlog, hc⟩
  refine ⟨s, t, c, hlog, ?_⟩
  apply doorbells_idempotent 8 _ (1, 0x81) rfl rfl _ _ 2
  · apply NoneOffline.of_empty
    rfl
  · intro newer hnewer d hd
    have hsame := List.append_cancel_right (hnewer.symm.trans hlog)
    have hd' : d = c := by simpa [hsame] using hd
    rw [hd']
    exact hc

end Engine
end UsbIp
