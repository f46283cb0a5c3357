import Mathlib.Logic.Relation
import UsbIp.Client.Tracking
import UsbIp.Engine.System

/-!
# What the pump can do

This module says once what a single action of the pump can do, guards included,
and that the pump is a chain of such actions.  The session goes on while the
engine works, but only by steps of its own; an operation that gives up URBs
leaves every one of them that is still on the server with an unlink under way.
-/

namespace UsbIp
namespace Engine

open Foundation
open Protocol
open Hci
open Client (SubmitRequest TransferError TransferResult Session)
open Relation (ReflTransGen)

variable {R : Type}

/-!
# The engine's own state
-/

@[simp] theorem Core.put_lookup (c : Core R) (key k : EndpointKey) (ep : Endpoint R) :
    (c.put key ep).endpoints.lookup k =
      if k = key then some ep else c.endpoints.lookup k :=
  Table.lookup_insert_eq c.endpoints key k ep

@[simp] theorem Core.put_nextToken (c : Core R) (key : EndpointKey) (ep : Endpoint R) :
    (c.put key ep).nextToken = c.nextToken := rfl

@[simp] theorem Core.put_tasks (c : Core R) (key : EndpointKey) (ep : Endpoint R) :
    (c.put key ep).tasks = c.tasks := rfl

@[simp] theorem Core.put_log (c : Core R) (key : EndpointKey) (ep : Endpoint R) :
    (c.put key ep).log = c.log := rfl

@[simp] theorem Core.note_endpoints (c : Core R) (ev : Event R) :
    (c.note ev).endpoints = c.endpoints := rfl

@[simp] theorem Core.note_nextToken (c : Core R) (ev : Event R) :
    (c.note ev).nextToken = c.nextToken := rfl

@[simp] theorem Core.note_tasks (c : Core R) (ev : Event R) :
    (c.note ev).tasks = c.tasks := rfl

@[simp] theorem Core.note_log (c : Core R) (ev : Event R) :
    (c.note ev).log = ev :: c.log := rfl

@[simp] theorem flightsOf_put (c : Core R) (key k : EndpointKey) (ep : Endpoint R) :
    flightsOf (c.put key ep) k = if k = key then ep.inFlight else flightsOf c k := by
  unfold flightsOf
  rw [Core.put_lookup]
  split <;> rfl

@[simp] theorem flightsOf_note (c : Core R) (ev : Event R) (k : EndpointKey) :
    flightsOf (c.note ev) k = flightsOf c k := rfl

theorem flightsOf_of_lookup {c : Core R} {key : EndpointKey} {ep : Endpoint R}
    (h : c.endpoints.lookup key = some ep) : flightsOf c key = ep.inFlight := by
  simp [flightsOf, h]

theorem flightsOf_push {c : Core R} {key : EndpointKey} {ep : Endpoint R}
    (hep : c.endpoints.lookup key = some ep) (f : InFlight) (reply : Nat) (cmd : CmdSubmit)
    (k : EndpointKey) :
    flightsOf (c.push key ep f reply cmd) k =
      if k = key then flightsOf c key ++ [f] else flightsOf c k := by
  rw [Core.push, flightsOf_note, flightsOf_put, flightsOf_of_lookup hep]
  rfl

@[simp] theorem flightsOf_erase (c : Core R) (key k : EndpointKey) :
    flightsOf { c with endpoints := c.endpoints.erase key } k =
      if k = key then [] else flightsOf c k := by
  unfold flightsOf
  dsimp only
  rw [Table.lookup_erase_eq]
  split <;> rfl

/-!
# Unlinking
-/

/-- Those that were on the server and still are have an unlink under way. -/
def Cancelled (s s' : Session) (flights : List InFlight) : Prop :=
  forall f, f ∈ flights -> f.result = none ->
    forall p, s'.shared.state.submits.lookup f.seqnum = some p ->
      p.reply < s.shared.channels ->
      exists u, s'.shared.state.unlinks.lookup u = some f.seqnum

/--
The engine's own state becomes `c`, while the session goes on, and `flights` are
unlinked.
-/
structure Moves (e e' : Engine R) (c : Core R) (flights : List InFlight) : Prop where
  core : e'.toCore = c
  session : e.session.Reaches e'.session
  stuck : e.stuck = true -> e'.stuck = true
  cancels : e.session.Reachable -> e'.stuck = false ->
    Cancelled e.session e'.session flights

theorem Moves.quiet {e e' : Engine R} {c : Core R} (hcore : e'.toCore = c)
    (hsession : e.session.Reaches e'.session)
    (hstuck : e.stuck = true -> e'.stuck = true) : Moves e e' c [] where
  core := hcore
  session := hsession
  stuck := hstuck
  cancels := by
    intro _ _ f hf
    cases hf

theorem Moves.same (e : Engine R) (c : Core R) : Moves e { e with toCore := c } c [] :=
  Moves.quiet rfl (Session.Reaches.refl _) fun h => h

theorem Moves.not_stuck {e e' : Engine R} {c : Core R} {flights : List InFlight}
    (h : Moves e e' c flights) (hstuck : e'.stuck = false) : e.stuck = false := by
  cases hb : e.stuck with
  | false => rfl
  | true =>
      rw [h.stuck hb] at hstuck
      cases hstuck

theorem Moves.lookup {e e' : Engine R} {c : Core R} {flights : List InFlight}
    (h : Moves e e' c flights) {key : EndpointKey} {ep : Endpoint R}
    (hep : c.endpoints.lookup key = some ep) : e'.endpoints.lookup key = some ep := by
  rw [h.core]
  exact hep

theorem Moves.log {e e' : Engine R} {c : Core R} {flights : List InFlight}
    (h : Moves e e' c flights) : c.log = e'.log := by
  rw [h.core]

theorem acquire_reaches (e : Engine R) : e.session.Reaches e.acquire.session :=
  ⟨e.schedule.headD [], rfl⟩

/-- An unlink that returns leaves a registered transfer with an unlink under way. -/
theorem shared_unlink_covers {s s' : Client.Shared} {n : UInt32}
    (hok : s.state.TablesOk) (h : s.unlink n = some s') {p : Client.PendingSubmit}
    (hp : s'.state.submits.lookup n = some p) :
    exists u, s'.state.unlinks.lookup u = some n := by
  rcases Client.Shared.unlink_cases h with ⟨rfl, hskip⟩ | ⟨q, seqnum, _, _, _, _, rfl⟩
  · rcases hskip with habsent | hclosed | hunlink
    · exact absurd (Table.mem_iff_lookup.mpr ⟨p, hp⟩) habsent
    · rw [(hok.closed_empty hclosed).left] at hp
      simp at hp
    · exact hunlink
  · refine ⟨seqnum, ?_⟩
    rw [Client.Shared.registerUnlink, Table.lookup_insert_eq]
    exact if_pos rfl

theorem unlink_moves (e : Engine R) (n : UInt32) : Moves e (e.unlink n) e.toCore [] := by
  unfold unlink
  split
  · exact Moves.same e e.toCore
  · rename_i hstuck
    dsimp only
    split
    · rename_i shared hunlink
      refine Moves.quiet rfl ?_ fun h => absurd h hstuck
      have hstep := Session.Reaches.step e.acquire.session (Client.Step.unlink n)
      rw [Client.Session.step_unlink hunlink] at hstep
      exact e.acquire_reaches.trans hstep
    · exact Moves.quiet rfl e.acquire_reaches fun _ => rfl

theorem unlink_covers {e : Engine R} (hreach : e.session.Reachable) {n : UInt32}
    (hstuck : (e.unlink n).stuck = false) {p : Client.PendingSubmit}
    (hp : (e.unlink n).session.shared.state.submits.lookup n = some p) :
    exists u, (e.unlink n).session.shared.state.unlinks.lookup u = some n := by
  unfold unlink at hstuck hp ⊢
  split at hstuck
  · rename_i h
    rw [h] at hstuck
    cases hstuck
  · rename_i h
    rw [if_neg h] at hp ⊢
    dsimp only at hstuck hp ⊢
    split at hstuck
    · rename_i shared hunlink
      simp only [hunlink] at hp ⊢
      exact shared_unlink_covers
        (Client.Session.tablesOk (e.acquire_reaches.reachable hreach)) hunlink hp
    · cases hstuck

def unlinkOne (e : Engine R) (f : InFlight) : Engine R :=
  if f.result.isNone then e.unlink f.seqnum else e

theorem unlinkOne_moves (e : Engine R) (f : InFlight) :
    Moves e (e.unlinkOne f) e.toCore [] := by
  unfold unlinkOne
  split
  · exact e.unlink_moves f.seqnum
  · exact Moves.same e e.toCore

theorem unlinkAll_moves (e : Engine R) (flights : List InFlight) :
    Moves e (e.unlinkAll flights) e.toCore flights := by
  induction flights generalizing e with
  | nil => exact Moves.same e e.toCore
  | cons f flights ih =>
      have hone := e.unlinkOne_moves f
      have hrest := ih (e.unlinkOne f)
      change Moves e ((e.unlinkOne f).unlinkAll flights) e.toCore (f :: flights)
      refine ⟨hrest.core.trans hone.core, hone.session.trans hrest.session,
        fun h => hrest.stuck (hone.stuck h), ?_⟩
      intro hreach hstuck g hg hresult p hp hreply
      have hreach' := hone.session.reachable hreach
      have hlt : p.reply < (e.unlinkOne f).session.shared.channels :=
        Nat.lt_of_lt_of_le hreply hone.session.tracks.channels_le
      rcases List.mem_cons.mp hg with rfl | hg
      · have htracks := hrest.session.tracks
        have hp' := htracks.pending_back g.seqnum p hp hlt
        have hstuck' : (e.unlinkOne g).stuck = false := hrest.not_stuck hstuck
        have heq : e.unlinkOne g = e.unlink g.seqnum := by
          simp [unlinkOne, hresult]
        rw [heq] at hp' hstuck'
        rcases unlink_covers hreach hstuck' hp' with ⟨u, hu⟩
        rw [← heq] at hu
        exact htracks.unlinking_kept u g.seqnum p hu hp hlt
      · exact hrest.cancels hreach' hstuck g hg hresult p hp hlt

theorem unlinkAll_with (e : Engine R) (c : Core R) (flights : List InFlight) :
    Moves e (unlinkAll { e with toCore := c } flights) c flights :=
  let h := unlinkAll_moves { e with toCore := c } flights
  ⟨h.core, h.session, h.stuck, h.cancels⟩

theorem dropStale_moves (e : Engine R) (key : EndpointKey) (ep : Endpoint R)
    (cause : Cause) :
    Moves e (e.dropStale key ep cause) ((e.toCore.put key { ep with inFlight := [] }).note
      (Event.discarded key ep.inFlight cause)) ep.inFlight :=
  unlinkAll_with e _ ep.inFlight

theorem flightsOf_dropStale (e : Engine R) (key : EndpointKey) (ep : Endpoint R)
    (cause : Cause) : flightsOf (e.dropStale key ep cause).toCore key = [] := by
  rw [(e.dropStale_moves key ep cause).core, flightsOf_note, flightsOf_put, if_pos rfl]

theorem dropStale_log (e : Engine R) (key : EndpointKey) (ep : Endpoint R) (cause : Cause) :
    (e.dropStale key ep cause).log = Event.discarded key ep.inFlight cause :: e.log := by
  rw [(e.dropStale_moves key ep cause).core]
  rfl

/-!
# Finished URBs
-/

theorem applyStage_frame {ep ep' : Endpoint R} {stage : Stage} {data data' : Bytes}
    {length length' : UInt32} {hidden : Bool}
    (h : applyStage ep stage data length = (ep', data', length', hidden)) :
    ep'.ring = ep.ring ∧ ep'.inFlight = ep.inFlight ∧ ep'.info = ep.info := by
  have hfst : ep' = (applyStage ep stage data length).1 := by rw [h]
  rw [hfst]
  cases stage with
  | controlData =>
      simp only [applyStage]
      split
      · simp only [hideConfig]
        split
        · exact ⟨rfl, rfl, rfl⟩
        · split
          · split <;> exact ⟨rfl, rfl, rfl⟩
          · exact ⟨rfl, rfl, rfl⟩
      · exact ⟨rfl, rfl, rfl⟩
  | controlStatus => exact ⟨rfl, rfl, rfl⟩
  | normal => exact ⟨rfl, rfl, rfl⟩
  | isochronous => exact ⟨rfl, rfl, rfl⟩

/-!
# The head message

With nothing in flight, the head message is completed at once, or asks for a
URB, or neither.
-/

/-- Head messages that are completed without a URB, and what becomes of the endpoint. -/
inductive Settles (key : EndpointKey) (ep : Endpoint R) :
    Transfer -> Endpoint R -> Status -> Prop where
  | setup {bytes : Vector UInt8 8} (hcontrol : isControl key = true) :
      Settles key ep (.setup bytes)
        { ep with setup := some { bytes := bytes, dataDone := false } } Status.success
  | normal {length : UInt32} (hcontrol : isControl key = true)
      (hsetup : forall bytes, ep.setup ≠ some { bytes := bytes, dataDone := false }) :
      Settles key ep (.normal length) ep Status.error
  | status (hcontrol : isControl key = true)
      (hsetup : forall bytes, ep.setup ≠ some { bytes := bytes, dataDone := false }) :
      Settles key ep .status { ep with setup := none } Status.success
  | link : Settles key ep (.link true) ep Status.success
  | unexpected {transfer : Transfer}
      (hsetup : forall bytes, transfer = .setup bytes -> isControl key = false)
      (hstatus : transfer = .status -> isControl key = false)
      (hnormal : forall length, transfer ≠ .normal length)
      (hlink : forall needsResponse, transfer ≠ .link needsResponse)
      (hiso : forall length frame, transfer = .isochronous length frame ->
        isControl key = true) :
      Settles key ep transfer ep Status.error

theorem Settles.frame {key : EndpointKey} {ep ep' : Endpoint R} {transfer : Transfer}
    {status : Status} (h : Settles key ep transfer ep' status) :
    ep'.ring = ep.ring ∧ ep'.inFlight = ep.inFlight ∧ ep'.info = ep.info := by
  cases h <;> exact ⟨rfl, rfl, rfl⟩

variable [Ring R]

/-- Head messages that ask for a URB. -/
inductive Asks (speed : Speed) (key : EndpointKey) (ep : Endpoint R) :
    Transfer -> SubmitRequest -> Stage -> Prop where
  | controlData {length : UInt32} {bytes : Vector UInt8 8}
      (hcontrol : isControl key = true)
      (hsetup : ep.setup = some { bytes := bytes, dataDone := false }) :
      Asks speed key ep (.normal length)
        (controlRequest ep bytes (min length (wLength bytes).toUInt32)) Stage.controlData
  | controlStatus {bytes : Vector UInt8 8} (hcontrol : isControl key = true)
      (hsetup : ep.setup = some { bytes := bytes, dataDone := false }) :
      Asks speed key ep .status (controlRequest ep bytes 0) Stage.controlStatus
  | transfer {transfer : Transfer} {req : SubmitRequest} {stage : Stage}
      (hcontrol : isControl key = false)
      (hreq : dataRequest speed ep key 0 transfer = some (req, stage)) :
      Asks speed key ep transfer req stage

theorem headRequest_cases (e : Engine R) (key : EndpointKey) (ep : Endpoint R)
    (transfer : Transfer) :
    (exists ep' status, Settles key ep transfer ep' status ∧
      e.headRequest key ep transfer = e.completeHead key ep' status) ∨
      e.headRequest key ep transfer = (e, Next.stop) ∨
      exists req stage, Asks e.session.device.speed key ep transfer req stage ∧
        e.headRequest key ep transfer = (e, Next.submit req stage) := by
  delta headRequest
  cases transfer with
  | setup bytes =>
      cases hcontrol : isControl key with
      | true => exact Or.inl ⟨_, _, Settles.setup hcontrol, rfl⟩
      | false =>
          exact Or.inl ⟨ep, Status.error, Settles.unexpected (fun _ _ => hcontrol) (by simp)
            (by simp) (by simp) (by simp), rfl⟩
  | normal length =>
      cases hcontrol : isControl key with
      | true =>
          rcases hsetup : ep.setup with _ | ⟨bytes, dataDone⟩
          · exact Or.inl ⟨_, _, Settles.normal hcontrol (by simp [hsetup]), rfl⟩
          · cases dataDone with
            | true => exact Or.inl ⟨_, _, Settles.normal hcontrol (by simp [hsetup]), rfl⟩
            | false => exact Or.inr (Or.inr ⟨_, _, Asks.controlData hcontrol hsetup, rfl⟩)
      | false => exact Or.inr (Or.inr ⟨_, _, Asks.transfer hcontrol rfl, rfl⟩)
  | status =>
      cases hcontrol : isControl key with
      | true =>
          rcases hsetup : ep.setup with _ | ⟨bytes, dataDone⟩
          · exact Or.inl ⟨_, _, Settles.status hcontrol (by simp [hsetup]), rfl⟩
          · cases dataDone with
            | true => exact Or.inl ⟨_, _, Settles.status hcontrol (by simp [hsetup]), rfl⟩
            | false => exact Or.inr (Or.inr ⟨_, _, Asks.controlStatus hcontrol hsetup, rfl⟩)
      | false =>
          exact Or.inl ⟨ep, Status.error, Settles.unexpected (by simp) (fun _ => hcontrol)
            (by simp) (by simp) (by simp), rfl⟩
  | isochronous length frame =>
      cases hcontrol : isControl key with
      | true =>
          exact Or.inl ⟨ep, Status.error, Settles.unexpected (by simp) (by simp) (by simp)
            (by simp) (fun _ _ _ => hcontrol), rfl⟩
      | false => exact Or.inr (Or.inr ⟨_, _, Asks.transfer hcontrol rfl, rfl⟩)
  | link needsResponse =>
      cases needsResponse with
      | true => exact Or.inl ⟨_, _, Settles.link, rfl⟩
      | false => exact Or.inr (Or.inl rfl)
  | other type =>
      exact Or.inl ⟨ep, Status.error, Settles.unexpected (by simp) (by simp) (by simp)
        (by simp) (by simp), rfl⟩

/-!
# Single actions
-/

/-- Messages for which a URB may be submitted: the head, or the next one to read ahead. -/
inductive Target (speed : Speed) (key : EndpointKey) (ep : Endpoint R) (message : UInt64)
    (req : SubmitRequest) (stage : Stage) : Prop where
  | head {transfer : Transfer} (hempty : ep.inFlight = [])
      (hactive : Ring.active ep.ring = true)
      (hcurrent : Ring.current ep.ring = (message, some transfer))
      (hasks : Asks speed key ep transfer req stage)
  | ahead {transfer : Transfer} (hsome : ep.inFlight ≠ [])
      (hdepth : ep.inFlight.length < depth ep.info.kind)
      (hnone : forall f, f ∈ ep.inFlight -> f.result = none)
      (hpeek : Ring.peek ep.ring ep.inFlight.length = some (message, transfer))
      (hreq : dataRequest speed ep key ep.inFlight.length transfer = some (req, stage))

/-- One action of the pump on an endpoint. -/
inductive Action (key : EndpointKey) (e e' : Engine R) : Prop where
  /-- Only the session goes on. -/
  | idle (h : Moves e e' e.toCore [])
  /-- The URBs in flight are not for the head message. -/
  | stale {ep : Endpoint R} {front : InFlight} {rest : List InFlight}
      (hep : e.endpoints.lookup key = some ep) (hactive : Ring.active ep.ring = true)
      (hflight : ep.inFlight = front :: rest)
      (hmoved : front.message ≠ (Ring.current ep.ring).1)
      (h : Moves e e' ((e.toCore.put key { ep with inFlight := [] }).note
        (Event.discarded key ep.inFlight Cause.stale)) ep.inFlight)
  /-- The result of the first URB completes the head message. -/
  | applied {ep ep' : Endpoint R} {front : InFlight} {rest : List InFlight}
      {result : TransferResult} {data : Bytes} {length : UInt32} {hidden : Bool}
      (hep : e.endpoints.lookup key = some ep) (hactive : Ring.active ep.ring = true)
      (hflight : ep.inFlight = front :: rest)
      (hhead : front.message = (Ring.current ep.ring).1)
      (hresult : front.result = some result)
      (hstage : applyStage { ep with inFlight := rest } front.stage
        (if front.direction = Direction.in then (front.outcome result).2.1 else [])
        (front.outcome result).2.2 = (ep', data, length, hidden))
      (h : Moves e e' (e.toCore.complete key ep' (some front) (front.outcome result).1
        data length) [])
  /-- The head message is completed without a URB. -/
  | settled {ep ep' : Endpoint R} {transfer : Transfer} {status : Status}
      (hep : e.endpoints.lookup key = some ep) (hactive : Ring.active ep.ring = true)
      (hempty : ep.inFlight = []) (hcurrent : (Ring.current ep.ring).2 = some transfer)
      (hsettles : Settles key ep transfer ep' status)
      (h : Moves e e' (e.toCore.complete key ep' none status [] 0) [])
  /-- The session accepts a URB. -/
  | submitted {ep : Endpoint R} {message : UInt64} {req : SubmitRequest} {stage : Stage}
      {s : Session} {seqnum : UInt32} {reply : Nat} {shared : Client.Shared}
      (hep : e.endpoints.lookup key = some ep)
      (htarget : Target e.session.device.speed key ep message req stage)
      (hs : e.session.Reaches s)
      (hsubmit : s.shared.submit req = some (.ok (seqnum, reply), shared))
      (hsession : e'.session = { s with shared := shared })
      (h : Moves e e' (e.toCore.push key ep
        (newFlight e.nextToken message req stage seqnum) reply
        (req.command seqnum s.shared.devid)) [])
  /-- The session refuses a URB for the head message. -/
  | refused {ep : Endpoint R} {message : UInt64} {transfer : Transfer}
      {req : SubmitRequest} {stage : Stage} {err : TransferError} {shared : Client.Shared}
      (hep : e.endpoints.lookup key = some ep) (hactive : Ring.active ep.ring = true)
      (hempty : ep.inFlight = [])
      (hcurrent : Ring.current ep.ring = (message, some transfer))
      (hasks : Asks e.session.device.speed key ep transfer req stage)
      (hsubmit : e'.session.shared.submit req = some (.error err, shared))
      (h : Moves e e' (e.toCore.complete key ep none (errorStatus err) [] 0) [])

theorem Action.reaches {key : EndpointKey} {e e' : Engine R} (h : Action key e e') :
    e.session.Reaches e'.session := by
  cases h with
  | idle h => exact h.session
  | stale _ _ _ _ h => exact h.session
  | applied _ _ _ _ _ _ h => exact h.session
  | settled _ _ _ _ _ h => exact h.session
  | submitted _ _ _ _ _ h => exact h.session
  | refused _ _ _ _ _ _ h => exact h.session

abbrev Actions (key : EndpointKey) : Engine R -> Engine R -> Prop :=
  ReflTransGen (Action key)

theorem Actions.single {key : EndpointKey} {e e' : Engine R} (h : Action key e e') :
    Actions key e e' :=
  ReflTransGen.single h

/-- What every action keeps, every number of actions keeps. -/
theorem Actions.invariant {key : EndpointKey} {I : Engine R -> Prop}
    (hstep : forall e e', Action key e e' -> I e -> I e')
    {e e' : Engine R} (h : Actions key e e') (hinit : I e) : I e' := by
  induction h with
  | refl => exact hinit
  | tail _ hlast ih => exact hstep _ _ hlast ih

/-!
# Calls and completions
-/

theorem acquire_idle (key : EndpointKey) (e : Engine R) (stuck : Bool)
    (hstuck : e.stuck = true -> stuck = true) :
    Action key e { e.acquire with stuck := stuck } := by
  apply Action.idle
  exact Moves.quiet rfl e.acquire_reaches hstuck

theorem submit_reaches {s : Session} {req : SubmitRequest}
    {result : Except TransferError (UInt32 × Nat)} {shared : Client.Shared}
    (h : s.shared.submit req = some (result, shared)) :
    s.Reaches { s with shared := shared } := by
  have hstep := Session.Reaches.step s (Client.Step.submit req)
  rw [Client.Session.step_submit h] at hstep
  exact hstep

theorem submit_actions {pump : Engine R -> Engine R} {key : EndpointKey}
    (hpump : forall e, Actions key e (pump e)) {e : Engine R} {ep : Endpoint R}
    (hep : e.endpoints.lookup key = some ep) {message : UInt64} {req : SubmitRequest}
    {stage : Stage} (htarget : Target e.session.device.speed key ep message req stage) :
    Actions key e (e.submit pump key message req stage).1 := by
  unfold submit
  simp only [hep]
  cases hsubmit : e.acquire.session.shared.submit req with
  | none => exact Actions.single (acquire_idle key e true fun _ => rfl)
  | some answer =>
      rcases answer with ⟨result, shared⟩
      cases result with
      | ok accepted =>
          rcases accepted with ⟨seqnum, reply⟩
          apply Actions.single
          apply Action.submitted hep htarget e.acquire_reaches hsubmit rfl
          exact Moves.quiet rfl (e.acquire_reaches.trans (submit_reaches hsubmit)) fun h => h
      | error err =>
          dsimp only
          cases htarget with
          | head hempty hactive hcurrent hasks =>
              have hrefused : Action key e
                  (e.acquire.complete key ep none (errorStatus err) [] 0).1 := by
                refine Action.refused hep hactive hempty hcurrent hasks hsubmit ?_
                exact Moves.quiet rfl e.acquire_reaches fun h => h
              simp only [hempty, List.isEmpty_nil, if_true]
              split
              · exact (Actions.single hrefused).trans (hpump _)
              · exact Actions.single hrefused
          | ahead hsome hdepth hnone hpeek hreq =>
              have hnot : ep.inFlight.isEmpty = false := by
                simpa using hsome
              simp only [hnot]
              exact Actions.single (acquire_idle key e e.stuck fun h => h)

theorem apply_fst {e : Engine R} {key : EndpointKey} {ep ep' : Endpoint R}
    {flight : InFlight} {result : TransferResult} {data : Bytes} {length : UInt32}
    {hidden : Bool}
    (hstage : applyStage ep flight.stage
      (if flight.direction = Direction.in then (flight.outcome result).2.1 else [])
      (flight.outcome result).2.2 = (ep', data, length, hidden)) :
    (e.apply key ep flight result).1 =
      { e with
        toCore := e.toCore.complete key ep' (some flight) (flight.outcome result).1
          data length
        uasWarned := e.uasWarned || hidden } := by
  unfold apply
  simp only [hstage, complete]
  split <;> simp_all

theorem apply_snd {e : Engine R} {key : EndpointKey} {ep ep' : Endpoint R}
    {flight : InFlight} {result : TransferResult} {data : Bytes} {length : UInt32}
    {hidden : Bool}
    (hstage : applyStage ep flight.stage
      (if flight.direction = Direction.in then (flight.outcome result).2.1 else [])
      (flight.outcome result).2.2 = (ep', data, length, hidden)) :
    (e.apply key ep flight result).2 =
      if (Ring.complete ep'.ring (flight.outcome result).1 data length).2.isOk = true then
        if (flight.outcome result).1 = Status.offline then Flow.offline else Flow.continue
      else
        Flow.stop := by
  unfold apply
  simp only [hstage, complete]
  split <;> simp_all

theorem apply_action {key : EndpointKey} {e : Engine R} {ep : Endpoint R}
    {front : InFlight} {rest : List InFlight} {result : TransferResult}
    (hep : e.endpoints.lookup key = some ep) (hactive : Ring.active ep.ring = true)
    (hflight : ep.inFlight = front :: rest)
    (hhead : front.message = (Ring.current ep.ring).1)
    (hresult : front.result = some result) :
    Action key e (e.apply key { ep with inFlight := rest } front result).1 := by
  cases hstage : applyStage { ep with inFlight := rest } front.stage
      (if front.direction = Direction.in then (front.outcome result).2.1 else [])
      (front.outcome result).2.2 with
  | mk ep' found =>
      rcases found with ⟨data, length, hidden⟩
      apply Action.applied hep hactive hflight hhead hresult hstage
      rw [apply_fst hstage]
      exact Moves.quiet rfl (Session.Reaches.refl _) fun h => h

theorem completeHead_fst (e : Engine R) (key : EndpointKey) (ep : Endpoint R)
    (status : Status) :
    (e.completeHead key ep status).1 =
      { e with toCore := e.toCore.complete key ep none status [] 0 } := by
  unfold completeHead complete
  dsimp only
  split <;> simp_all

end Engine
end UsbIp
