import UsbIp.Engine.Orphans
import UsbIp.Engine.Pauses

/-!
# Where results come from

A completion is about a URB, the URB about a message, and its result about what
the session has put into the channel of the reply.  The history of the engine
names all three; here they are put together.
-/

namespace UsbIp
namespace Engine

open Foundation
open Protocol
open Hci
open Client (SubmitRequest TransferResult Session)

variable {R : Type} [Ring R]

/-!
# Requests
-/

theorem dataRequest_normal (speed : Speed) (ep : Endpoint R) (key : EndpointKey)
    (ahead : Nat) (length : UInt32) :
    dataRequest speed ep key ahead (Transfer.normal length) =
      some ({ SubmitRequest.new key.2 (Direction.ofEndpoint key.2) length with
        data := if Direction.ofEndpoint key.2 = Direction.out then
          Ring.read ep.ring ahead length.toNat else []
        interval := ep.info.urbInterval speed }, Stage.normal) := by
  unfold dataRequest
  dsimp only
  split <;> rfl

theorem dataRequest_isochronous (speed : Speed) (ep : Endpoint R) (key : EndpointKey)
    (ahead : Nat) (length : UInt32) (frame : Option UInt8) :
    dataRequest speed ep key ahead (Transfer.isochronous length frame) =
      some ({ SubmitRequest.new key.2 (Direction.ofEndpoint key.2) length with
        data := if Direction.ofEndpoint key.2 = Direction.out then
          Ring.read ep.ring ahead length.toNat else []
        transferFlags := if frame.isNone then 0 ||| urbIsoAsap else 0
        startFrame := (frame.map UInt8.toUInt32).getD 0
        interval := max (ep.info.urbInterval speed) 1
        isoPackets := [{ offset := 0, length := length, actualLength := 0, status := 0 }] },
        Stage.isochronous) := by
  unfold dataRequest
  cases frame with
  | none =>
      by_cases hout : Direction.ofEndpoint key.2 = Direction.out
      · simp only [hout, if_true]
        rfl
      · simp only [if_neg hout]
        rfl
  | some frame =>
      by_cases hout : Direction.ofEndpoint key.2 = Direction.out
      · simp only [hout, if_true]
        rfl
      · simp only [if_neg hout]
        rfl

structure AsAsked (speed : Speed) (key : EndpointKey) (ep : Endpoint R) (ahead : Nat)
    (transfer : Transfer) (req : SubmitRequest) : Prop where
  address : req.ep = key.2
  direction : req.direction = Direction.ofEndpoint key.2
  setup : req.setup = Vector.replicate 8 0
  length : req.length = transfer.length
  data : req.data = if req.direction = Direction.out then
    Ring.read ep.ring ahead req.length.toNat else []
  packets : (exists length, transfer = Transfer.normal length) ∧ req.isoPackets = [] ∧
      req.interval = ep.info.urbInterval speed ∨
    (exists packet, req.isoPackets = [packet]) ∧
      req.interval = max (ep.info.urbInterval speed) 1

theorem dataRequest_asAsked {speed : Speed} {key : EndpointKey} {ep : Endpoint R}
    {ahead : Nat} {transfer : Transfer} {req : SubmitRequest} {stage : Stage}
    (hreq : dataRequest speed ep key ahead transfer = some (req, stage)) :
    AsAsked speed key ep ahead transfer req := by
  cases transfer with
  | normal length =>
      rw [dataRequest_normal] at hreq
      cases hreq
      exact ⟨rfl, rfl, rfl, rfl, rfl, Or.inl ⟨⟨length, rfl⟩, rfl, rfl⟩⟩
  | isochronous length frame =>
      rw [dataRequest_isochronous] at hreq
      cases hreq
      exact ⟨rfl, rfl, rfl, rfl, rfl, Or.inr ⟨⟨_, rfl⟩, rfl⟩⟩
  | _ => cases hreq

/-!
# Submissions
-/

/-- A URB for the data of a message, and not of a control transfer. -/
def Stage.IsData (stage : Stage) : Prop :=
  stage = Stage.normal ∨ stage = Stage.isochronous

/-- The command of a URB is for its message. -/
structure Submission.Asked (s : Submission R) : Prop where
  stage : isControl s.key = false -> s.flight.stage.IsData
  direction : s.cmd.direction = s.flight.direction.toU32
  length : s.cmd.transferBufferLength = s.flight.length
  endpoint : s.flight.stage.IsData ->
    s.cmd.ep = (s.key.2 &&& 0x0f).toUInt32 ∧ s.flight.direction = Direction.ofEndpoint s.key.2
  data : s.flight.stage.IsData ->
    s.cmd.data = if s.flight.direction = Direction.out then
      Ring.read s.ring s.ahead s.flight.length.toNat else []

theorem dataRequest_isData {speed : Speed} {key : EndpointKey} {ep : Endpoint R}
    {ahead : Nat} {transfer : Transfer} {req : SubmitRequest} {stage : Stage}
    (hreq : dataRequest speed ep key ahead transfer = some (req, stage)) : stage.IsData := by
  cases transfer with
  | normal length =>
      rw [dataRequest_normal] at hreq
      cases hreq
      exact Or.inl rfl
  | isochronous length frame =>
      rw [dataRequest_isochronous] at hreq
      cases hreq
      exact Or.inr rfl
  | _ => cases hreq

/-- What the pump submits for a message is what the message asks for. -/
theorem Target.asked {speed : Speed} {key : EndpointKey} {ep : Endpoint R}
    {message : UInt64} {req : SubmitRequest} {stage : Stage}
    (h : Target speed key ep message req stage) (token : Nat) (seqnum devid : UInt32)
    (reply : Nat) :
    Submission.Asked
      { key, ahead := ep.inFlight.length, ring := ep.ring,
        flight := newFlight token message req stage seqnum, reply,
        cmd := req.command seqnum devid } := by
  have hdata : forall {ahead : Nat} {transfer : Transfer}, ahead = ep.inFlight.length ->
      dataRequest speed ep key ahead transfer = some (req, stage) ->
      Submission.Asked
        { key, ahead := ep.inFlight.length, ring := ep.ring,
          flight := newFlight token message req stage seqnum, reply,
          cmd := req.command seqnum devid } := by
    intro ahead transfer hahead hreq
    have hasked := dataRequest_asAsked hreq
    refine ⟨fun _ => dataRequest_isData hreq, rfl, rfl,
      fun _ => ⟨?_, hasked.direction⟩, fun _ => ?_⟩
    · show (req.ep &&& 0x0f).toUInt32 = _
      rw [hasked.address]
    · show req.data = _
      rw [hasked.data, hahead]
      rfl
  have hcontrol : isControl key = true -> ¬ stage.IsData -> Submission.Asked
      { key, ahead := ep.inFlight.length, ring := ep.ring,
        flight := newFlight token message req stage seqnum, reply,
        cmd := req.command seqnum devid } := fun hkey hnot =>
    ⟨fun hfalse => absurd (hkey.symm.trans hfalse) (by decide), rfl, rfl,
      fun hstage => absurd hstage hnot, fun hstage => absurd hstage hnot⟩
  cases h with
  | head hempty hactive hcurrent hasks =>
      cases hasks with
      | controlData hkey hsetup => exact hcontrol hkey (by rintro (h | h) <;> cases h)
      | controlStatus hkey hsetup => exact hcontrol hkey (by rintro (h | h) <;> cases h)
      | transfer hkey hreq =>
          apply hdata _ hreq
          rw [hempty]
          rfl
  | ahead hsome hdepth hnone hpeek hreq => exact hdata rfl hreq

/-!
# What events say about the session
-/

/-- A completion reports the result of a URB; a control transfer may hide some of its data. -/
structure Completion.Carries (c : Completion R) (f : InFlight) (result : TransferResult) :
    Prop where
  status : c.status = (f.outcome result).1
  data : f.stage.IsData ->
    c.data = (if f.direction = Direction.in then (f.outcome result).2.1 else []) ∧
      c.length = (f.outcome result).2.2

/-- What an event of the engine says is so in its session and in its history. -/
def Event.Relays (e : Engine R) : Event R -> Prop
  | Event.submitted s => s.Asked ∧
      Client.Event.submitted s.reply s.cmd ∈ e.session.shared.log
  | Event.finished key token result =>
      exists s, Event.submitted s ∈ e.log ∧ s.key = key ∧ s.flight.token = token ∧
        (s.reply, result) ∈ e.session.shared.sent
  | Event.completed c => forall f, c.origin = some f ->
      exists result, f.result = some result ∧ c.Carries f result
  | _ => True

structure Relaying (e : Engine R) : Prop where
  reachable : e.session.Reachable
  tokens : e.toCore.TokensOk
  relays : forall ev, ev ∈ e.log -> ev.Relays e
  /-- Tokens and reply channels count together. -/
  ordered : forall s t, Event.submitted s ∈ e.log -> Event.submitted t ∈ e.log ->
    s.flight.token < t.flight.token -> s.reply < t.reply

theorem Event.Relays.mono {e e' : Engine R} {ev : Event R} (h : ev.Relays e)
    (hlog : e.log <:+ e'.log) (hsession : e.session.Reaches e'.session) : ev.Relays e' := by
  cases ev with
  | submitted s => exact ⟨h.left, hsession.log.subset h.right⟩
  | finished key token result =>
      rcases h with ⟨s, hs, hkey, htoken, hsent⟩
      exact ⟨s, hlog.subset hs, hkey, htoken, hsession.tracks.sent_kept.subset hsent⟩
  | completed c => exact h
  | _ => exact trivial

theorem Relaying.grows {e e' : Engine R} (h : e.Relaying) (htokens : e'.toCore.TokensOk)
    (hlog : e.log <:+ e'.log) (hsession : e.session.Reaches e'.session)
    (hnew : forall ev, ev ∈ e'.log -> ev ∈ e.log ∨ ev.Relays e')
    (hordered : forall s t, Event.submitted s ∈ e'.log -> Event.submitted t ∈ e'.log ->
      s.flight.token < t.flight.token -> s.reply < t.reply) : e'.Relaying where
  reachable := hsession.reachable h.reachable
  tokens := htokens
  relays := by
    intro ev hev
    rcases hnew ev hev with hold | hso
    · exact (h.relays ev hold).mono hlog hsession
    · exact hso
  ordered := hordered

theorem Relaying.reply_lt {e : Engine R} (h : e.Relaying) {s : Session}
    (hs : e.session.Reaches s) {t : Submission R} (ht : Event.submitted t ∈ e.log) :
    t.reply < s.shared.channels := by
  have hreplies := Client.Session.repliesOk (hs.reachable h.reachable)
  exact hreplies.submitted_lt _ _ (hs.log.subset (h.relays _ ht).right)

theorem Action.ordered {key : EndpointKey} {e e' : Engine R} (h : Action key e e')
    (hok : e.Relaying) {s t : Submission R} (hs : Event.submitted s ∈ e'.log)
    (ht : Event.submitted t ∈ e'.log) (hlt : s.flight.token < t.flight.token) :
    s.reply < t.reply := by
  have hold : forall {c : Core R} {flights : List InFlight} {new : Event R},
      Moves e e' (c.note new) flights -> c.log = e.log ->
        (forall u, new ≠ Event.submitted u) -> s.reply < t.reply := by
    intro c flights new hmoves hsame hnew
    rw [← hmoves.log] at hs ht
    have hs' := submitted_of_note hnew hs
    have ht' := submitted_of_note hnew ht
    rw [hsame] at hs' ht'
    exact hok.ordered s t hs' ht' hlt
  cases h with
  | idle h => exact hok.ordered s t (h.log ▸ hs) (h.log ▸ ht) hlt
  | stale _ _ _ _ h => exact hold h rfl (by simp)
  | applied _ _ _ _ _ _ h => exact hold h rfl (by simp)
  | settled _ _ _ _ _ h => exact hold h rfl (by simp)
  | @submitted ep message req stage session seqnum reply shared _ _ hreaches hsubmit _ h =>
      rw [← h.log] at hs ht
      rcases Client.Shared.submit_cases hsubmit with ⟨_, herr, _⟩ | ⟨n, hn, _, _, _, _⟩
      · cases herr
      cases hn
      rcases List.mem_cons.mp ht with hnew | ht
      · rw [Event.submitted.injEq] at hnew
        subst hnew
        rcases List.mem_cons.mp hs with hnew | hs
        · rw [Event.submitted.injEq] at hnew
          subst hnew
          exact absurd hlt (Nat.lt_irrefl _)
        · exact hok.reply_lt hreaches hs
      · have htoken := hok.tokens.submitted_lt t ht
        rcases List.mem_cons.mp hs with hnew | hs
        · rw [Event.submitted.injEq] at hnew
          subst hnew
          exact absurd hlt (Nat.lt_asymm htoken)
        · exact hok.ordered s t hs ht hlt
  | refused _ _ _ _ _ _ h => exact hold h rfl (by simp)

theorem Action.relaying {key : EndpointKey} {e e' : Engine R} (h : Action key e e')
    (hok : e.Relaying) : e'.Relaying := by
  refine hok.grows (h.tokensOk hok.tokens) h.log h.reaches ?_ fun _ _ => h.ordered hok
  intro ev hev
  have hone : forall {c : Core R} {flights : List InFlight} {new : Event R},
      Moves e e' (c.note new) flights -> c.log = e.log -> new.Relays e' ->
        ev ∈ e.log ∨ ev.Relays e' := by
    intro c flights new hmoves hsame hrelays
    rw [← hmoves.log] at hev
    rcases List.mem_cons.mp hev with rfl | hold
    · exact Or.inr hrelays
    · exact Or.inl (hsame ▸ hold)
  cases h with
  | idle h => exact Or.inl (h.log ▸ hev)
  | stale _ _ _ _ h => exact hone h rfl trivial
  | @applied ep ep' front rest result data length hidden _ _ _ _ hresult hstage h =>
      apply hone h rfl
      rintro f ⟨rfl⟩
      refine ⟨result, hresult, rfl, ?_⟩
      intro hdata
      exact applyStage_read hdata hstage
  | settled _ _ _ _ _ h =>
      apply hone h rfl
      rintro f ⟨⟩
  | @submitted ep message req stage s seqnum reply shared _ htarget hs hsubmit hsession h =>
      apply hone h rfl
      refine ⟨htarget.asked _ _ _ _, ?_⟩
      rcases Client.Shared.submit_cases hsubmit with ⟨_, herr, _⟩ | ⟨n, hn, _, _, _, hshared⟩
      · cases herr
      · cases hn
        rw [hsession, hshared]
        exact List.mem_cons_self
  | refused _ _ _ _ _ _ h =>
      apply hone h rfl
      rintro f ⟨⟩

theorem Event.Plain.relays {e : Engine R} {ev : Event R} (h : ev.Plain) : ev.Relays e := by
  cases ev with
  | submitted s => exact h.elim
  | finished key token result => exact h.elim
  | completed c =>
      intro f hf
      rw [show c.origin = none from h] at hf
      cases hf
  | _ => exact trivial

omit [Ring R] in
theorem takeOut_plain {c : Core R} {key : EndpointKey} {ev : Event R}
    (h : ev ∈ (takeOut c key).log) : ev ∈ c.log ∨ ev.Plain := by
  unfold takeOut at h
  split at h
  · exact Or.inl h
  · rcases List.mem_cons.mp h with rfl | h
    · exact Or.inr trivial
    · rcases List.mem_cons.mp h with rfl | h
      · exact Or.inr trivial
      · exact Or.inl h

omit [Ring R] in
theorem Replied.events {task : Task} {result : TransferResult} {e e' : Engine R}
    (h : Replied task result e e') {ev : Event R} (hev : ev ∈ e'.log) :
    ev ∈ e.log ∨ ev = Event.finished task.key task.token result ∨ ev.Plain := by
  cases h with
  | dropped _ h =>
      rw [← h.log] at hev
      rcases List.mem_cons.mp hev with rfl | hold
      · exact Or.inr (Or.inl rfl)
      · exact Or.inl hold
  | recorded _ _ _ _ h =>
      rw [← h.log] at hev
      rcases List.mem_cons.mp hev with rfl | hold
      · exact Or.inr (Or.inl rfl)
      · exact Or.inl hold
  | truncated _ _ _ _ _ h =>
      rw [← h.log] at hev
      rcases List.mem_cons.mp hev with rfl | hev
      · exact Or.inr (Or.inr trivial)
      · rcases List.mem_cons.mp hev with rfl | hold
        · exact Or.inr (Or.inl rfl)
        · exact Or.inl hold

theorem Change.relaying {e e' : Engine R} {op : Op R} (h : Change e e' op)
    (hok : e.Relaying) : e'.Relaying := by
  refine hok.grows (h.tokensOk hok.tokens) h.log h.reaches ?_ fun s t hs ht =>
    hok.ordered s t (h.ofPump rfl hs) (h.ofPump rfl ht)
  intro ev hev
  have hplain : ev ∈ e.log ∨ ev.Plain -> ev ∈ e.log ∨ ev.Relays e' :=
    fun hnew => hnew.imp_right Event.Plain.relays
  have hremoved : forall keys : List EndpointKey,
      ev ∈ (keys.foldl takeOut e.toCore).log -> ev ∈ e.log ∨ ev.Plain := by
    intro keys
    refine invariant_of_step
      (I := fun c : Core R => ev ∈ c.log -> ev ∈ e.log ∨ ev.Plain) ?_ keys Or.inl
    intro c key hc hmem
    rcases takeOut_plain hmem with hold | hnew
    · exact hc hold
    · exact Or.inr hnew
  cases h with
  | added h =>
      rw [← h.log] at hev
      apply hplain
      rcases List.mem_cons.mp hev with rfl | hev
      · exact Or.inr trivial
      · rcases List.mem_cons.mp hev with rfl | hold
        · exact Or.inr trivial
        · exact Or.inl hold
  | updated _ h => exact Or.inl (h.log ▸ hev)
  | removed h => exact hplain (hremoved _ (h.log ▸ hev))
  | removedDevice _ h => exact hplain (hremoved _ (h.log ▸ hev))
  | reset _ h =>
      rw [← h.log] at hev
      apply hplain
      rcases List.mem_cons.mp hev with rfl | hev
      · exact Or.inr trivial
      · rcases List.mem_cons.mp hev with rfl | hold
        · exact Or.inr trivial
        · exact Or.inl hold
  | paused _ _ h => exact Or.inl (h.log ▸ hev)
  | synced _ _ _ h =>
      rw [← h.log] at hev
      apply hplain
      rcases List.mem_cons.mp hev with rfl | hold
      · exact Or.inr trivial
      · exact Or.inl hold
  | @replied task result harrived hreplied =>
      rcases hreplied.events hev with hold | rfl | hnew
      · exact Or.inl hold
      · rcases arrived_eq_some harrived with ⟨htask, _, hsent⟩
        rcases hok.tokens.task_from task htask with ⟨s, hs, hkey, htoken, hreply⟩
        refine Or.inr ⟨s, (Change.replied harrived hreplied).log.subset hs, hkey, htoken, ?_⟩
        rw [hreply]
        exact (Change.replied harrived hreplied).reaches.tracks.sent_kept.subset hsent
      · exact Or.inr hnew.relays
  | session h => exact Or.inl (h.log ▸ hev)
  | host _ h => exact Or.inl (h.log ▸ hev)

theorem start_relaying (device : Client.ExportedDevice)
    (schedule : List (List Client.Step)) : (start device schedule : Engine R).Relaying where
  reachable := ⟨device, [], rfl⟩
  tokens := start_tokensOk device schedule
  relays := by
    intro ev hev
    cases hev
  ordered := by
    intro s t hs
    cases hs

/-!
# Completions
-/

structure Completion.From (e : Engine R) (c : Completion R) (f : InFlight)
    (s : Submission R) (result : TransferResult) : Prop where
  submitted : Event.submitted s ∈ e.log
  key : s.key = c.key
  same : f.SameUrb s.flight
  head : (Ring.current c.ring).1 = s.flight.message
  built : s.Built
  asked : s.Asked
  issued : Client.Event.submitted s.reply s.cmd ∈ e.session.shared.log
  sent : (s.reply, result) ∈ e.session.shared.sent
  used : f.result = some result
  carries : c.Carries f result

theorem Relaying.completion {e : Engine R} (h : e.Relaying) {c : Completion R} {f : InFlight}
    (hc : Event.completed c ∈ e.log) (horigin : c.origin = some f) :
    exists s result, c.From e f s result := by
  rcases List.append_of_mem hc with ⟨newer, older, hlog⟩
  have hrightful : c.Rightful f older :=
    h.tokens.completed_rightful.at hlog c f rfl horigin
  have hold : forall ev, ev ∈ older -> ev ∈ e.log := by
    intro ev hev
    rw [hlog]
    exact List.mem_append_right _ (List.mem_cons_of_mem _ hev)
  rcases hrightful.submission with ⟨s, hkey, hsame, hbuilt, hsince⟩
  rcases hsince.exists with ⟨ev, hmem, rfl⟩
  rcases hrightful.result with ⟨result, hresult, hfinished⟩
  rcases h.relays _ (hold _ hmem) with ⟨hasked, hissued⟩
  rcases h.relays _ (hold _ hfinished) with ⟨t, ht, _, htoken, hsent⟩
  -- A token belongs to one submission, so the result is that of this URB.
  have hst : s = t := h.tokens.submitted_injective s t (hold _ hmem) ht
    (hsame.token.symm.trans htoken.symm)
  rcases h.relays _ hc f horigin with ⟨result', hresult', hcarries⟩
  rw [hresult] at hresult'
  cases hresult'
  exact ⟨s, result,
    { submitted := hold _ hmem
      key := hkey
      same := hsame
      head := hrightful.head.trans hsame.message
      built := hbuilt
      asked := hasked
      issued := hissued
      sent := hst ▸ hsent
      used := hresult
      carries := hcarries }⟩

end Engine
end UsbIp
