import UsbIp.Engine.Window

/-!
# Data sent to the device

A write that is repeated makes the device act twice, and one that is left out
corrupts what it stores.  URBs for an OUT endpoint are submitted at two places,
for the head message and ahead of it, while completions move the head.  The
invariant counts them: what has been sent are the buffers of the data messages
that have been completed and of those in flight, until the session is closed and
messages are completed without being sent.
-/

namespace UsbIp
namespace Engine

open Foundation
open Protocol
open Hci
open Client (SubmitRequest TransferResult)

variable {R : Type}

/-!
# What was sent, and what there was to send
-/

def Event.cmd? : Event R -> Option CmdSubmit
  | Event.submitted s => some s.cmd
  | _ => none

def commandsOf (history : List (Event R)) : List CmdSubmit :=
  history.reverse.filterMap Event.cmd?

/-- The buffers of the data messages among some slots. -/
def dataOf (slots : List Slot) : List Bytes :=
  (slots.filter fun s => s.transfer.isData).map Slot.buffer

theorem commandsOf_cons (ev : Event R) (history : List (Event R)) :
    commandsOf (ev :: history) = commandsOf history ++ ev.cmd?.toList := by
  cases h : ev.cmd? <;> simp [commandsOf, h]

theorem dataOf_append (slots more : List Slot) :
    dataOf (slots ++ more) = dataOf slots ++ dataOf more := by
  simp [dataOf]

theorem commandsOf_issued {e : Engine R} (hq : e.Queued) (key : EndpointKey) :
    ((commandsOf (historyOf e.toCore key)).map Command.submit).Sublist
      e.session.shared.issued := by
  refine List.Sublist.trans ?_ hq
  have hsame : (commandsOf (historyOf e.toCore key)).map Command.submit =
      (historyOf e.toCore key).reverse.filterMap Event.command? := by
    rw [commandsOf, List.map_filterMap]
    congr
    funext ev
    cases ev <;> rfl
  rw [hsame]
  exact (List.reverse_sublist.mpr List.filter_sublist).filterMap _

theorem Settles.not_data {key : EndpointKey} (hdata : isControl key = false)
    {ep ep' : Endpoint R} {transfer : Transfer} {status : Status}
    (h : Settles key ep transfer ep' status) : transfer.isData = false := by
  cases h with
  | setup hcontrol => rfl
  | normal hcontrol _ =>
      rw [hdata] at hcontrol
      cases hcontrol
  | status _ _ => rfl
  | link => rfl
  | unexpected _ _ hnormal _ hiso =>
      cases transfer with
      | normal length => exact absurd rfl (hnormal length)
      | isochronous length frame =>
          have hcontrol := hiso length frame rfl
          rw [hdata] at hcontrol
          cases hcontrol
      | _ => rfl

variable [SlotRing R]

def Event.consumed? : Event R -> Option Slot
  | Event.completed c => (SlotRing.slots c.ring).head?
  | _ => none

def consumedOf (history : List (Event R)) : List Slot :=
  history.reverse.filterMap Event.consumed?

theorem consumedOf_cons (ev : Event R) (history : List (Event R)) :
    consumedOf (ev :: history) = consumedOf history ++ ev.consumed?.toList := by
  cases h : ev.consumed? <;> simp [consumedOf, h]

/-- All messages of a ring so far: those completed, and those still in it. -/
def messagesOf (history : List (Event R)) (ring : R) : List Slot :=
  consumedOf history ++ SlotRing.slots ring

theorem messagesOf_complete (history : List (Event R)) {c : Completion R} {ring : R}
    (h : SlotRing.slots ring = (SlotRing.slots c.ring).tail) :
    messagesOf (Event.completed c :: history) ring = messagesOf history c.ring := by
  unfold messagesOf
  rw [consumedOf_cons, h, List.append_assoc]
  congr 1
  rw [Event.consumed?]
  cases SlotRing.slots c.ring <;> rfl

/-!
# Requests
-/

theorem dataRequest_out {speed : Speed} {ep : Endpoint R} {key : EndpointKey} {s : Slot}
    {ahead : Nat} {transfer : Transfer} {req : SubmitRequest} {stage : Stage}
    (hout : Direction.ofEndpoint key.2 = Direction.out)
    (hs : messageAt (SlotRing.slots ep.ring) ahead = some s)
    (htransfer : s.transfer = transfer)
    (h : dataRequest speed ep key ahead transfer = some (req, stage)) :
    s.transfer.isData = true ∧ req.Accepted ∧ req.data = s.buffer := by
  have hread := read_message hs
  have haccepted : req.direction = Direction.out -> req.length = transfer.length ->
      req.data = s.buffer -> req.Accepted := by
    intro hdirection hlength hdata
    constructor
    · intro _
      rw [hdata, hlength, ← htransfer, s.buffer_length]
    · intro hin
      rw [hdirection] at hin
      cases hin
  cases transfer with
  | normal length =>
      rw [htransfer] at hread ⊢
      simp only [dataRequest, hout, if_true, Option.some.injEq, Prod.mk.injEq] at h
      rcases h with ⟨rfl, _⟩
      exact ⟨rfl, haccepted rfl rfl hread, hread⟩
  | isochronous length frame =>
      rw [htransfer] at hread ⊢
      simp only [dataRequest, hout, if_true, Option.some.injEq, Prod.mk.injEq] at h
      rcases h with ⟨rfl, _⟩
      cases frame with
      | none => exact ⟨rfl, haccepted rfl rfl hread, hread⟩
      | some frame => exact ⟨rfl, haccepted rfl rfl hread, hread⟩
  | _ => cases h

/-!
# The invariant
-/

/-- What has been sent of the messages of an endpoint. -/
inductive Sent (closed : Bool) (history : List (Event R)) (ep : Endpoint R) : Prop where
  /-- The data messages that were completed, and those in flight. -/
  | exactly (haligned : ep.Aligned)
      (hdata : forall s, s ∈ (SlotRing.slots ep.ring).take ep.inFlight.length ->
        s.transfer.isData = true)
      (hsent : (commandsOf history).map CmdSubmit.data = dataOf (consumedOf history ++
        (SlotRing.slots ep.ring).take ep.inFlight.length))
  /-- Nothing is sent any more. -/
  | stopped (hclosed : closed = true)
      (hsent : (commandsOf history).map CmdSubmit.data <+:
        dataOf (messagesOf history ep.ring))

/-- The messages in flight are the first ones of the ring. -/
theorem Sent.prefix_messages {closed : Bool} {history : List (Event R)} {ep : Endpoint R}
    (h : Sent closed history ep) :
    (commandsOf history).map CmdSubmit.data <+: dataOf (messagesOf history ep.ring) := by
  cases h with
  | exactly _ _ hsent =>
      rw [hsent, messagesOf, dataOf_append, dataOf_append]
      apply (List.prefix_append_right_inj _).mpr
      exact (List.IsPrefix.filter _ (List.take_prefix _ _)).map _
  | stopped _ hsent => exact hsent

def Event.Silent (ev : Event R) : Prop :=
  ev.cmd? = none ∧ ev.consumed? = none

theorem Sent.silent {closed : Bool} {history : List (Event R)} {ep : Endpoint R}
    (h : Sent closed history ep) {ev : Event R} (hev : ev.Silent) :
    Sent closed (ev :: history) ep := by
  have hcommands : commandsOf (ev :: history) = commandsOf history := by
    rw [commandsOf_cons, hev.left, Option.toList_none, List.append_nil]
  have hconsumed : consumedOf (ev :: history) = consumedOf history := by
    rw [consumedOf_cons, hev.right, Option.toList_none, List.append_nil]
  cases h with
  | exactly haligned hdata hsent =>
      apply Sent.exactly haligned hdata
      rw [hcommands, hconsumed]
      exact hsent
  | stopped hclosed hsent =>
      apply Sent.stopped hclosed
      rw [hcommands, messagesOf, hconsumed]
      exact hsent

theorem Sent.session {s s' : Client.Session} {history : List (Event R)} {ep : Endpoint R}
    (h : Sent s.shared.state.closed.isSome history ep) (hs : s.Reaches s') :
    Sent s'.shared.state.closed.isSome history ep := by
  cases h with
  | exactly haligned hdata hsent => exact Sent.exactly haligned hdata hsent
  | stopped hclosed hsent => exact Sent.stopped (hs.tracks.closed_kept hclosed) hsent

theorem Sent.congr {closed : Bool} {history : List (Event R)} {ep ep' : Endpoint R}
    (h : Sent closed history ep)
    (hflights : ep'.inFlight.map InFlight.message = ep.inFlight.map InFlight.message)
    (hslots : SlotRing.slots ep.ring <+: SlotRing.slots ep'.ring) :
    Sent closed history ep' := by
  have hlength : ep'.inFlight.length = ep.inFlight.length := by
    simpa using congrArg List.length hflights
  cases h with
  | exactly haligned hdata hsent =>
      have htake : (SlotRing.slots ep'.ring).take ep'.inFlight.length =
          (SlotRing.slots ep.ring).take ep.inFlight.length := by
        rcases hslots with ⟨more, hmore⟩
        rw [← hmore, hlength, List.take_append_of_le_length haligned.window.length_le]
      refine Sent.exactly ?_ ?_ ?_
      · have hextended := (haligned.extend hslots).flights hflights
        exact ⟨hextended.window, hextended.head⟩
      · rw [htake]
        exact hdata
      · rw [htake]
        exact hsent
  | stopped hclosed hsent =>
      refine Sent.stopped hclosed (hsent.trans ?_)
      rcases hslots with ⟨more, hmore⟩
      have hmessages : messagesOf history ep'.ring = messagesOf history ep.ring ++ more := by
        rw [messagesOf, messagesOf, ← hmore, List.append_assoc]
      rw [hmessages, dataOf_append]
      exact List.prefix_append _ _

theorem Sent.complete {closed : Bool} {history : List (Event R)} {ep ep' : Endpoint R}
    (h : Sent closed history ep) {c : Completion R} (hc : c.ring = ep.ring)
    (hslots : SlotRing.slots ep'.ring = (SlotRing.slots ep.ring).tail)
    (hflights : ep'.inFlight = ep.inFlight.tail) (haligned' : ep.Aligned -> ep'.Aligned)
    (hhead : ep.inFlight = [] -> forall s rest, SlotRing.slots ep.ring = s :: rest ->
      s.transfer.isData = false) :
    Sent closed (Event.completed c :: history) ep' := by
  have hcommands : commandsOf (Event.completed c :: history) = commandsOf history :=
    (commandsOf_cons _ _).trans (List.append_nil _)
  rw [← hc] at hslots
  cases h with
  | stopped hclosed hsent =>
      apply Sent.stopped hclosed
      rw [hcommands, messagesOf_complete history hslots, hc]
      exact hsent
  | exactly haligned hdata hsent =>
      refine Sent.exactly (haligned' haligned) ?_ ?_
      · intro s hs
        apply hdata s
        rw [hslots, hc, hflights, List.length_tail] at hs
        cases hring : SlotRing.slots ep.ring with
        | nil =>
            rw [hring] at hs
            simp at hs
        | cons t rest =>
            cases hqueue : ep.inFlight with
            | nil =>
                rw [hqueue] at hs
                simp at hs
            | cons f flights =>
                rw [hring, hqueue] at hs
                exact List.mem_cons_of_mem t hs
      · rw [hcommands, hsent, consumedOf_cons, Event.consumed?, hslots, hc, hflights,
          List.length_tail]
        cases hring : SlotRing.slots ep.ring with
        | nil => simp
        | cons s rest =>
            cases hqueue : ep.inFlight with
            | nil => simp [dataOf, hhead hqueue s rest hring]
            | cons f flights => simp

theorem Sent.push {history : List (Event R)} {ep : Endpoint R} (h : Sent false history ep)
    (hlinks : NoLinks (SlotRing.slots ep.ring)) {sub : Submission R}
    {s : Slot} (hs : messageAt (SlotRing.slots ep.ring) ep.inFlight.length = some s)
    (hdata : s.transfer.isData = true) (hsub : sub.cmd.data = s.buffer)
    (haligned' : Endpoint.Aligned { ep with inFlight := ep.inFlight ++ [sub.flight] })
    (closed : Bool) :
    Sent closed (Event.submitted sub :: history)
      { ep with inFlight := ep.inFlight ++ [sub.flight] } := by
  have hnext : (SlotRing.slots ep.ring)[ep.inFlight.length]? = some s := by
    rw [← transfersOf_eq_self hlinks]
    exact messageAt_eq_some hs
  have htake : (SlotRing.slots ep.ring).take (ep.inFlight.length + 1) =
      (SlotRing.slots ep.ring).take ep.inFlight.length ++ [s] := by
    rw [List.take_add_one, hnext]
    rfl
  have hlength : (ep.inFlight ++ [sub.flight]).length = ep.inFlight.length + 1 := by
    simp
  cases h with
  | stopped hclosed _ => cases hclosed
  | exactly haligned hold hsent =>
      refine Sent.exactly haligned' ?_ ?_
      · intro t ht
        dsimp only at ht
        rw [hlength, htake] at ht
        rcases List.mem_append.mp ht with ht | ht
        · exact hold t ht
        · rw [List.mem_singleton.mp ht]
          exact hdata
      · dsimp only
        rw [hlength, htake, commandsOf_cons, consumedOf_cons, List.map_append, hsent]
        simp [Event.cmd?, Event.consumed?, dataOf, hdata, hsub]

theorem Sent.refuse {closed closed' : Bool} {history : List (Event R)}
    {ep ep' : Endpoint R} (h : Sent closed history ep) (hclosed : closed' = true)
    {c : Completion R} (hc : c.ring = ep.ring)
    (hslots : SlotRing.slots ep'.ring = (SlotRing.slots ep.ring).tail) :
    Sent closed' (Event.completed c :: history) ep' := by
  apply Sent.stopped hclosed
  have hcommands : commandsOf (Event.completed c :: history) = commandsOf history :=
    (commandsOf_cons _ _).trans (List.append_nil _)
  rw [← hc] at hslots
  rw [hcommands, messagesOf_complete history hslots, hc]
  exact h.prefix_messages

theorem Sent.discard {closed : Bool} {history : List (Event R)} {ep : Endpoint R}
    (h : Sent closed history ep) {front : InFlight} {rest : List InFlight}
    (hflight : ep.inFlight = front :: rest)
    (hmoved : front.message ≠ (Ring.current ep.ring).1) (key : EndpointKey)
    (cause : Cause) :
    Sent closed (Event.discarded key ep.inFlight cause :: history)
      { ep with inFlight := [] } := by
  cases h with
  | exactly haligned _ _ => exact absurd (haligned.not_moved hflight) hmoved
  | stopped hclosed hsent =>
      have hstopped : Sent closed history { ep with inFlight := [] } :=
        Sent.stopped hclosed hsent
      exact hstopped.silent ⟨rfl, rfl⟩

/-- An OUT endpoint whose ring has no links. -/
structure OutEndpoint (closed : Bool) (history : List (Event R)) (ep : Endpoint R) :
    Prop where
  noLinks : NoLinks (SlotRing.slots ep.ring)
  unpaused : forall f, f ∈ ep.inFlight -> f.unlinking = false
  sent : Sent closed history ep

structure OutOk (key : EndpointKey) (e : Engine R) : Prop where
  endpoint : forall ep, e.endpoints.lookup key = some ep ->
    OutEndpoint e.session.shared.state.closed.isSome (historyOf e.toCore key) ep
  absent : e.endpoints.lookup key = none ->
    commandsOf (historyOf e.toCore key) = [] ∧ consumedOf (historyOf e.toCore key) = []

theorem OutOk.sameView {key : EndpointKey} {e e' : Engine R} (h : OutOk key e)
    (hview : SameView key e.toCore e'.toCore) (hs : e.session.Reaches e'.session) :
    OutOk key e' := by
  constructor
  · intro ep hep
    rw [hview.lookup] at hep
    rw [hview.history]
    have hold := h.endpoint ep hep
    exact ⟨hold.noLinks, hold.unpaused, hold.sent.session hs⟩
  · intro hnone
    rw [hview.lookup] at hnone
    rw [hview.history]
    exact h.absent hnone

theorem OutOk.of_lookup {key : EndpointKey} {e : Engine R} {ep : Endpoint R}
    (hep : e.endpoints.lookup key = some ep)
    (h : OutEndpoint e.session.shared.state.closed.isSome (historyOf e.toCore key) ep) :
    OutOk key e := by
  constructor
  · intro ep' hep'
    rw [hep] at hep'
    cases hep'
    exact h
  · intro hnone
    rw [hep] at hnone
    cases hnone

/-!
# Actions of the pump
-/

theorem Target.out {speed : Speed} {key : EndpointKey} {ep : Endpoint R}
    {message : UInt64} {req : SubmitRequest} {stage : Stage}
    (hout : Direction.ofEndpoint key.2 = Direction.out) (hdata : isControl key = false)
    (h : Target speed key ep message req stage) :
    exists s, messageAt (SlotRing.slots ep.ring) ep.inFlight.length = some s ∧
      s.transfer.isData = true ∧ req.Accepted ∧ req.data = s.buffer := by
  cases h with
  | head hempty _ hcurrent hasks =>
      rcases slots_cons_of_current hcurrent with ⟨s, rest, hslots, _, htransfer⟩
      have hlink : s.isLink = false := by
        rw [Slot.isLink, htransfer]
        exact hasks.not_link
      have hs : messageAt (SlotRing.slots ep.ring) 0 = some s := by
        rw [hslots]
        exact messageAt_zero hlink
      rw [hempty]
      cases hasks with
      | controlData hcontrol _ =>
          rw [hdata] at hcontrol
          cases hcontrol
      | controlStatus hcontrol _ =>
          rw [hdata] at hcontrol
          cases hcontrol
      | transfer _ hreq => exact ⟨s, hs, dataRequest_out hout hs htransfer hreq⟩
  | ahead _ _ _ hpeek hreq =>
      rcases messageAt_of_peek hpeek with ⟨s, hs, _, htransfer⟩
      exact ⟨s, hs, dataRequest_out hout hs htransfer hreq⟩

theorem OutOk.completed {key : EndpointKey} {e e' : Engine R} {ep ep' : Endpoint R}
    {origin : Option InFlight} {status : Status} {data : Bytes} {length : UInt32}
    (h : Moves e e' (e.toCore.complete key ep' origin status data length) [])
    (haccepting : Accepting key e'.toCore) (hring : ep'.ring = ep.ring)
    (hlinks : NoLinks (SlotRing.slots ep.ring))
    (hunpaused : forall f, f ∈ ep'.inFlight -> f.unlinking = false)
    (hsent : forall (c : Completion R) (next : Endpoint R), c.ring = ep.ring ->
      SlotRing.slots next.ring = (SlotRing.slots ep.ring).tail ->
      next.inFlight = ep'.inFlight ->
      Sent e'.session.shared.state.closed.isSome
        (Event.completed c :: historyOf e.toCore key) next) :
    OutOk key e' := by
  rw [h.core] at haccepting
  have hslots := SlotRing.complete_slots haccepting.completed
  rw [hring] at hslots
  apply OutOk.of_lookup (h.lookup (complete_lookup _ _ _ _ _ _ _))
  rw [hring]
  constructor
  · intro s hs
    dsimp only at hs
    rw [hslots] at hs
    exact hlinks s (List.mem_of_mem_tail hs)
  · exact hunpaused
  · rw [h.core, complete_history]
    exact hsent _ _ hring hslots rfl

theorem Action.outOk {key k : EndpointKey}
    (hout : Direction.ofEndpoint key.2 = Direction.out) (hdata : isControl key = false)
    {e e' : Engine R} (h : Action k e e') (haccepting : Accepting key e'.toCore)
    (hok : OutOk key e) : OutOk key e' := by
  by_cases hk : k = key
  · subst hk
    cases h with
    | idle h =>
        refine hok.sameView ?_ h.session
        rw [h.core]
        exact SameView.refl k _
    | stale hep _ hflight hmoved h =>
        have hold := hok.endpoint _ hep
        apply OutOk.of_lookup (h.lookup (note_put_lookup _ _ _ _))
        constructor
        · exact hold.noLinks
        · simp
        · rw [h.core, discard_history, historyOf_put]
          exact (hold.sent.discard hflight hmoved k Cause.stale).session h.session
    | applied hep hactive hflight _ hresult hstage h =>
        have hold := hok.endpoint _ hep
        rcases applyStage_frame hstage with ⟨hring, hrest, _⟩
        refine OutOk.completed h haccepting hring hold.noLinks ?_ ?_
        · intro f hf
          rw [hrest] at hf
          apply hold.unpaused f
          rw [hflight]
          exact List.mem_cons_of_mem _ hf
        · intro c next hc hslots hnext
          rw [hrest] at hnext
          refine (hold.sent.session h.session).complete hc hslots ?_ ?_ ?_
          · rw [hnext, hflight]
            rfl
          · intro haligned
            apply haligned.pop hflight hnext hslots
            intro _
            apply atLink_of_noLinks
            rw [hslots]
            exact hold.noLinks.tail
          · intro hempty
            rw [hempty] at hflight
            cases hflight
    | settled hep _ hempty hcurrent hsettles h =>
        have hold := hok.endpoint _ hep
        rcases hsettles.frame with ⟨hring, hflights, _⟩
        rw [hempty] at hflights
        refine OutOk.completed h haccepting hring hold.noLinks ?_ ?_
        · simp [hflights]
        · intro c next hc hslots hnext
          rw [hflights] at hnext
          refine (hold.sent.session h.session).complete hc hslots ?_ ?_ ?_
          · rw [hnext, hempty]
            rfl
          · intro _
            exact Endpoint.Aligned.of_empty hnext
          · intro _ s rest hhead
            rw [SlotRing.current_cons hhead] at hcurrent
            cases hcurrent
            exact hsettles.not_data hdata
    | submitted hep htarget hs hsubmit hsession h =>
        have hold := hok.endpoint _ hep
        rcases htarget.out hout hdata with ⟨s, hslot, hsdata, _, hreq⟩
        have hopen := hs.open (Client.Shared.submit_ok_open hsubmit)
        have hsent := hold.sent
        rw [hopen] at hsent
        refine OutOk.of_lookup (h.lookup (push_lookup _ _ _ _ _ _)) ⟨hold.noLinks, ?_, ?_⟩
        · intro f hf
          rcases List.mem_append.mp hf with hf | hf
          · exact hold.unpaused f hf
          · rw [List.mem_singleton.mp hf]
            rfl
        · rw [h.core, push_history]
          cases hsent with
          | stopped hclosed _ => cases hclosed
          | exactly haligned hdata' hsent' =>
              refine Sent.push (Sent.exactly haligned hdata' hsent') hold.noLinks hslot hsdata
                ?_ (haligned.push htarget rfl) _
              exact hreq
    | refused hep hactive hempty hcurrent hasks hsubmit h =>
        have hold := hok.endpoint _ hep
        have htarget := Target.head hempty hactive hcurrent hasks
        rcases htarget.out hout hdata with ⟨_, _, _, haccepted, _⟩
        have hclosed := Client.Shared.submit_error_closed hsubmit haccepted
        apply OutOk.completed h haccepting rfl hold.noLinks hold.unpaused
        intro c next hc hslots _
        exact hold.sent.refuse hclosed hc hslots
  · exact hok.sameView (h.other hk) h.reaches

/-!
# Changes
-/

theorem Change.outOk {key : EndpointKey}
    (hout : Direction.ofEndpoint key.2 = Direction.out) {e e' : Engine R} {op : Op R}
    (hop : Undisturbed key e op) (hlinks : op.NoLinks key) (h : Change e e' op)
    (hok : OutOk key e) : OutOk key e' := by
  have hs := h.reaches
  cases h.seen key with
  | same hview => exact hok.sameView hview hs
  | added hlookup hhistory =>
      rcases hok.absent (hop rfl) with ⟨hcommands, hconsumed⟩
      refine OutOk.of_lookup hlookup ⟨hlinks rfl, by simp, ?_⟩
      rw [hhistory]
      refine Sent.silent (Sent.silent ?_ ⟨rfl, rfl⟩) ⟨rfl, rfl⟩
      apply Sent.exactly (Endpoint.Aligned.of_empty rfl) (by simp)
      rw [hcommands, hconsumed]
      rfl
  | updated hep hlookup hhistory =>
      have hold := hok.endpoint _ hep
      refine OutOk.of_lookup hlookup ⟨hold.noLinks, hold.unpaused, ?_⟩
      rw [hhistory]
      exact (hold.sent.session hs).congr rfl (List.prefix_refl _)
  | removed hremoves _ _ _ => exact absurd hremoves hop.not_removes
  | reset _ _ _ => exact absurd rfl hop
  | paused hread _ _ _ =>
      refine absurd (Or.inl ?_) hread
      unfold Direction.ofEndpoint at hout
      split at hout
      · cases hout
      · rename_i hzero
        exact Decidable.of_not_not hzero
  | synced hep hflight hmoved hlookup hhistory =>
      have hold := hok.endpoint _ hep
      refine OutOk.of_lookup hlookup ⟨hold.noLinks, by simp, ?_⟩
      rw [hhistory]
      exact (hold.sent.discard hflight hmoved key Cause.synced).session hs
  | dropped _ _ _ hlookup hhistory =>
      constructor
      · intro ep hep
        rw [hlookup] at hep
        have hold := hok.endpoint ep hep
        constructor
        · exact hold.noLinks
        · exact hold.unpaused
        · rw [hhistory]
          exact (hold.sent.session hs).silent ⟨rfl, rfl⟩
      · intro hnone
        rw [hlookup] at hnone
        rw [hhistory, commandsOf_cons, consumedOf_cons]
        rcases hok.absent hnone with ⟨hcommands, hconsumed⟩
        rw [hcommands, hconsumed]
        exact ⟨rfl, rfl⟩
  | recorded _ _ hep hsplit _ _ hlookup hhistory =>
      have hold := hok.endpoint _ hep
      refine OutOk.of_lookup hlookup ⟨hold.noLinks, ?_, ?_⟩
      · intro g hg
        have hunpaused := hold.unpaused
        simp only [hsplit, List.forall_mem_append, List.forall_mem_cons] at hunpaused
        rcases hunpaused with ⟨hfront, hf, hback⟩
        simp only [List.mem_append, List.mem_cons] at hg
        rcases hg with hg | rfl | hg
        · exact hfront g hg
        · exact hf
        · exact hback g hg
      · rw [hhistory]
        refine Sent.silent ?_ ⟨rfl, rfl⟩
        refine (hold.sent.session hs).congr ?_ (List.prefix_refl _)
        rw [hsplit]
        simp
  | truncated _ _ hep hsplit _ hpaused _ _ _ =>
      have hunpaused := (hok.endpoint _ hep).unpaused _ (by
        rw [hsplit]
        exact List.mem_append_right _ List.mem_cons_self)
      rw [hunpaused] at hpaused
      cases hpaused
  | host hep hlookup hhistory =>
      have hold := hok.endpoint _ hep
      refine OutOk.of_lookup hlookup ⟨hlinks rfl, hold.unpaused, ?_⟩
      rw [hhistory]
      exact (hold.sent.session hs).congr rfl (hop rfl _ hep)

/-!
# Every write is sent once
-/

theorem start_outOk (key : EndpointKey) (device : Client.ExportedDevice)
    (schedule : List (List Client.Step)) :
    OutOk key (start device schedule : Engine R) where
  endpoint := by simp [start]
  absent := fun _ => ⟨rfl, rfl⟩

/--
What is sent on an OUT endpoint are the buffers of the first data messages of its
ring, in ring order.
-/
theorem out_data_sent_once_in_order (rounds : Nat) (device : Client.ExportedDevice)
    (schedule : List (List Client.Step)) (ops : List (Op R)) (key : EndpointKey)
    (hout : Direction.ofEndpoint key.2 = Direction.out) (hdata : isControl key = false)
    (hrun : Guarded (step rounds) (fun e op => Undisturbed key e op ∧ op.NoLinks key)
      (start device schedule) ops)
    (haccepting : Accepting key (run rounds (start device schedule) ops).toCore) :
    let e := run rounds (start device schedule : Engine R) ops
    let history := historyOf e.toCore key
    forall ep, e.endpoints.lookup key = some ep ->
      ((commandsOf history).map Command.submit).Sublist e.session.shared.issued ∧
      exists k, (commandsOf history).map CmdSubmit.data =
        (dataOf (messagesOf history ep.ring)).take k := by
  intro e history ep hep
  have hok : OutOk key e :=
    accepting_run_invariant (I := OutOk key)
      (fun _ _ _ hop h hok => h.outOk hout hop.left hop.right hok)
      (fun _ _ _ h hacc hok => h.outOk hout hdata hacc hok) hrun
      (start_outOk key device schedule) haccepting
  have hprefix := (hok.endpoint ep hep).sent.prefix_messages
  exact ⟨commandsOf_issued (run_queued rounds device schedule ops) key, _,
    List.prefix_iff_eq_take.mp hprefix⟩

theorem out_data_sent_once_in_order_paused :
    let key : EndpointKey := (1, 2)
    let ring : QueueRing :=
      { active := true
        slots := [⟨10, .normal 1, [5], rfl⟩, ⟨11, .normal 2, [6, 7], rfl⟩,
          ⟨12, .status, [], rfl⟩]
        next := 13 }
    let paused : QueueRing := { ring with active := false }
    let resumed : QueueRing :=
      { active := true
        slots := ring.slots ++ [⟨13, .normal 1, [8], rfl⟩]
        next := 14 }
    let ops :=
      [Op.addEndpoint key { kind := .bulk, maxPacketSize := 512, bInterval := 0 } ring,
        Op.doorbell key, Op.host key paused, Op.pauseEndpoint key] ++
        answered 2 2 [] ++ [Op.deliver 1] ++ answered 1 1 [] ++
        [Op.deliver 0, Op.host key resumed, Op.doorbell key]
    let e := run 8 (start sampleDevice []) ops
    let history := historyOf e.toCore key
    (commandsOf history).map CmdSubmit.data = [[5], [6, 7], [8]] ∧
      forall ep, e.endpoints.lookup key = some ep ->
        ((commandsOf history).map Command.submit).Sublist e.session.shared.issued ∧
        exists k, (commandsOf history).map CmdSubmit.data =
          (dataOf (messagesOf history ep.ring)).take k := by
  intro key ring paused resumed ops e history
  constructor
  · decide +kernel
  · refine out_data_sent_once_in_order 8 sampleDevice [] ops key (by decide) (by decide) ?_
      (by decide +kernel)
    have hquiet : True ∧ True := ⟨trivial, trivial⟩
    exact ⟨⟨fun _ => rfl, fun _ => by decide⟩, hquiet,
      ⟨fun _ => by decide +kernel, fun _ => by decide⟩, hquiet, hquiet, hquiet, hquiet,
      hquiet, hquiet, hquiet, hquiet, hquiet,
      ⟨fun _ => by decide +kernel, fun _ => by decide⟩, hquiet, trivial⟩

end Engine
end UsbIp
