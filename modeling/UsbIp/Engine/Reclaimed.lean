import UsbIp.Engine.Links
import UsbIp.Engine.Rounds

/-!
# Reclaimed messages

The host may take a message back while it is the head of the ring: the ring then
still tells its identity, but not its contents.  The pump asks for the contents
before it handles a message of its own accord, but a URB result completes the head
if the identity agrees.  This module gives such a run, and shows that it is the
only way: a result never completes a message that is not valid in a run in which
the pump does not come to such a message with its result at hand.
-/

namespace UsbIp
namespace Engine

open Foundation
open Protocol
open Hci
open Client (SubmitRequest TransferError TransferResult Session)

variable {R : Type} [Ring R]

def headValid (ring : R) : Bool :=
  (Ring.current ring).2.isSome

/--
The messages that the pump completes with the results of a queue are valid, one
after the other as they become the head of an active ring.
-/
def ResultsValid (key : EndpointKey) : Endpoint R -> List InFlight -> Prop
  | _, [] => True
  | ep, f :: rest =>
      Ring.active ep.ring = true -> f.message = (Ring.current ep.ring).1 ->
        forall result, f.result = some result ->
          headValid ep.ring = true ∧
            ((settle key { ep with inFlight := rest } f result).2.1.accepted = true ->
              ResultsValid key (settle key { ep with inFlight := rest } f result).1 rest)

theorem resultsValid_inFlight {key : EndpointKey} {ep : Endpoint R} {flights : List InFlight}
    (queue : List InFlight) :
    ResultsValid key { ep with inFlight := flights } queue <-> ResultsValid key ep queue := by
  cases queue with
  | nil => exact Iff.rfl
  | cons f rest => exact Iff.rfl

def QueueValid (key : EndpointKey) (e : Engine R)
    (queue : List InFlight -> List InFlight) : Prop :=
  forall ep, ep ∈ e.endpoints.lookup key -> ResultsValid key ep (queue ep.inFlight)

/-- The pump does not come to a reclaimed message with its result at hand. -/
def NoneReclaimed (e : Engine R) : Op R -> Prop
  | Op.doorbell key => QueueValid key e id
  | Op.deliver reply => forall found, found ∈ e.arrived reply ->
      QueueValid found.1.key e (afterReply found.1.token found.2)
  | _ => True

/-- Every URB result of a history has completed a valid message. -/
def WritesValid (log : List (Event R)) : Prop :=
  forall d f, Event.completed d ∈ log -> d.origin = some f -> headValid d.ring = true

theorem WritesValid.cons {log : List (Event R)} (h : WritesValid log) {ev : Event R}
    (hev : forall d f, ev = Event.completed d -> d.origin = some f ->
      headValid d.ring = true) : WritesValid (ev :: log) := by
  intro d f hmem horigin
  rcases List.mem_cons.mp hmem with hnew | hmem
  · exact hev d f hnew.symm horigin
  · exact h d f hmem horigin

theorem WritesValid.complete {c : Core R} (h : WritesValid c.log) (key : EndpointKey)
    (ep : Endpoint R) (status : Status) :
    WritesValid (c.complete key ep none status [] 0).log := by
  apply WritesValid.cons h
  intro d f hev horigin
  cases hev
  cases horigin

theorem queueValid_of_empty {key : EndpointKey} {e : Engine R}
    (h : flightsOf e.toCore key = []) : QueueValid key e id := by
  intro ep hep
  have hempty : ep.inFlight = [] := by
    rw [← flightsOf_of_lookup hep]
    exact h
  show ResultsValid key ep ep.inFlight
  rw [hempty]
  exact trivial

def PumpsValid (key : EndpointKey) (pump : Engine R -> Engine R) : Prop :=
  forall e, QueueValid key e id -> WritesValid e.log -> WritesValid (pump e).log

theorem submit_writesValid {pump : Engine R -> Engine R} {key : EndpointKey}
    (hpump : PumpsValid key pump) {e : Engine R} (h : WritesValid e.log)
    (message : UInt64) (req : SubmitRequest) (stage : Stage) :
    WritesValid (e.submit pump key message req stage).1.log := by
  unfold submit
  cases hep : e.endpoints.lookup key with
  | none => exact h
  | some ep =>
      dsimp only
      cases hsubmit : e.acquire.session.shared.submit req with
      | none => exact h
      | some answer =>
          rcases answer with ⟨result, shared⟩
          cases result with
          | ok accepted =>
              apply WritesValid.cons h
              intro d f hev
              cases hev
          | error err =>
              dsimp only
              split
              · rename_i hempty
                have hdone : WritesValid
                    (e.acquire.complete key ep none (errorStatus err) [] 0).1.log :=
                  WritesValid.complete h key ep (errorStatus err)
                dsimp only
                split
                · apply hpump _ (queueValid_of_empty _) hdone
                  have hlookup := flightsOf_of_lookup
                    (complete_lookup e.acquire.toCore key ep none (errorStatus err) [] 0)
                  rw [List.isEmpty_iff.mp hempty] at hlookup
                  exact hlookup
                · exact hdone
              · exact h

theorem fillLoop_writesValid {pump : Engine R -> Engine R} {key : EndpointKey}
    (hpump : PumpsValid key pump) (rounds : Nat) {e : Engine R} (h : WritesValid e.log) :
    WritesValid (fillLoop pump key rounds e).log := by
  induction rounds generalizing e with
  | zero => exact h
  | succ rounds ih =>
      rw [fillLoop_succ]
      cases fillCode_round key e with
      | rests hround =>
          rw [hround]
          exact h
      | @asks _ message _ req stage _ _ _ _ _ _ hround =>
          have hsubmit := submit_writesValid hpump h message req stage
          cases hdone : e.submit pump key message req stage with
          | mk e' accepted =>
              rw [hdone] at hsubmit
              rw [hround _ _ _ _ hdone]
              split
              · exact ih hsubmit
              · exact hsubmit

theorem apply_writesValid {e : Engine R} (key : EndpointKey) {ep : Endpoint R}
    {front : InFlight} {rest : List InFlight} {result : TransferResult}
    (hactive : Ring.active ep.ring = true) (hhead : front.message = (Ring.current ep.ring).1)
    (hresult : front.result = some result) (hvalid : ResultsValid key ep (front :: rest))
    (h : WritesValid e.log) :
    WritesValid (e.apply key { ep with inFlight := rest } front result).1.log ∧
      ((settle key { ep with inFlight := rest } front result).2.1.accepted = true ->
        QueueValid key (e.apply key { ep with inFlight := rest } front result).1 id) := by
  rcases hvalid hactive hhead result hresult with ⟨hnow, hnext⟩
  have hring := settle_ring key { ep with inFlight := rest } front result
  have hflights : (settle key { ep with inFlight := rest } front result).1.inFlight = rest := by
    rw [settle_inFlight]
  rw [apply_settle]
  constructor
  · apply WritesValid.cons h
    intro d f hev _
    cases hev
    rw [hring]
    exact hnow
  · intro haccepted found hfound
    change (e.endpoints.insert key _).lookup key = some found at hfound
    rw [Table.lookup_insert_eq, if_pos rfl] at hfound
    cases hfound
    show ResultsValid key (settle key { ep with inFlight := rest } front result).1
      (settle key { ep with inFlight := rest } front result).1.inFlight
    rw [hflights]
    exact hnext haccepted

/-- The pump as a whole, by induction on the rounds of its loop. -/
theorem pumpLoop_writesValid (rounds : Nat) (offline : Bool) (key : EndpointKey) :
    PumpsValid key (pumpLoop rounds offline key : Engine R -> Engine R) := by
  induction rounds generalizing offline with
  | zero => exact fun _ _ h => h
  | succ rounds ih =>
      intro e hqueue h
      rw [pumpLoop_succ]
      cases pumpCode_round offline key e with
      | rests hround =>
          rw [hround]
          exact h
      | @stale ep front rest hlooks hflight hmoved hround =>
          rw [hround]
          apply ih offline _ (queueValid_of_empty (e.flightsOf_dropStale key ep _))
          rw [dropStale_log]
          apply WritesValid.cons h
          intro d f hev
          cases hev
      | @result ep front rest result hlooks hflight hhead hresult hround =>
          have hvalid : ResultsValid key ep ep.inFlight := hqueue ep hlooks.lookup
          rw [hflight] at hvalid
          rcases apply_writesValid key hlooks.active hhead hresult hvalid h with
            ⟨hwritten, hnext⟩
          rw [hround]
          split
          · rename_i haccepted
            exact ih _ _ (hnext haccepted) hwritten
          · exact hwritten
      | fills hlooks hflight hhead hresult hround =>
          rw [hround]
          exact fillLoop_writesValid (ih false) 32 h
      | @completes ep ep' transfer status hlooks hflight hcurrent hsettles hround =>
          have hdone : WritesValid (e.toCore.complete key ep' none status [] 0).log :=
            WritesValid.complete h key ep' status
          have hempty : flightsOf (e.toCore.complete key ep' none status [] 0) key = [] := by
            rw [flightsOf_of_lookup (complete_lookup e.toCore key ep' none status [] 0)]
            exact hsettles.frame.right.left.trans hflight
          rw [hround]
          split
          · exact ih false _ (queueValid_of_empty hempty) hdone
          · exact hdone
      | @asks ep transfer req stage hlooks hflight hcurrent hasks hround =>
          have hsubmit := submit_writesValid (ih false) h (Ring.current ep.ring).1 req stage
          cases hdone : e.submit (pumpLoop rounds false key) key (Ring.current ep.ring).1
              req stage with
          | mk e' accepted =>
              rw [hdone] at hsubmit
              rw [hround _ _ _ _ hdone]
              split
              · exact fillLoop_writesValid (ih false) 32 hsubmit
              · exact hsubmit

/-!
# Runs
-/

theorem step_writesValid {rounds : Nat} {e : Engine R} {op : Op R}
    (hguard : NoneReclaimed e op) (htokens : e.toCore.TokensOk) (h : WritesValid e.log) :
    WritesValid (step rounds e op).log := by
  unfold step
  split
  · exact h
  · cases e.perform_outcome rounds op with
    | nothing heq =>
        rw [heq]
        exact h
    | change hchange => exact fun d f hmem => h d f (hchange.ofPump rfl hmem)
    | doorbell hop heq =>
        subst hop
        rw [heq]
        exact pumpLoop_writesValid rounds false _ _ hguard h
    | @callback task result e1 hop harrived hreplied heq =>
        subst hop
        rw [heq]
        apply pumpLoop_writesValid rounds false task.key
        · intro ep hep
          have hlookup := hreplied.lookup htokens
          rw [Option.mem_def.mp hep] at hlookup
          rcases Option.map_eq_some_iff.mp hlookup.symm with ⟨ep0, hep0, rfl⟩
          exact (resultsValid_inFlight _).mpr (hguard (task, result) harrived ep0 hep0)
        · exact fun d f hmem =>
            h d f ((Change.replied harrived hreplied).ofPump rfl hmem)

/--
In every run in which the pump does not come to a reclaimed message with its
result at hand, the head is a valid message whenever a URB result completes it.
-/
theorem results_complete_valid_messages (rounds : Nat) (device : Client.ExportedDevice)
    (schedule : List (List Client.Step)) (ops : List (Op R))
    (hguard : Guarded (step rounds) NoneReclaimed (start device schedule) ops)
    (c : Completion R) (f : InFlight)
    (hcompleted : Event.completed c ∈ (run rounds (start device schedule) ops).log)
    (horigin : c.origin = some f) : (Ring.current c.ring).2.isSome = true := by
  have hrun := invariant_of_guarded
    (I := fun e : Engine R => e.toCore.TokensOk ∧ WritesValid e.log)
    (fun e op hop h =>
      ⟨step_invariant (I := fun e : Engine R => e.toCore.TokensOk)
        (fun _ _ _ h hok => h.tokensOk hok) (fun _ _ _ h hok => h.tokensOk hok) rounds e op
        h.left, step_writesValid hop h.left h.right⟩)
    hguard ⟨start_tokensOk device schedule, fun _ _ hmem => by cases hmem⟩
  exact hrun.right c f hcompleted horigin

/-!
# One read
-/

def oneRead : QueueRing where
  active := true
  slots :=
    [{ id := 10, transfer := Transfer.normal 2, buffer := List.replicate 2 0,
       buffer_length := by decide }]
  next := 11

def readUnderWay (host : List (Op QueueRing)) : List (Op QueueRing) :=
  [Op.addEndpoint (1, 0x81) { kind := .bulk, maxPacketSize := 512, bInterval := 0 } oneRead,
    Op.doorbell (1, 0x81)] ++ host ++ answered 1 2 [5, 6] ++ [Op.deliver 0]

theorem results_complete_valid_messages_read :
    exists c f, Event.completed c ∈ (run 8 (start sampleDevice []) (readUnderWay [])).log ∧
      c.origin = some f ∧ c.data = [5, 6] ∧ (Ring.current c.ring).2.isSome = true := by
  have hcompleted : exists c f older,
      (run 8 (start sampleDevice []) (readUnderWay [])).log = Event.completed c :: older ∧
        c.origin = some f ∧ c.data = [5, 6] :=
    ⟨_, _, _, rfl, rfl, rfl⟩
  have hqueue : exists found ep g,
      (run 8 (start sampleDevice []) ((readUnderWay []).take 5)).arrived 0 = some found ∧
        (run 8 (start sampleDevice []) ((readUnderWay []).take 5)).endpoints.lookup
          found.1.key = some ep ∧ headValid ep.ring = true ∧
        afterReply found.1.token found.2 ep.inFlight = [g] :=
    ⟨_, _, _, rfl, rfl, rfl, rfl⟩
  have hguard : Guarded (step 8) NoneReclaimed (start sampleDevice []) (readUnderWay []) := by
    refine ⟨trivial, queueValid_of_empty rfl, trivial, trivial, trivial, ?_, trivial⟩
    rcases hqueue with ⟨found, ep, g, harrived, hep, hvalid, hafter⟩
    intro found' hfound' ep' hep'
    rw [Option.mem_def] at hfound' hep'
    have hsame : found' = found := Option.some.inj (hfound'.symm.trans harrived)
    subst hsame
    have hsame : ep' = ep := Option.some.inj (hep'.symm.trans hep)
    subst hsame
    rw [hafter]
    exact fun _ _ _ _ => ⟨hvalid, fun _ => trivial⟩
  rcases hcompleted with ⟨c, f, older, hlog, horigin, hdata⟩
  have hmem : Event.completed c ∈
      (run 8 (start sampleDevice []) (readUnderWay [])).log := by
    rw [hlog]
    exact List.mem_cons_self
  exact ⟨c, f, hmem, horigin, hdata,
    results_complete_valid_messages 8 sampleDevice [] _ hguard c f hmem horigin⟩

/-- The host takes the message back in place, and its data is written nevertheless. -/
theorem result_written_to_reclaimed_message :
    exists c f, Event.completed c ∈ (run 8 (start sampleDevice [])
        (readUnderWay [Op.host (1, 0x81) { oneRead with slots := [], next := 10 }])).log ∧
      c.origin = some f ∧ c.data = [5, 6] ∧ (Ring.current c.ring).2 = none := by
  have hcompleted : exists c f older, (run 8 (start sampleDevice []) (readUnderWay
      [Op.host (1, 0x81) { oneRead with slots := [], next := 10 }])).log =
        Event.completed c :: older ∧ c.origin = some f ∧ c.data = [5, 6] ∧
      (Ring.current c.ring).2 = none :=
    ⟨_, _, _, rfl, rfl, rfl, rfl⟩
  rcases hcompleted with ⟨c, f, older, hlog, horigin, hdata, hnone⟩
  refine ⟨c, f, ?_, horigin, hdata, hnone⟩
  rw [hlog]
  exact List.mem_cons_self

end Engine
end UsbIp
