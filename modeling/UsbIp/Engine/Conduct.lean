import UsbIp.Engine.Termination

/-!
# What the engine does to its session

For its session, an operation of the engine is a list of steps: those that other
tasks take in between, and the calls of the engine itself.  Which submits these
are depends on what the rings show and on what the host says about endpoints.  A
policy is what all three may be; an engine that meets nothing else keeps to it.
-/

namespace UsbIp
namespace Engine

open Foundation
open Protocol
open Hci
open Client (SubmitRequest TransferError TransferResult Session)
open Relation (ReflTransGen)

variable {R : Type} [Ring R]

/-!
# Policies
-/

structure Policy where
  step : Client.Step -> Prop
  /-- A message of an endpoint, so many positions after the head. -/
  message : EndpointKey -> Nat -> Transfer -> Prop
  info : EndpointKey -> EndpointInfo -> Prop

/-- The engine's own calls follow from what it is shown. -/
structure Policy.Sound (R : Type) [Ring R] (p : Policy) : Prop where
  unlink : forall n, p.step (Client.Step.unlink n)
  head : forall {speed : Speed} {key : EndpointKey} {ep : Endpoint R} {transfer : Transfer}
    {req : SubmitRequest} {stage : Stage}, p.info key ep.info ->
    Asks speed key ep transfer req stage -> p.message key 0 transfer ->
    p.step (Client.Step.submit req)
  ahead : forall {speed : Speed} {key : EndpointKey} {ep : Endpoint R} {ahead : Nat}
    {transfer : Transfer} {req : SubmitRequest} {stage : Stage}, p.info key ep.info ->
    0 < ahead -> dataRequest speed ep key ahead transfer = some (req, stage) ->
    p.message key ahead transfer -> p.step (Client.Step.submit req)

def Consumed (r r' : R) : Prop :=
  exists status data length, r' = (Ring.complete r status data length).1

/-- All messages that a ring shows, now and after completions, follow the policy. -/
def Policy.ring (p : Policy) (key : EndpointKey) (r : R) : Prop :=
  forall r', ReflTransGen Consumed r r' ->
    (forall message transfer, Ring.current r' = (message, some transfer) ->
      p.message key 0 transfer) ∧
    forall ahead message transfer, 0 < ahead ->
      Ring.peek r' ahead = some (message, transfer) -> p.message key ahead transfer

theorem Policy.ring_complete {p : Policy} {key : EndpointKey} {r : R} (h : p.ring key r)
    (status : Status) (data : Bytes) (length : UInt32) :
    p.ring key (Ring.complete r status data length).1 := by
  intro r' hreaches
  exact h r' (ReflTransGen.head ⟨status, data, length, rfl⟩ hreaches)

def Policy.op (p : Policy) : Op R -> Prop
  | Op.addEndpoint key info ring => p.info key info ∧ p.ring key ring
  | Op.updateEndpoint key info => p.info key info
  | Op.host key ring => p.ring key ring
  | Op.session st => p.step st
  | _ => True

def Policy.core (p : Policy) (c : Core R) : Prop :=
  forall key ep, c.endpoints.lookup key = some ep -> p.info key ep.info ∧ p.ring key ep.ring

theorem Policy.core_put {p : Policy} {c : Core R} (h : p.core c) {key : EndpointKey}
    {ep : Endpoint R} (hinfo : p.info key ep.info) (hring : p.ring key ep.ring) :
    p.core (c.put key ep) := by
  intro k ep' hlookup
  rw [Core.put_lookup] at hlookup
  split at hlookup
  · rename_i hk
    cases hlookup
    rw [hk]
    exact ⟨hinfo, hring⟩
  · exact h k ep' hlookup

theorem Policy.core_note {p : Policy} {c : Core R} (h : p.core c) (event : Event R) :
    p.core (c.note event) :=
  h

theorem Policy.core_takeOut {p : Policy} {c : Core R} (h : p.core c) (key : EndpointKey) :
    p.core (takeOut c key) := by
  unfold Engine.takeOut
  split
  · exact h
  · intro k ep' hlookup
    exact h k ep' (Table.lookup_of_erase hlookup).right

structure Policy.Holds (p : Policy) (e : Engine R) : Prop where
  core : p.core e.toCore
  schedule : forall steps, steps ∈ e.schedule -> forall st, st ∈ steps -> p.step st

/-!
# Steps of the session
-/

def Driven (P : Client.Step -> Prop) (s s' : Session) : Prop :=
  exists steps, s' = List.foldl Session.step s steps ∧ forall st, st ∈ steps -> P st

theorem Driven.refl (P : Client.Step -> Prop) (s : Session) : Driven P s s :=
  ⟨[], rfl, fun _ h => by cases h⟩

theorem Driven.trans {P : Client.Step -> Prop} {s t u : Session} (h : Driven P s t)
    (h' : Driven P t u) : Driven P s u := by
  rcases h with ⟨front, rfl, hfront⟩
  rcases h' with ⟨back, rfl, hback⟩
  refine ⟨front ++ back, (List.foldl_append).symm, ?_⟩
  intro st hst
  rcases List.mem_append.mp hst with hmem | hmem
  · exact hfront st hmem
  · exact hback st hmem

theorem Driven.step {P : Client.Step -> Prop} (s : Session) {st : Client.Step} (h : P st) :
    Driven P s (s.step st) := by
  refine ⟨[st], rfl, ?_⟩
  intro st' hst'
  rw [List.mem_singleton.mp hst']
  exact h

/-- The engine goes on, its session is driven as the policy says, and so it stays. -/
structure Policy.Keeps (p : Policy) (e e' : Engine R) : Prop where
  holds : p.Holds e'
  driven : Driven p.step e.session e'.session

theorem Policy.Holds.refl {p : Policy} {e : Engine R} (h : p.Holds e) : p.Keeps e e :=
  ⟨h, Driven.refl _ _⟩

theorem Policy.Keeps.trans {p : Policy} {e e' e'' : Engine R} (h : p.Keeps e e')
    (h' : p.Keeps e' e'') : p.Keeps e e'' :=
  ⟨h'.holds, h.driven.trans h'.driven⟩

theorem Policy.Holds.withCore {p : Policy} {e : Engine R} (h : p.Holds e) {c : Core R}
    (hc : p.core c) : p.Keeps e { e with toCore := c } :=
  ⟨⟨hc, h.schedule⟩, Driven.refl _ _⟩

theorem Policy.Holds.acquire {p : Policy} {e : Engine R} (h : p.Holds e) :
    p.Keeps e e.acquire := by
  refine ⟨⟨h.core, ?_⟩, e.schedule.headD [], rfl, ?_⟩
  · intro steps hsteps
    exact h.schedule steps (List.mem_of_mem_tail hsteps)
  · cases hschedule : e.schedule with
    | nil =>
        intro st hst
        cases hst
    | cons steps rest =>
        apply h.schedule steps
        rw [hschedule]
        exact List.mem_cons_self

/-!
# Calls
-/

theorem Policy.Sound.unlink_keeps {p : Policy} (hp : p.Sound R) {e : Engine R}
    (h : p.Holds e) (n : UInt32) : p.Keeps e (e.unlink n) := by
  have hacquire := h.acquire
  unfold Engine.unlink
  split
  · exact h.refl
  · dsimp only
    split
    · rename_i shared hunlink
      have hstep := Driven.step e.acquire.session (hp.unlink n)
      rw [Client.Session.step_unlink hunlink] at hstep
      exact ⟨⟨hacquire.holds.core, hacquire.holds.schedule⟩, hacquire.driven.trans hstep⟩
    · exact ⟨⟨hacquire.holds.core, hacquire.holds.schedule⟩, hacquire.driven⟩

theorem Policy.Sound.unlinkAll_keeps {p : Policy} (hp : p.Sound R) {e : Engine R}
    (h : p.Holds e) (flights : List InFlight) : p.Keeps e (e.unlinkAll flights) := by
  induction flights generalizing e with
  | nil => exact h.refl
  | cons f rest ih =>
      have hone : p.Keeps e (e.unlinkOne f) := by
        unfold unlinkOne
        split
        · exact hp.unlink_keeps h f.seqnum
        · exact h.refl
      exact hone.trans (ih hone.holds)

theorem Policy.Sound.unlinkAll_with {p : Policy} (hp : p.Sound R) {e : Engine R}
    (h : p.Holds e) {c : Core R} (hc : p.core c) (flights : List InFlight) :
    p.Keeps e (unlinkAll { e with toCore := c } flights) :=
  (h.withCore hc).trans (hp.unlinkAll_keeps (h.withCore hc).holds flights)

theorem Policy.Sound.dropStale_keeps {p : Policy} (hp : p.Sound R) {e : Engine R}
    (h : p.Holds e) {key : EndpointKey} {ep : Endpoint R} (hinfo : p.info key ep.info)
    (hring : p.ring key ep.ring) (cause : Cause) :
    p.Keeps e (e.dropStale key ep cause) := by
  refine hp.unlinkAll_with h ?_ ep.inFlight
  apply Policy.core_note
  exact Policy.core_put h.core hinfo hring

theorem Policy.Holds.complete {p : Policy} {e : Engine R} (h : p.Holds e)
    {key : EndpointKey} {ep : Endpoint R} (hinfo : p.info key ep.info)
    (hring : p.ring key ep.ring) (origin : Option InFlight) (status : Status) (data : Bytes)
    (length : UInt32) :
    p.Keeps e { e with toCore := e.toCore.complete key ep origin status data length } :=
  h.withCore (Policy.core_put h.core hinfo (Policy.ring_complete hring status data length))

theorem Policy.submit_keeps {p : Policy} {pump : Engine R -> Engine R}
    (hpump : forall e, p.Holds e -> p.Keeps e (pump e)) {e : Engine R} (h : p.Holds e)
    (key : EndpointKey) (message : UInt64) {req : SubmitRequest}
    (hreq : p.step (Client.Step.submit req)) (stage : Stage) :
    p.Keeps e (e.submit pump key message req stage).1 := by
  have hacquire := h.acquire
  unfold Engine.submit
  cases hep : e.endpoints.lookup key with
  | none => exact h.refl
  | some ep =>
      rcases h.core key ep hep with ⟨hinfo, hring⟩
      dsimp only
      cases hsubmit : e.acquire.session.shared.submit req with
      | none => exact ⟨⟨hacquire.holds.core, hacquire.holds.schedule⟩, hacquire.driven⟩
      | some answer =>
          rcases answer with ⟨result, shared⟩
          cases result with
          | ok accepted =>
              rcases accepted with ⟨seqnum, reply⟩
              have hstep := Driven.step e.acquire.session hreq
              rw [Client.Session.step_submit hsubmit] at hstep
              refine ⟨⟨?_, hacquire.holds.schedule⟩, hacquire.driven.trans hstep⟩
              exact Policy.core_put hacquire.holds.core hinfo hring
          | error err =>
              dsimp only
              have hcomplete := hacquire.holds.complete hinfo hring none (errorStatus err) [] 0
              split
              · split
                · exact hacquire.trans (hcomplete.trans (hpump _ hcomplete.holds))
                · exact hacquire.trans hcomplete
              · exact hacquire

/-!
# The pump
-/

theorem Policy.Sound.fillLoop_keeps {p : Policy} (hp : p.Sound R)
    {pump : Engine R -> Engine R} (hpump : forall e, p.Holds e -> p.Keeps e (pump e))
    (key : EndpointKey) (rounds : Nat) {e : Engine R} (h : p.Holds e) :
    p.Keeps e (fillLoop pump key rounds e) := by
  induction rounds generalizing e with
  | zero => exact h.refl
  | succ rounds ih =>
      rw [fillLoop_succ]
      cases fillCode_round key e with
      | rests hround =>
          rw [hround]
          exact h.refl
      | @asks ep message transfer req stage hep hsome _ _ hpeek hreq hround =>
          rcases h.core key ep hep with ⟨hinfo, hring⟩
          have hahead : 0 < ep.inFlight.length := List.length_pos_iff.mpr hsome
          have hmessage := (hring ep.ring ReflTransGen.refl).right ep.inFlight.length message
            transfer hahead hpeek
          have hsubmit := Policy.submit_keeps hpump h key message
            (hp.ahead hinfo hahead hreq hmessage) stage
          cases hdone : e.submit pump key message req stage with
          | mk e' accepted =>
              rw [hdone] at hsubmit
              rw [hround _ _ _ _ hdone]
              split
              · exact hsubmit.trans (ih hsubmit.holds)
              · exact hsubmit

theorem settle_info (key : EndpointKey) (ep : Endpoint R) (f : InFlight)
    (result : TransferResult) : (settle key ep f result).1.info = ep.info := by
  cases hstage : applyStage ep f.stage
      (if f.direction = Direction.in then (f.outcome result).2.1 else [])
      (f.outcome result).2.2 with
  | mk ep' found =>
      rcases found with ⟨data, length, hidden⟩
      simp only [settle, hstage]
      exact (applyStage_frame hstage).right.right

theorem Policy.Holds.apply {p : Policy} {e : Engine R} (h : p.Holds e) (key : EndpointKey)
    {ep : Endpoint R} (hinfo : p.info key ep.info) (hring : p.ring key ep.ring)
    (f : InFlight) (result : TransferResult) : p.Keeps e (e.apply key ep f result).1 := by
  rw [apply_settle]
  refine ⟨⟨Policy.core_put h.core ?_ ?_, h.schedule⟩, Driven.refl _ _⟩
  · rw [settle_info]
    exact hinfo
  · rw [(settle_complete key ep f result).left]
    exact Policy.ring_complete hring _ _ _

theorem Policy.Sound.pumpLoop_keeps {p : Policy} (hp : p.Sound R) (rounds : Nat)
    (offline : Bool) (key : EndpointKey) {e : Engine R} (h : p.Holds e) :
    p.Keeps e (pumpLoop rounds offline key e) := by
  induction rounds generalizing offline e with
  | zero => exact ⟨⟨h.core, h.schedule⟩, Driven.refl _ _⟩
  | succ rounds ih =>
      rw [pumpLoop_succ]
      cases pumpCode_round offline key e with
      | rests hround =>
          rw [hround]
          exact h.refl
      | @stale ep front rest hlooks hflight hmoved hround =>
          rcases h.core key ep hlooks.lookup with ⟨hinfo, hring⟩
          have hdrop : p.Keeps e (e.dropStale key ep Cause.stale) :=
            hp.dropStale_keeps h hinfo hring Cause.stale
          rw [hround]
          exact hdrop.trans (ih offline hdrop.holds)
      | @result ep front rest result hlooks hflight hhead hresult hround =>
          rcases h.core key ep hlooks.lookup with ⟨hinfo, hring⟩
          have hdone : p.Keeps e (e.apply key { ep with inFlight := rest } front result).1 := by
            apply h.apply
            · exact hinfo
            · exact hring
          rw [hround]
          split
          · exact hdone.trans (ih _ hdone.holds)
          · exact hdone
      | fills hlooks hflight hhead hresult hround =>
          rw [hround]
          exact hp.fillLoop_keeps (fun _ hok => ih false hok) key 32 h
      | @completes ep ep' transfer status hlooks hflight hcurrent hsettles hround =>
          rcases h.core key ep hlooks.lookup with ⟨hinfo, hring⟩
          rcases hsettles.frame with ⟨hsame, _, hkind⟩
          have hdone : p.Keeps e
              { e with toCore := e.toCore.complete key ep' none status [] 0 } := by
            apply h.complete
            · rw [hkind]
              exact hinfo
            · rw [hsame]
              exact hring
          rw [hround]
          split
          · exact hdone.trans (ih false hdone.holds)
          · exact hdone
      | @asks ep transfer req stage hlooks hflight hcurrent hasks hround =>
          rcases h.core key ep hlooks.lookup with ⟨hinfo, hring⟩
          have hmessage := (hring ep.ring ReflTransGen.refl).left
            (Ring.current ep.ring).1 transfer (Prod.ext rfl hcurrent)
          have hsubmit := Policy.submit_keeps (fun _ hok => ih false hok) h key
            (Ring.current ep.ring).1 (hp.head hinfo hasks hmessage) stage
          cases hdone : e.submit (Engine.pumpLoop rounds false key) key
              (Ring.current ep.ring).1 req stage with
          | mk e' accepted =>
              rw [hdone] at hsubmit
              rw [hround _ _ _ _ hdone]
              split
              · exact hsubmit.trans
                  (hp.fillLoop_keeps (fun _ hok => ih false hok) key 32 hsubmit.holds)
              · exact hsubmit

/-!
# Operations
-/

theorem Policy.Sound.removeAll_keeps {p : Policy} (hp : p.Sound R) {e : Engine R}
    (h : p.Holds e) (keys : List EndpointKey) : p.Keeps e (e.removeAll keys) := by
  apply hp.unlinkAll_with h
  apply invariant_of_step (I := p.core)
  · exact fun c key hc => Policy.core_takeOut hc key
  · exact h.core

theorem Policy.Sound.finish_keeps {p : Policy} (hp : p.Sound R) (rounds : Nat) {e : Engine R}
    (h : p.Holds e) (key : EndpointKey) (token : Nat) (result : TransferResult) :
    p.Keeps e (e.finish rounds key token result) := by
  have hnote : p.Keeps e { e with toCore := e.toCore.note (Event.finished key token result) } :=
    h.withCore h.core
  unfold Engine.finish
  dsimp only
  split
  · exact hnote
  · rename_i ep hep
    rcases h.core key ep hep with ⟨hinfo, hring⟩
    split
    · exact hnote
    · rename_i front f back _
      have hrecord : p.Keeps { e with toCore := e.toCore.note (Event.finished key token result) }
          (record { e with toCore := e.toCore.note (Event.finished key token result) } key ep
            front f back result) := by
        unfold record
        split
        · refine hp.unlinkAll_with hnote.holds ?_ back
          apply Policy.core_note
          exact Policy.core_put hnote.holds.core hinfo hring
        · apply hnote.holds.withCore
          exact Policy.core_put hnote.holds.core hinfo hring
      exact hnote.trans (hrecord.trans (hp.pumpLoop_keeps rounds false key hrecord.holds))

theorem Policy.Sound.perform_keeps {p : Policy} (hp : p.Sound R) (rounds : Nat)
    {e : Engine R} (h : p.Holds e) {op : Op R} (hop : p.op op) :
    p.Keeps e (e.perform rounds op) := by
  cases op with
  | addEndpoint key info ring =>
      refine hp.unlinkAll_with h ?_ _
      apply Policy.core_note
      exact Policy.core_put h.core hop.left hop.right
  | updateEndpoint key info =>
      simp only [Engine.perform, updateEndpoint]
      split
      · exact h.refl
      · rename_i ep hep
        apply h.withCore
        exact Policy.core_put h.core hop (h.core key ep hep).right
  | removeEndpoint key => exact hp.removeAll_keeps h [key]
  | removeDevice n keys =>
      simp only [Engine.perform, removeDevice]
      split
      · exact hp.removeAll_keeps h keys
      · exact h.refl
  | resetEndpoint key =>
      simp only [Engine.perform, resetEndpoint]
      split
      · exact h.refl
      · rename_i ep hep
        rcases h.core key ep hep with ⟨hinfo, hring⟩
        refine hp.unlinkAll_with h ?_ _
        apply Policy.core_note
        apply Policy.core_note
        exact Policy.core_put h.core hinfo hring
  | pauseEndpoint key =>
      simp only [Engine.perform, pauseEndpoint]
      split
      · exact h.refl
      · split
        · exact h.refl
        · rename_i ep hep
          rcases h.core key ep hep with ⟨hinfo, hring⟩
          refine hp.unlinkAll_with h ?_ _
          exact Policy.core_put h.core hinfo hring
  | syncEndpoint key =>
      simp only [Engine.perform, syncEndpoint]
      split
      · exact h.refl
      · rename_i ep hep
        rcases h.core key ep hep with ⟨hinfo, hring⟩
        split
        · split
          · exact hp.dropStale_keeps h hinfo hring Cause.synced
          · exact h.refl
        · exact h.refl
  | doorbell key => exact hp.pumpLoop_keeps rounds false key h
  | deliver reply =>
      simp only [Engine.perform, deliver]
      split
      · rename_i task result _
        have htask : p.Keeps e { e with tasks := e.tasks.filter fun t => t.reply ≠ reply } :=
          h.withCore h.core
        exact htask.trans (hp.finish_keeps rounds htask.holds task.key task.token result)
      · exact h.refl
  | session st => exact ⟨⟨h.core, h.schedule⟩, Driven.step e.session hop⟩
  | host key ring =>
      simp only [Engine.perform, hostRing]
      split
      · exact h.refl
      · rename_i ep hep
        apply h.withCore
        exact Policy.core_put h.core (h.core key ep hep).left hop

/-- An operation that follows the policy drives the session as the policy says. -/
theorem Policy.Sound.step_keeps {p : Policy} (hp : p.Sound R) (rounds : Nat) {e : Engine R}
    (h : p.Holds e) {op : Op R} (hop : p.op op) : p.Keeps e (Engine.step rounds e op) := by
  unfold Engine.step
  split
  · exact h.refl
  · exact hp.perform_keeps rounds h hop

theorem Policy.start_holds {p : Policy} (device : Client.ExportedDevice)
    {schedule : List (List Client.Step)}
    (hschedule : forall steps, steps ∈ schedule -> forall st, st ∈ steps -> p.step st) :
    p.Holds (start device schedule : Engine R) where
  core := by
    intro key ep hep
    simp [start] at hep
  schedule := hschedule

/-- In a run of such operations the session is driven as the policy says. -/
theorem Policy.Sound.run_keeps {p : Policy} (hp : p.Sound R) (rounds : Nat)
    (device : Client.ExportedDevice) {schedule : List (List Client.Step)} {ops : List (Op R)}
    (hschedule : forall steps, steps ∈ schedule -> forall st, st ∈ steps -> p.step st)
    (hops : forall op, op ∈ ops -> p.op op) :
    p.Keeps (start device schedule : Engine R) (run rounds (start device schedule) ops) := by
  have hguarded : Guarded (Engine.step rounds) (fun _ op => p.op op)
      (start device schedule : Engine R) ops :=
    guarded_of_forall (fun op hop _ => hops op hop) _
  apply invariant_of_guarded (I := p.Keeps (start device schedule)) _ hguarded
  · exact (Policy.start_holds device hschedule).refl
  · intro e op hop h
    exact h.trans (hp.step_keeps rounds h.holds hop)

/-!
# Lists of messages
-/

theorem FakeRing.suffix_of_consumed {r r' : FakeRing} (h : ReflTransGen Consumed r r') :
    r'.queue <:+ r.queue := by
  induction h with
  | refl => exact List.suffix_refl _
  | tail _ hlast ih =>
      rcases hlast with ⟨status, data, length, rfl⟩
      refine List.IsSuffix.trans ?_ ih
      show (FakeRing.complete _).1.queue <:+ _
      unfold FakeRing.complete
      split
      · exact List.suffix_refl _
      · split
        · exact List.suffix_refl _
        · rename_i hqueue
          rw [hqueue]
          exact List.suffix_cons _ _

theorem FakeRing.follows {p : Policy} {key : EndpointKey} {r : FakeRing}
    (h : forall m, m ∈ r.queue -> forall ahead, p.message key ahead m.1) : p.ring key r := by
  intro r' hreaches
  have hsuffix := FakeRing.suffix_of_consumed hreaches
  constructor
  · intro message transfer hcurrent
    have hhead : r'.queue.head?.map Prod.fst = some transfer := congrArg Prod.snd hcurrent
    rcases Option.map_eq_some_iff.mp hhead with ⟨m, hm, rfl⟩
    exact h m (hsuffix.mem (List.mem_of_head? hm)) 0
  · intro ahead message transfer _ hpeek
    change FakeRing.peek r' ahead = _ at hpeek
    unfold FakeRing.peek at hpeek
    split at hpeek
    · cases hpeek
    · rename_i hm
      split at hpeek
      · cases hpeek
      · cases hpeek
        exact h _ (hsuffix.mem (List.mem_of_getElem? hm)) ahead

end Engine
end UsbIp
