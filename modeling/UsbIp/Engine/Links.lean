import UsbIp.Engine.Window

/-!
# Reading ahead across links

Looking ahead in a ring follows links, so URBs may be in flight for messages on
both sides of one.  The pump compares the first URB with the raw head, though.
Once every message before the link is completed, the link is the head, the URBs
behind it do not match, and they are given up as if the host had moved the ring,
to be submitted again behind the link.  This module gives such a run, and shows
that it is the only way: URBs are never found stale in a run in which the pump
does not come to a link while URBs are in flight.
-/

namespace UsbIp
namespace Engine

open Foundation
open Protocol
open Hci
open Client (TransferResult)

variable {R : Type}

/-!
# Queues after a reply
-/

/-- The queue after a reply has come in, before the pump runs. -/
def afterReply (token : Nat) (result : TransferResult) (flights : List InFlight) :
    List InFlight :=
  match splitAtToken token flights with
  | some (front, f, back) =>
      if f.unlinking ∧ isUnlinked result then
        front
      else
        front ++ { f with result := some result } :: back
  | none => flights

theorem splitAtToken_of_notMem {token : Nat} {flights : List InFlight}
    (h : forall f, f ∈ flights -> f.token ≠ token) : splitAtToken token flights = none := by
  cases hsplit : splitAtToken token flights with
  | none => rfl
  | some parts =>
      rcases parts with ⟨front, f, back⟩
      rcases splitAtToken_eq_some hsplit with ⟨hflights, htoken⟩
      refine absurd htoken (h f ?_)
      rw [hflights]
      exact List.mem_append_right _ List.mem_cons_self

theorem splitAtToken_of_sorted {front back : List InFlight} {f : InFlight}
    (h : (front ++ f :: back).Pairwise fun f g => f.token < g.token) :
    splitAtToken f.token (front ++ f :: back) = some (front, f, back) := by
  induction front with
  | nil => simp [splitAtToken]
  | cons g front ih =>
      rw [List.cons_append, List.pairwise_cons] at h
      have hlt : g.token < f.token :=
        h.left f (List.mem_append_right _ List.mem_cons_self)
      simp only [List.cons_append, splitAtToken, if_neg (Nat.ne_of_lt hlt), ih h.right]

theorem markPaused_messages (flights : List InFlight) :
    (markPaused flights).map InFlight.message = flights.map InFlight.message := by
  unfold markPaused
  rw [List.map_map]
  apply List.map_congr_left
  intro f _
  dsimp only [Function.comp]
  split <;> rfl

theorem Replied.lookup [Ring R] {task : Task} {result : TransferResult} {e e' : Engine R}
    (h : Replied task result e e') (htokens : e.toCore.TokensOk) :
    e'.endpoints.lookup task.key = (e.endpoints.lookup task.key).map fun ep =>
      { ep with inFlight := afterReply task.token result ep.inFlight } := by
  have hsorted := htokens.flight_sorted task.key
  cases h with
  | dropped hgone h =>
      rw [h.core]
      show e.endpoints.lookup task.key = _
      cases hep : e.endpoints.lookup task.key with
      | none => rfl
      | some ep =>
          rw [flightsOf_of_lookup hep] at hgone
          simp only [Option.map_some, afterReply, splitAtToken_of_notMem hgone]
  | recorded hep hsplit htoken hkeep h =>
      rw [flightsOf_of_lookup hep, hsplit] at hsorted
      rw [h.core, Core.put_lookup, if_pos rfl, hep]
      simp only [Option.map_some, afterReply, ← htoken, hsplit,
        splitAtToken_of_sorted hsorted, if_neg hkeep]
  | truncated hep hsplit htoken hpaused hunlinked h =>
      rw [flightsOf_of_lookup hep, hsplit] at hsorted
      rw [h.core, Core.note_endpoints, Core.put_lookup, if_pos rfl, hep]
      simp only [Option.map_some, afterReply, ← htoken, hsplit,
        splitAtToken_of_sorted hsorted, if_pos (And.intro hpaused hunlinked)]

/-!
# Stale URBs
-/

/-- URBs are given up because the head is another message. -/
def Event.Moved : Event R -> Prop
  | Event.discarded _ _ cause => cause = Cause.stale ∨ cause = Cause.synced
  | _ => False

variable [SlotRing R]

/-- The pump does not come to a link while URBs of this queue are in flight. -/
def QueueClear (key : EndpointKey) (e : Engine R)
    (queue : List InFlight -> List InFlight) : Prop :=
  forall ep, ep ∈ e.endpoints.lookup key -> strands key ep (queue ep.inFlight) = false

instance (key : EndpointKey) (e : Engine R) (queue : List InFlight -> List InFlight) :
    Decidable (QueueClear key e queue) :=
  inferInstanceAs (Decidable (forall ep, ep ∈ e.endpoints.lookup key ->
    strands key ep (queue ep.inFlight) = false))

/-- While URBs are in flight the head is no link. -/
def HeadClear (key : EndpointKey) (e : Engine R) : Prop :=
  forall ep, ep ∈ e.endpoints.lookup key -> ep.inFlight ≠ [] -> atLink ep.ring = false

/--
No operation makes the pump come to a link while URBs are in flight, and none
compares them with the head while that is one.
-/
def LinksClear (key : EndpointKey) (e : Engine R) : Op R -> Prop
  | Op.doorbell k => k = key -> QueueClear key e id
  | Op.syncEndpoint k => k = key -> HeadClear key e
  | Op.deliver reply => forall found, found ∈ e.arrived reply -> found.1.key = key ->
      QueueClear key e (afterReply found.1.token found.2)
  | _ => True

structure Unmoved (key : EndpointKey) (e : Engine R) : Prop where
  tokens : e.toCore.TokensOk
  window : forall ep, e.endpoints.lookup key = some ep ->
    Windowed ep.inFlight (SlotRing.slots ep.ring)
  history : forall ev, ev ∈ historyOf e.toCore key -> ¬ ev.Moved

structure Unmoving (key : EndpointKey) (e : Engine R) : Prop where
  tokens : e.toCore.TokensOk
  steady : Steady key e.toCore
  history : forall ev, ev ∈ historyOf e.toCore key -> ¬ ev.Moved

theorem Unmoving.unmoved {key : EndpointKey} {e : Engine R} (h : Unmoving key e) :
    Unmoved key e :=
  ⟨h.tokens, fun ep hep => (h.steady ep hep).window, h.history⟩

theorem Unmoved.sameView {key : EndpointKey} {e e' : Engine R} (h : Unmoved key e)
    (htokens : e'.toCore.TokensOk) (hview : SameView key e.toCore e'.toCore) :
    Unmoved key e' := by
  constructor
  · exact htokens
  · intro ep hep
    rw [hview.lookup] at hep
    exact h.window ep hep
  · rw [hview.history]
    exact h.history

/-- A call of `sync_endpoint` finds the first URB to be for the head. -/
theorem Unmoved.in_sync {key : EndpointKey} {e : Engine R} (h : Unmoved key e)
    (hclear : HeadClear key e) {ep : Endpoint R} (hep : e.endpoints.lookup key = some ep)
    {front : InFlight} {rest : List InFlight} (hflight : ep.inFlight = front :: rest) :
    front.message = (Ring.current ep.ring).1 :=
  (Endpoint.aligned_of_window (h.window ep hep) (hclear ep hep)).not_moved hflight

theorem LinksClear.sync {key : EndpointKey} {e : Engine R} {op : Op R}
    (h : LinksClear key e op) (hop : op = Op.syncEndpoint key) : HeadClear key e := by
  subst hop
  exact h rfl

theorem Change.unmoved {key : EndpointKey} {e e' : Engine R} {op : Op R}
    (hop : HostAppends key e op) (hclear : op = Op.syncEndpoint key -> HeadClear key e)
    (h : Change e e' op) (hok : Unmoved key e) : Unmoved key e' := by
  have htokens := h.tokensOk hok.tokens
  have hupdate : forall ep, e'.endpoints.lookup key = some ep ->
      Windowed ep.inFlight (SlotRing.slots ep.ring) ->
      (forall ev, ev ∈ historyOf e'.toCore key -> ¬ ev.Moved) -> Unmoved key e' := by
    intro ep hep hwindow hhistory
    refine ⟨htokens, ?_, hhistory⟩
    intro ep' hep'
    rw [hep] at hep'
    cases hep'
    exact hwindow
  cases h.seen key with
  | same hview => exact hok.sameView htokens hview
  | added hlookup hhistory =>
      apply hupdate _ hlookup (Windowed.nil _)
      rw [hhistory]
      simpa [Event.Moved] using hok.history
  | updated hep hlookup hhistory =>
      have hwindow := hok.window _ hep
      apply hupdate _ hlookup hwindow
      rw [hhistory]
      exact hok.history
  | removed _ _ hlookup hhistory =>
      constructor
      · exact htokens
      · intro ep hep
        rw [hlookup] at hep
        cases hep
      · rw [hhistory]
        simpa [Event.Moved] using hok.history
  | reset _ hlookup hhistory =>
      apply hupdate _ hlookup (Windowed.nil _)
      rw [hhistory]
      simpa [Event.Moved] using hok.history
  | paused _ hep hlookup hhistory =>
      apply hupdate _ hlookup ((hok.window _ hep).congr (markPaused_messages _))
      rw [hhistory]
      exact hok.history
  | synced hep hflight hmoved _ _ =>
      exact absurd (hok.in_sync (hclear rfl) hep hflight) hmoved
  | dropped _ _ _ hlookup hhistory =>
      constructor
      · exact htokens
      · intro ep hep
        rw [hlookup] at hep
        exact hok.window ep hep
      · rw [hhistory]
        simpa [Event.Moved] using hok.history
  | recorded _ _ hep hsplit _ _ hlookup hhistory =>
      refine hupdate _ hlookup ((hok.window _ hep).congr ?_) ?_
      · rw [hsplit]
        simp
      · rw [hhistory]
        simpa [Event.Moved] using hok.history
  | truncated _ _ hep hsplit _ _ _ hlookup hhistory =>
      have hwindow := hok.window _ hep
      rw [hsplit] at hwindow
      apply hupdate _ hlookup hwindow.front
      rw [hhistory]
      simpa [Event.Moved] using hok.history
  | host hep hlookup hhistory =>
      rcases hop rfl _ hep with ⟨more, hmore⟩
      apply hupdate _ hlookup (hmore ▸ (hok.window _ hep).append more)
      rw [hhistory]
      exact hok.history

/-!
# Runs
-/

theorem Action.unmoving {key : EndpointKey} {e e' : Engine R} (h : Action key e e')
    (haccepting : Accepting key e'.toCore) (hok : Unmoving key e) : Unmoving key e' := by
  constructor
  · exact h.tokensOk hok.tokens
  · exact h.steady haccepting hok.steady
  · cases h with
    | idle h =>
        rw [h.core]
        exact hok.history
    | stale hep hactive hflight hmoved _ =>
        exact absurd ((hok.steady _ hep).not_moved hactive hflight) hmoved
    | applied _ _ _ _ _ _ h =>
        rw [h.core, complete_history]
        simpa [Event.Moved] using hok.history
    | settled _ _ _ _ _ h =>
        rw [h.core, complete_history]
        simpa [Event.Moved] using hok.history
    | submitted _ _ _ _ _ h =>
        rw [h.core, push_history]
        simpa [Event.Moved] using hok.history
    | refused _ _ _ _ _ _ h =>
        rw [h.core, complete_history]
        simpa [Event.Moved] using hok.history

theorem Unmoved.doorbell {key : EndpointKey} {e : Engine R} (h : Unmoved key e)
    (hclear : QueueClear key e id) : Unmoving key e :=
  ⟨h.tokens, fun ep hep => ⟨h.window ep hep, hclear ep hep⟩, h.history⟩

theorem Unmoved.callback {e e' : Engine R} {task : Task} {result : TransferResult}
    (h : Unmoved task.key e) (harrived : e.arrived task.reply = some (task, result))
    (hreplied : Replied task result e e')
    (hclear : QueueClear task.key e (afterReply task.token result)) :
    Unmoving task.key e' := by
  have hop : HostAppends task.key e (Op.deliver task.reply) := trivial
  have hafter : Unmoved task.key e' := (Change.replied harrived hreplied).unmoved hop nofun h
  refine ⟨hafter.tokens, ?_, hafter.history⟩
  intro ep hep
  constructor
  · exact hafter.window ep hep
  · rw [hreplied.lookup h.tokens] at hep
    rcases Option.map_eq_some_iff.mp hep with ⟨ep', hep', rfl⟩
    rw [strands_inFlight]
    exact hclear ep' hep'

theorem start_unmoved (key : EndpointKey) (device : Client.ExportedDevice)
    (schedule : List (List Client.Step)) :
    Unmoved key (start device schedule : Engine R) where
  tokens := start_tokensOk device schedule
  window := by simp [start]
  history := by simp [start, historyOf]

/--
If the host does not move the ring, and neither the pump comes to a link while
URBs are in flight nor `sync_endpoint` finds one at the head then, no URB is ever
found to be stale.
-/
theorem urbs_never_stale (rounds : Nat) (device : Client.ExportedDevice)
    (schedule : List (List Client.Step)) (ops : List (Op R)) (key : EndpointKey)
    (hrun : Guarded (step rounds)
      (fun e op => HostAppends key e op ∧ LinksClear key e op) (start device schedule) ops)
    (haccepting : Accepting key (run rounds (start device schedule) ops).toCore)
    (flights : List InFlight) (cause : Cause)
    (hdiscarded : Event.discarded key flights cause ∈
      (run rounds (start device schedule : Engine R) ops).log) :
    cause ≠ Cause.stale ∧ cause ≠ Cause.synced := by
  have hok : Unmoved key (run rounds (start device schedule) ops) := by
    refine pumping_run_invariant (I := Unmoved key) (J := Unmoving key)
      (fun _ _ _ hop h hok => h.unmoved hop.left hop.right.sync hok)
      (fun _ hop hok => hok.doorbell (hop.right rfl)) ?_
      (fun _ _ h hacc hok => h.unmoving hacc hok) ?_ (fun _ hok => hok.unmoved) hrun
      (start_unmoved key device schedule) haccepting
    · intro e e' task result hop harrived hkey hreplied hok
      subst hkey
      exact hok.callback harrived hreplied (hop.right (task, result) harrived rfl)
    · intro k e e' hk h _ hok
      exact hok.sameView (h.tokensOk hok.tokens) (h.other hk)
  have hnot := hok.history _ (mem_historyOf.mpr ⟨hdiscarded, rfl⟩)
  exact ⟨fun h => hnot (Or.inl h), fun h => hnot (Or.inr h)⟩

theorem urbs_never_stale_one_at_a_time :
    let key : EndpointKey := (1, 0x81)
    let ring : QueueRing :=
      { active := true
        slots := [⟨10, .normal 2, [0, 0], rfl⟩, ⟨11, .link true, [], rfl⟩,
          ⟨20, .normal 2, [0, 0], rfl⟩]
        next := 21 }
    let ops :=
      [Op.addEndpoint key { kind := .interrupt, maxPacketSize := 8, bInterval := 4 } ring,
        Op.doorbell key] ++ answered 1 2 [5, 6] ++ [Op.deliver 0]
    let e := run 8 (start sampleDevice []) ops
    (historyOf e.toCore key).length = 7 ∧
      forall flights cause, Event.discarded key flights cause ∈ e.log ->
        cause ≠ Cause.stale ∧ cause ≠ Cause.synced := by
  intro key ring ops e
  constructor
  · decide +kernel
  · refine urbs_never_stale 8 sampleDevice [] ops key ?_ (by decide +kernel)
    refine ⟨⟨trivial, trivial⟩, ⟨trivial, fun _ => by decide +kernel⟩, ⟨trivial, trivial⟩,
      ⟨trivial, trivial⟩, ⟨trivial, trivial⟩, ⟨trivial, ?_⟩, trivial⟩
    unfold LinksClear
    decide +kernel

def Event.message? : Event R -> Option UInt64
  | Event.submitted s => some s.flight.message
  | _ => none

def Event.stale? : Event R -> Option (List InFlight)
  | Event.discarded _ flights Cause.stale => some flights
  | _ => none

/--
The same ring with reads ahead: both are in flight when the first is answered,
the link becomes the head, the second read is given up although its message is
still in the ring, and it is submitted a second time.
-/
theorem read_ahead_of_link_stale :
    let key : EndpointKey := (1, 0x81)
    let ring : QueueRing :=
      { active := true
        slots := [⟨10, .normal 2, [0, 0], rfl⟩, ⟨11, .link true, [], rfl⟩,
          ⟨20, .normal 2, [0, 0], rfl⟩]
        next := 21 }
    let ops :=
      [Op.addEndpoint key { kind := .bulk, maxPacketSize := 512, bInterval := 0 } ring,
        Op.doorbell key] ++ answered 1 2 [5, 6] ++ [Op.deliver 0]
    let e := run 8 (start sampleDevice []) ops
    Guarded (step 8) (Undisturbed key) (start sampleDevice []) ops ∧
      Accepting key e.toCore ∧ e.stuck = false ∧
      (exists flights, Event.discarded key flights Cause.stale ∈ e.log) ∧
      (historyOf e.toCore key).reverse.filterMap Event.message? = [10, 20, 20] := by
  intro key ring ops e
  refine ⟨?_, by decide +kernel, by decide +kernel, ?_, by decide +kernel⟩
  · exact ⟨fun _ => rfl, trivial, trivial, trivial, trivial, trivial, trivial⟩
  · have hstale : ((historyOf e.toCore key).findSome? Event.stale?).isSome = true := by
      decide +kernel
    rcases Option.isSome_iff_exists.mp hstale with ⟨flights, hflights⟩
    rcases List.exists_of_findSome?_eq_some hflights with ⟨ev, hev, hfound⟩
    rcases mem_historyOf.mp hev with ⟨hlog, hkey⟩
    cases ev with
    | discarded k others cause =>
        cases cause with
        | stale =>
            change k = key at hkey
            rw [hkey] at hlog
            exact ⟨others, hlog⟩
        | _ => cases hfound
    | _ => cases hfound

end Engine
end UsbIp
