import UsbIp.Engine.Links
import UsbIp.Engine.Rounds

/-!
# Losing the connection

When the connection is lost, every URB on the server gets a callback with the
same error, in any order.  Each callback runs the pump.  A URB result that says
that the connection is gone keeps that run of the pump from sending anything, and
one that has to wait for its turn keeps it from reading ahead.  So the callbacks
complete the messages of the URBs in ring order, whatever order they come in, and
nothing else.
-/

namespace UsbIp
namespace Engine

open Foundation
open Protocol
open Hci
open Client (TransferError TransferResult)

variable {R : Type} [Ring R]

/-!
# Results in ring order
-/

/--
The URBs are for the messages of the ring, from the head on. The ring is active
as each of them becomes the head, and it accepts the completion.
-/
def Matches : R -> List InFlight -> Prop
  | _, [] => True
  | ring, f :: rest =>
      Ring.active ring = true ∧ (Ring.current ring).1 = f.message ∧
        forall status data length,
          (Ring.complete ring status data length).2.isOk = true ∧
            Matches (Ring.complete ring status data length).1 rest

/-- The results of a queue, one after the other: the endpoint and the completions. -/
def drain (key : EndpointKey) :
    Endpoint R -> List InFlight -> Endpoint R × List (Completion R) × Bool
  | ep, [] => (ep, [], false)
  | ep, f :: rest =>
      match f.result with
      | none => (ep, [], false)
      | some result =>
          let one := settle key ep f result
          let more := drain key one.1 rest
          (more.1, one.2.1 :: more.2.1, one.2.2 || more.2.2)

theorem drain_cons {f : InFlight} {result : TransferResult} (h : f.result = some result)
    (key : EndpointKey) (ep : Endpoint R) (rest : List InFlight) :
    drain key ep (f :: rest) =
      ((drain key (settle key ep f result).1 rest).1,
        (settle key ep f result).2.1 :: (drain key (settle key ep f result).1 rest).2.1,
        (settle key ep f result).2.2 ||
          (drain key (settle key ep f result).1 rest).2.2) := by
  rw [drain, h]

theorem drain_append {done : List InFlight}
    (h : forall f, f ∈ done -> f.result.isSome = true) (key : EndpointKey)
    (ep : Endpoint R) (more : List InFlight) :
    drain key ep (done ++ more) =
      ((drain key (drain key ep done).1 more).1,
        (drain key ep done).2.1 ++ (drain key (drain key ep done).1 more).2.1,
        (drain key ep done).2.2 || (drain key (drain key ep done).1 more).2.2) := by
  induction done generalizing ep with
  | nil => simp [drain]
  | cons f done ih =>
      rcases Option.isSome_iff_exists.mp (h f List.mem_cons_self) with ⟨result, hresult⟩
      have hrest := ih (fun g hg => h g (List.mem_cons_of_mem f hg))
        (settle key ep f result).1
      rw [List.cons_append, drain_cons hresult, drain_cons hresult, hrest, List.cons_append,
        Bool.or_assoc]

theorem Matches.congr {ring : R} {flights flights' : List InFlight}
    (h : Matches ring flights)
    (hmessages : flights'.map InFlight.message = flights.map InFlight.message) :
    Matches ring flights' := by
  induction flights generalizing ring flights' with
  | nil =>
      rw [List.map_eq_nil_iff.mp hmessages]
      trivial
  | cons f flights ih =>
      cases flights' with
      | nil => cases hmessages
      | cons g flights' =>
          rw [List.map_cons, List.map_cons, List.cons.injEq] at hmessages
          rcases h with ⟨hactive, hhead, hcomplete⟩
          refine ⟨hactive, hhead.trans hmessages.left.symm, ?_⟩
          intro status data length
          constructor
          · exact (hcomplete status data length).left
          · exact ih (hcomplete status data length).right hmessages.right

theorem Matches.settle {ep : Endpoint R} {f : InFlight} {rest : List InFlight}
    (h : Matches ep.ring (f :: rest)) (key : EndpointKey) (result : TransferResult) :
    (settle key ep f result).2.1.accepted = true ∧
      Matches (Engine.settle key ep f result).1.ring rest := by
  rcases settle_complete key ep f result with ⟨hring, haccepted⟩
  rw [hring, haccepted]
  exact h.right.right _ _ _

theorem Matches.drain {ep : Endpoint R} {done rest : List InFlight}
    (h : Matches ep.ring (done ++ rest))
    (hdone : forall f, f ∈ done -> f.result.isSome = true) (key : EndpointKey) :
    Matches (drain key ep done).1.ring rest := by
  induction done generalizing ep with
  | nil => exact h
  | cons f done ih =>
      rcases Option.isSome_iff_exists.mp (hdone f List.mem_cons_self) with ⟨result, hresult⟩
      rw [drain_cons hresult]
      exact ih (h.settle key result).right fun g hg => hdone g (List.mem_cons_of_mem f hg)

/-!
# One callback
-/

/--
The engine once some URBs of an endpoint are completed and others remain. Nothing
but this endpoint, the warning and the history has changed.
-/
def drained (e : Engine R) (key : EndpointKey) (ep : Endpoint R)
    (done remaining : List InFlight) (log : List (Event R)) : Engine R :=
  { e with
    endpoints := e.endpoints.insert key { (drain key ep done).1 with inFlight := remaining }
    log := log
    uasWarned := e.uasWarned || (drain key ep done).2.2 }

def InFlight.Lost (f : InFlight) : Prop :=
  exists reason, f.result = some (.error (.disconnected reason))

theorem drain_concat {done : List InFlight}
    (hdone : forall f, f ∈ done -> f.result.isSome = true) {f : InFlight}
    {result : TransferResult} (h : f.result = some result) (key : EndpointKey)
    (ep : Endpoint R) :
    drain key ep (done ++ [f]) =
      ((settle key (drain key ep done).1 f result).1,
        (drain key ep done).2.1 ++ [(settle key (drain key ep done).1 f result).2.1],
        (drain key ep done).2.2 || (settle key (drain key ep done).1 f result).2.2) := by
  rw [drain_append hdone, drain_cons h, drain, Bool.or_false]

theorem drained_apply (e : Engine R) (key : EndpointKey) (ep : Endpoint R)
    {done rest : List InFlight} (hdone : forall f, f ∈ done -> f.result.isSome = true)
    {f : InFlight} {result : TransferResult} (hresult : f.result = some result)
    (hmatch : Matches (drain key ep done).1.ring (f :: rest)) (log : List (Event R)) :
    (drained e key ep done (f :: rest) log).apply key
        { (drain key ep done).1 with inFlight := rest } f result =
      (drained e key ep (done ++ [f]) rest
          (Event.completed (settle key (drain key ep done).1 f result).2.1 :: log),
        if (f.outcome result).1 = Status.offline then Flow.offline else Flow.continue) := by
  have haccepted := (hmatch.settle key result).left
  rw [apply_settle, settle_inFlight]
  dsimp only
  rw [if_pos haccepted]
  simp only [drained, Core.put, Core.note, AList.insert_insert, drain_concat hdone hresult,
    Bool.or_assoc]

theorem drained_lookup (e : Engine R) (key : EndpointKey) (ep : Endpoint R)
    (done remaining : List InFlight) (log : List (Event R)) :
    (drained e key ep done remaining log).endpoints.lookup key =
      some { (drain key ep done).1 with inFlight := remaining } :=
  AList.lookup_insert e.endpoints

/--
A run of the pump that knows of a lost URB, or that has just seen one, completes
the results at the front of the queue and does nothing else.
-/
theorem pumpLoop_drains {e : Engine R} (hstuck : e.stuck = false) (key : EndpointKey)
    (ep : Endpoint R) {done queue : List InFlight}
    (hdone : forall f, f ∈ done -> f.result.isSome = true)
    (hmatch : Matches (drain key ep done).1.ring queue) (offline : Bool)
    (hstop : offline = true ∨ exists f, f ∈ queue ∧ f.Lost) {rounds : Nat}
    (hrounds : queue.length < rounds) (log : List (Event R)) :
    exists front back, queue = front ++ back ∧
      (forall f, f ∈ front -> f.result.isSome = true) ∧
      (forall f, f ∈ back.head? -> f.result = none) ∧
      pumpLoop rounds offline key (drained e key ep done queue log) =
        drained e key ep (done ++ front) back
          (((drain key (drain key ep done).1 front).2.1.map Event.completed).reverse ++
            log) := by
  induction queue generalizing done rounds offline log with
  | nil =>
      have hoffline : offline = true := by
        rcases hstop with h | ⟨f, hf, _⟩
        · exact h
        · cases hf
      refine ⟨[], [], rfl, by simp, by simp, ?_⟩
      rw [hoffline, List.append_nil]
      rcases Nat.exists_eq_succ_of_ne_zero (Nat.ne_zero_of_lt hrounds) with ⟨more, rfl⟩
      exact pumpLoop_offline (drained_lookup e key ep done [] log) rfl more
  | cons f rest ih =>
      rcases Nat.exists_eq_succ_of_ne_zero (Nat.ne_zero_of_lt hrounds) with ⟨more, rfl⟩
      have hlooks : Looks (drained e key ep done (f :: rest) log) key
          { (drain key ep done).1 with inFlight := f :: rest } :=
        ⟨hstuck, drained_lookup e key ep done (f :: rest) log, hmatch.left⟩
      have hhead := hmatch.right.left.symm
      cases hresult : f.result with
      | none =>
          refine ⟨[], f :: rest, rfl, by simp, by simp [hresult], ?_⟩
          rw [pumpLoop_waiting hlooks rfl hhead hresult, List.append_nil]
          rcases hstop with h | ⟨g, hg, reason, hlost⟩
          · rw [if_pos h]
            rfl
          · rw [fill_of_parked hlooks.lookup ⟨g, hg, by rw [hlost]; rfl⟩]
            exact ite_self _
      | some result =>
          have happly := drained_apply e key ep hdone hresult hmatch log
          have hdone' : forall g, g ∈ done ++ [f] -> g.result.isSome = true := by
            intro g hg
            rcases List.mem_append.mp hg with hg | hg
            · exact hdone g hg
            · rw [List.mem_singleton.mp hg, hresult]
              rfl
          have hstop' : (offline || decide ((f.outcome result).1 = Status.offline)) = true ∨
              exists g, g ∈ rest ∧ g.Lost := by
            rcases hstop with h | ⟨g, hg, reason, hlost⟩
            · exact Or.inl (by rw [h]; rfl)
            · rcases List.mem_cons.mp hg with rfl | hg
              · rw [hresult] at hlost
                cases hlost
                exact Or.inl (Bool.or_true offline)
              · exact Or.inr ⟨g, hg, reason, hlost⟩
          have hmatch' : Matches (drain key ep (done ++ [f])).1.ring rest := by
            rw [drain_concat hdone hresult]
            exact (hmatch.settle key result).right
          rcases ih hdone' hmatch' _ hstop' (Nat.lt_of_succ_lt_succ hrounds)
              (Event.completed (settle key (drain key ep done).1 f result).2.1 :: log) with
            ⟨front, back, hsplit, hfront, hback, hloop⟩
          refine ⟨f :: front, back, by rw [hsplit]; rfl, ?_, hback, ?_⟩
          · intro g hg
            rcases List.mem_cons.mp hg with rfl | hg
            · rw [hresult]
              rfl
            · exact hfront g hg
          · have haccepted : (settle key { (drain key ep done).1 with inFlight := rest } f
                result).2.1.accepted = true := by
              rw [settle_inFlight]
              exact (hmatch.settle key result).left
            rw [pumpLoop_result hlooks rfl hhead hresult, if_pos haccepted, happly, hloop,
              List.append_assoc, drain_concat hdone hresult, drain_cons hresult]
            simp

/-!
# Callbacks
-/

def InFlight.lose (reason : Nat -> String) (f : InFlight) : InFlight :=
  if f.result.isNone then
    { f with result := some (.error (.disconnected (reason f.token))) }
  else
    f

def loseAll (reason : Nat -> String) (tokens : List Nat) (flights : List InFlight) :
    List InFlight :=
  flights.map fun f => if f.token ∈ tokens then f.lose reason else f

/-- The callback of a URB whose connection was lost. -/
def loseOne (rounds : Nat) (key : EndpointKey) (reason : Nat -> String) (e : Engine R)
    (token : Nat) : Engine R :=
  e.finish rounds key token (.error (.disconnected (reason token)))

def Tells (e : Engine R) (completions : List (Completion R)) (log : List (Event R)) : Prop :=
  log.filter Event.ofPump =
    (completions.map Event.completed).reverse ++ e.log.filter Event.ofPump

/--
Some callbacks have run: the URBs at the front are completed, and the first one
that remains waits for its callback.
-/
structure Drains (e : Engine R) (key : EndpointKey) (ep : Endpoint R)
    (reason : Nat -> String) (tokens : List Nat) (e' : Engine R) (front back : List InFlight)
    (log : List (Event R)) : Prop where
  state : e' = drained e key ep front back log
  flights : loseAll reason tokens ep.inFlight = front ++ back
  finished : forall f, f ∈ front -> f.result.isSome = true
  waits : tokens ≠ [] -> forall f, f ∈ back.head? -> f.result = none
  history : Tells e (drain key ep front).2.1 log

theorem lose_token (reason : Nat -> String) (f : InFlight) :
    (f.lose reason).token = f.token := by
  unfold InFlight.lose
  split <;> rfl

theorem lose_message (reason : Nat -> String) (f : InFlight) :
    (f.lose reason).message = f.message := by
  unfold InFlight.lose
  split <;> rfl

theorem lose_lose (reason : Nat -> String) (f : InFlight) :
    (f.lose reason).lose reason = f.lose reason := by
  cases h : f.result with
  | none => simp [InFlight.lose, h]
  | some result => simp [InFlight.lose, h]

theorem loseAll_map {a : Type} (reason : Nat -> String) (tokens : List Nat)
    (flights : List InFlight) (g : InFlight -> a)
    (hg : forall f : InFlight, g (f.lose reason) = g f) :
    (loseAll reason tokens flights).map g = flights.map g := by
  unfold loseAll
  rw [List.map_map]
  apply List.map_congr_left
  intro f _
  dsimp only [Function.comp]
  split
  · exact hg f
  · rfl

theorem loseAll_cons (reason : Nat -> String) (token : Nat) (tokens : List Nat)
    (flights : List InFlight) :
    loseAll reason (token :: tokens) flights =
      (loseAll reason tokens flights).map fun f =>
        if f.token = token then f.lose reason else f := by
  unfold loseAll
  rw [List.map_map]
  apply List.map_congr_left
  intro f _
  dsimp only [Function.comp]
  by_cases hmem : f.token ∈ tokens
  · simp [hmem, lose_lose]
  · simp [hmem]

theorem loseAll_split {reason : Nat -> String} {tokens : List Nat}
    {flights before after : List InFlight} {f : InFlight}
    (hsorted : flights.Pairwise fun f g => f.token < g.token)
    (h : loseAll reason tokens flights = before ++ f :: after) :
    (before ++ f :: after).Pairwise (fun f g => f.token < g.token) ∧
      loseAll reason (f.token :: tokens) flights = before ++ f.lose reason :: after := by
  have htokens : (before ++ f :: after).map InFlight.token = flights.map InFlight.token := by
    rw [← h]
    exact loseAll_map reason tokens flights InFlight.token (lose_token reason)
  have hpairs : (before ++ f :: after).Pairwise fun f g => f.token < g.token := by
    have hflights := List.pairwise_map.mpr hsorted
    rw [← htokens] at hflights
    exact List.pairwise_map.mp hflights
  constructor
  · exact hpairs
  · rw [loseAll_cons, h, List.map_append, List.map_cons, if_pos rfl]
    rw [List.pairwise_append, List.pairwise_cons] at hpairs
    rcases hpairs with ⟨_, ⟨hafter, _⟩, hbefore⟩
    have hother : forall gs : List InFlight, (forall g, g ∈ gs -> g.token ≠ f.token) ->
        gs.map (fun g => if g.token = f.token then g.lose reason else g) = gs := by
      intro gs hgs
      calc
        gs.map (fun g => if g.token = f.token then g.lose reason else g) = gs.map id :=
          List.map_congr_left fun g hg => if_neg (hgs g hg)
        _ = gs := List.map_id gs
    rw [hother before fun g hg => Nat.ne_of_lt (hbefore g hg f List.mem_cons_self),
      hother after fun g hg => Nat.ne_of_gt (hafter g hg)]

omit [Ring R] in
theorem Tells.append {e : Engine R} {completions : List (Completion R)}
    {log : List (Event R)} (h : Tells e completions log) (more : List (Completion R))
    (key : EndpointKey) (token : Nat) (result : TransferResult) :
    Tells e (completions ++ more)
      ((more.map Event.completed).reverse ++ Event.finished key token result :: log) := by
  have hmore : ((more.map Event.completed).reverse : List (Event R)).filter Event.ofPump =
      (more.map Event.completed).reverse := by
    apply List.filter_eq_self.mpr
    intro ev hev
    rcases List.mem_map.mp (List.mem_reverse.mp hev) with ⟨c, _, rfl⟩
    rfl
  rw [Tells, List.filter_append, hmore, List.filter_cons_of_neg (by simp [Event.ofPump]), h,
    List.map_append, List.reverse_append, List.append_assoc]

theorem loseOne_drained {e : Engine R} {key : EndpointKey} {ep : Endpoint R}
    {done before after : List InFlight} {f : InFlight}
    (hsorted : (before ++ f :: after).Pairwise fun f g => f.token < g.token)
    (hwaiting : f.result = none) (rounds : Nat) (reason : Nat -> String)
    (log : List (Event R)) :
    loseOne rounds key reason (drained e key ep done (before ++ f :: after) log) f.token =
      pumpLoop rounds false key (drained e key ep done (before ++ f.lose reason :: after)
        (Event.finished key f.token (.error (.disconnected (reason f.token))) :: log)) := by
  have hlose : f.lose reason =
      { f with result := some (.error (.disconnected (reason f.token))) } := by
    rw [InFlight.lose, hwaiting]
    rfl
  have hlookup := drained_lookup e key ep done (before ++ f :: after) log
  rw [loseOne, finish]
  simp only [Core.note_endpoints, hlookup, splitAtToken_of_sorted hsorted, record, isUnlinked,
    Bool.false_eq_true, and_false, if_false, pump, hlose]
  simp only [drained, Core.put, Core.note, AList.insert_insert]

theorem Drains.callback {e e' : Engine R} {key : EndpointKey} {ep : Endpoint R}
    {reason : Nat -> String} {tokens : List Nat} {front back : List InFlight}
    {log : List (Event R)} (h : Drains e key ep reason tokens e' front back log)
    (hstuck : e.stuck = false)
    (hsorted : ep.inFlight.Pairwise fun f g => f.token < g.token)
    (hmatch : Matches ep.ring ep.inFlight) {rounds : Nat}
    (hrounds : ep.inFlight.length < rounds) {f : InFlight} (hf : f ∈ ep.inFlight)
    (hwaiting : f.result = none) (hnew : f.token ∉ tokens) :
    exists front' back' log', Drains e key ep reason (f.token :: tokens)
      (loseOne rounds key reason e' f.token) front' back' log' := by
  have hstill : f ∈ front ++ back := by
    rw [← h.flights]
    exact List.mem_map.mpr ⟨f, hf, if_neg hnew⟩
  have hback : f ∈ back := by
    rcases List.mem_append.mp hstill with hfront | hback
    · have hdone := h.finished f hfront
      rw [hwaiting] at hdone
      cases hdone
    · exact hback
  rcases List.append_of_mem hback with ⟨before, after, rfl⟩
  have hsplit := h.flights
  rw [← List.append_assoc] at hsplit
  rcases loseAll_split hsorted hsplit with ⟨hpairs, hlost⟩
  rw [List.append_assoc] at hpairs hlost
  have hmessages : (front ++ (before ++ f.lose reason :: after)).map InFlight.message =
      ep.inFlight.map InFlight.message := by
    rw [← hlost]
    exact loseAll_map reason _ ep.inFlight InFlight.message (lose_message reason)
  have hqueue : Matches (drain key ep front).1.ring (before ++ f.lose reason :: after) :=
    (hmatch.congr hmessages).drain h.finished key
  have hlength : (before ++ f.lose reason :: after).length < rounds := by
    have hlengths := congrArg List.length hmessages
    rw [List.length_map, List.length_map, List.length_append] at hlengths
    omega
  have hgone : (f.lose reason).Lost := by
    rw [InFlight.lose, hwaiting]
    exact ⟨_, rfl⟩
  rcases pumpLoop_drains hstuck key ep h.finished hqueue false
      (Or.inr ⟨_, List.mem_append_right _ List.mem_cons_self, hgone⟩) hlength
      (Event.finished key f.token (.error (.disconnected (reason f.token))) :: log) with
    ⟨more, rest, hrest, hmore, hwaits, hloop⟩
  rw [← loseOne_drained (List.pairwise_append.mp hpairs).right.left hwaiting,
    ← h.state] at hloop
  have hhistory := h.history.append (drain key (drain key ep front).1 more).2.1 key f.token
    (.error (.disconnected (reason f.token)))
  refine ⟨front ++ more, rest, _, hloop, ?_, ?_, fun _ => hwaits, ?_⟩
  · rw [hlost, hrest, List.append_assoc]
  · intro g hg
    rcases List.mem_append.mp hg with hg | hg
    · exact h.finished g hg
    · exact hmore g hg
  · rw [drain_append h.finished]
    exact hhistory

/-- Callbacks of URBs that wait, in any order. -/
theorem Drains.callbacks {e e' : Engine R} {key : EndpointKey} {ep : Endpoint R}
    {reason : Nat -> String} {done : List Nat} {front back : List InFlight}
    {log : List (Event R)} (h : Drains e key ep reason done e' front back log)
    (hstuck : e.stuck = false)
    (hsorted : ep.inFlight.Pairwise fun f g => f.token < g.token)
    (hmatch : Matches ep.ring ep.inFlight) {rounds : Nat}
    (hrounds : ep.inFlight.length < rounds) {tokens : List Nat}
    (hwaiting : forall t, t ∈ tokens ->
      exists f, f ∈ ep.inFlight ∧ f.result = none ∧ f.token = t)
    (hnodup : tokens.Nodup) (hnew : forall t, t ∈ tokens -> t ∉ done) :
    exists front' back' log', Drains e key ep reason (tokens.reverse ++ done)
      (tokens.foldl (loseOne rounds key reason) e') front' back' log' := by
  induction tokens generalizing done e' front back log with
  | nil => exact ⟨front, back, log, h⟩
  | cons t tokens ih =>
      rcases hwaiting t List.mem_cons_self with ⟨f, hf, hresult, rfl⟩
      rcases h.callback hstuck hsorted hmatch hrounds hf hresult
          (hnew f.token List.mem_cons_self) with ⟨front', back', log', h'⟩
      rw [List.nodup_cons] at hnodup
      have hrest := ih h' (fun t ht => hwaiting t (List.mem_cons_of_mem f.token ht))
        hnodup.right ?_
      · rw [List.reverse_cons, List.append_assoc]
        exact hrest
      · intro t ht hmem
        rcases List.mem_cons.mp hmem with rfl | hmem
        · exact hnodup.left ht
        · exact hnew t (List.mem_cons_of_mem f.token ht) hmem

/-!
# The connection is lost
-/

def InFlight.lostStatus (f : InFlight) : Status :=
  match f.result with
  | none => Status.offline
  | some result => (f.outcome result).1

theorem lose_isSome (reason : Nat -> String) (f : InFlight) :
    (f.lose reason).result.isSome = true := by
  cases h : f.result with
  | none => simp [InFlight.lose, h]
  | some result => simp [InFlight.lose, h]

theorem lose_status {reason : Nat -> String} {f : InFlight} {result : TransferResult}
    (h : (f.lose reason).result = some result) :
    ((f.lose reason).outcome result).1 = f.lostStatus := by
  cases hresult : f.result with
  | none =>
      simp only [InFlight.lose, hresult, Option.isNone_none, if_true, Option.some.injEq] at h
      rw [← h, InFlight.lostStatus, hresult]
      rfl
  | some own =>
      have hsame : f.lose reason = f := by
        rw [InFlight.lose, hresult]
        rfl
      rw [hsame, hresult, Option.some.injEq] at h
      rw [hsame, ← h, InFlight.lostStatus, hresult]

/-- What the history says of a completion: whose it is, of which message, and how it ends. -/
def Completion.summary (c : Completion R) :
    EndpointKey × Option InFlight × UInt64 × Status × Bool :=
  (c.key, c.origin, (Ring.current c.ring).1, c.status, c.accepted)

theorem drain_completions (key : EndpointKey) (ep : Endpoint R) {flights : List InFlight}
    (hmatch : Matches ep.ring flights) (reason : Nat -> String) :
    (drain key ep (flights.map (InFlight.lose reason))).2.1.map Completion.summary =
      flights.map fun f =>
        (key, some (f.lose reason), f.message, f.lostStatus, true) := by
  induction flights generalizing ep with
  | nil => rfl
  | cons f flights ih =>
      rcases Option.isSome_iff_exists.mp (lose_isSome reason f) with ⟨result, hresult⟩
      have hlost : Matches ep.ring (f.lose reason :: flights) :=
        hmatch.congr (by simp [lose_message])
      have hone : (settle key ep (f.lose reason) result).2.1.summary =
          (key, some (f.lose reason), f.message, f.lostStatus, true) := by
        have hring := settle_ring key ep (f.lose reason) result
        have hstatus := lose_status hresult
        have haccepted := (hlost.settle key result).left
        rw [Completion.summary, hring, haccepted, hmatch.right.left, ← hstatus]
        rfl
      rw [List.map_cons, drain_cons hresult, List.map_cons, hone,
        ih _ (hlost.settle key result).right, List.map_cons]

theorem loseOne_insert {e : Engine R} {key : EndpointKey} {ep : Endpoint R}
    (hep : e.endpoints.lookup key = some ep) {token : Nat}
    {parts : List InFlight × InFlight × List InFlight}
    (hparts : splitAtToken token ep.inFlight = some parts) (rounds : Nat)
    (reason : Nat -> String) :
    loseOne rounds key reason e token =
      loseOne rounds key reason (drained e key ep [] ep.inFlight e.log) token := by
  have hlookup := drained_lookup e key ep [] ep.inFlight e.log
  rcases parts with ⟨before, f, after⟩
  rw [loseOne, loseOne, finish, finish]
  simp only [Core.note_endpoints, hlookup, hep, hparts, drain, record, isUnlinked,
    Bool.false_eq_true, and_false, if_false]
  simp only [drained, drain, Core.put, Core.note, AList.insert_insert, Bool.or_false]

/--
The connection is lost while URBs of an endpoint are in flight that are for the
messages from the head of its ring on. Their callbacks may run in any order: the
messages of all URBs are completed in ring order, as offline or with the result the
URB already had, and nothing else happens.
-/
theorem disconnect_completes_in_ring_order (rounds : Nat) (device : Client.ExportedDevice)
    (schedule : List (List Client.Step)) (ops : List (Op R)) (key : EndpointKey)
    (ep : Endpoint R)
    (hstuck : (run rounds (start device schedule) ops).stuck = false)
    (hep : (run rounds (start device schedule) ops).endpoints.lookup key = some ep)
    (hmatch : Matches ep.ring ep.inFlight)
    (hwaiting : exists f, f ∈ ep.inFlight ∧ f.result = none)
    (hrounds : ep.inFlight.length < rounds) (reason : Nat -> String) (tokens : List Nat)
    (hperm : tokens.Perm
      ((ep.inFlight.filter fun f => f.result.isNone).map InFlight.token)) :
    let e := run rounds (start device schedule) ops
    let lost := ep.inFlight.map (InFlight.lose reason)
    exists log,
      tokens.foldl (loseOne rounds key reason) e = drained e key ep lost [] log ∧
        Tells e (drain key ep lost).2.1 log ∧
        (drain key ep lost).2.1.map Completion.summary = ep.inFlight.map fun f =>
          (key, some (f.lose reason), f.message, f.lostStatus, true) := by
  intro e lost
  have hsorted : ep.inFlight.Pairwise fun f g => f.token < g.token := by
    rw [← flightsOf_of_lookup hep]
    exact (run_tokensOk rounds device schedule ops).flight_sorted key
  have hmem : forall t, t ∈ tokens <->
      exists f, f ∈ ep.inFlight ∧ f.result = none ∧ f.token = t := by
    intro t
    rw [hperm.mem_iff]
    simp [and_assoc]
  have hnodup : tokens.Nodup := by
    rw [hperm.nodup_iff]
    apply List.pairwise_map.mpr
    exact (hsorted.filter _).imp fun h => Nat.ne_of_lt h
  have hstart : Drains e key ep reason [] (drained e key ep [] ep.inFlight e.log) []
      ep.inFlight e.log := by
    refine ⟨rfl, ?_, by simp, by simp, ?_⟩
    · simp [loseAll]
    · simp [Tells, drain]
  rcases hstart.callbacks hstuck hsorted hmatch hrounds (fun t ht => (hmem t).mp ht) hnodup
      (by simp) with ⟨front, back, log, hend⟩
  have hlost : lost = front ++ back := by
    rw [← hend.flights]
    apply List.map_congr_left
    intro f hf
    split
    · rfl
    · rename_i hnot
      rw [InFlight.lose, if_neg]
      intro hnone
      apply hnot
      rw [List.append_nil, List.mem_reverse]
      exact (hmem f.token).mpr ⟨f, hf, Option.isNone_iff_eq_none.mp hnone, rfl⟩
  have hne : tokens ≠ [] := by
    rcases hwaiting with ⟨f, hf, hnone⟩
    exact List.ne_nil_of_mem ((hmem f.token).mpr ⟨f, hf, hnone, rfl⟩)
  have hback : back = [] := by
    cases back with
    | nil => rfl
    | cons g back =>
        have hg : g ∈ lost := by
          rw [hlost]
          exact List.mem_append_right front List.mem_cons_self
        rcases List.mem_map.mp hg with ⟨f', _, rfl⟩
        have hsome := lose_isSome reason f'
        rw [hend.waits (by simpa using hne) (f'.lose reason) rfl] at hsome
        cases hsome
  rw [hback, List.append_nil] at hlost
  refine ⟨log, ?_, ?_, drain_completions key ep hmatch reason⟩
  · rw [hlost, ← hback, ← hend.state]
    rcases List.exists_cons_of_ne_nil hne with ⟨t, rest, rfl⟩
    rcases (hmem t).mp List.mem_cons_self with ⟨f, hf, _, rfl⟩
    rcases List.append_of_mem hf with ⟨before, after, hsplit⟩
    rw [hsplit] at hsorted
    have hparts := splitAtToken_of_sorted hsorted
    rw [← hsplit] at hparts
    rw [List.foldl_cons, List.foldl_cons, loseOne_insert hep hparts rounds reason]
  · rw [hlost]
    exact hend.history

def connectionLost : List (Op QueueRing) :=
  [Op.addEndpoint (1, 0x81) { kind := .bulk, maxPacketSize := 512, bInterval := 0 }
      (reads 3), Op.doorbell (1, 0x81), Op.host (1, 0x81) (reads 4)] ++
    answered 2 2 [5, 6] ++ [Op.deliver 1, Op.session Client.Step.close]

theorem disconnect_completes_three_reads :
    exists ep log,
      let e := run 8 (start sampleDevice []) connectionLost
      let e' := [2, 0].foldl (loseOne 8 (1, 0x81) fun _ => "closed") e
      e.endpoints.lookup (1, 0x81) = some ep ∧
        e' = drained e (1, 0x81) ep (ep.inFlight.map (InFlight.lose fun _ => "closed")) [] log ∧
        ep.inFlight.map InFlight.lostStatus =
          [Status.offline, Status.success, Status.offline] := by
  have hbefore : exists ep f g h,
      (run 8 (start sampleDevice []) connectionLost).endpoints.lookup (1, 0x81) = some ep ∧
        ep.inFlight = [f, g, h] ∧ Matches ep.ring [f, g, h] ∧ f.result = none ∧
        ([f, g, h].filter fun f => f.result.isNone).map InFlight.token = [0, 2] ∧
        [f, g, h].map InFlight.lostStatus =
          [Status.offline, Status.success, Status.offline] :=
    ⟨_, _, _, _, rfl, rfl,
      ⟨rfl, rfl, fun _ _ _ => ⟨rfl, rfl, rfl, fun _ _ _ => ⟨rfl, rfl, rfl, fun _ _ _ =>
        ⟨rfl, trivial⟩⟩⟩⟩, rfl, rfl, rfl⟩
  rcases hbefore with ⟨ep, f, g, h, hep, hflights, hmatch, hnone, htokens, hstatus⟩
  have hdrains := disconnect_completes_in_ring_order 8 sampleDevice [] connectionLost
    (1, 0x81) ep rfl hep (by rw [hflights]; exact hmatch)
    ⟨f, by rw [hflights]; exact List.mem_cons_self, hnone⟩ (by simp [hflights])
    (fun _ => "closed") [2, 0] (by rw [hflights, htokens]; decide)
  rcases hdrains with ⟨log, hstate, _, _⟩
  refine ⟨ep, log, hep, hstate, ?_⟩
  rw [hflights]
  exact hstatus

end Engine
end UsbIp
