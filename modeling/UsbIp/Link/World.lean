import UsbIp.Link.Detaching
import UsbIp.Link.Hosting

/-!
# An engine and its server

The engine drives the session that is joined to a server.  An operation of the
engine is a number of steps of its session, those that other tasks take in
between included, so an allowed run of an engine and a server is an allowed run of a
session and a server, and all that holds of those holds of it.
-/

namespace UsbIp
namespace Link

open Foundation
open Protocol
open Hci
open Client (Shared SubmitRequest Session ExportedDevice)
open Server (Connection Outcome)
open Engine (EndpointKey Endpoint Policy Op Driven)

variable {R : Type} [Engine.Ring R]

/-!
# States and steps
-/

structure World (R : Type) where
  engine : Engine R
  server : Connection
  /-- Written by the session and not yet arrived. -/
  toServer : Bytes
  /-- Written by the server and not yet arrived. -/
  toClient : Bytes

def World.link {R : Type} (w : World R) : System where
  client := w.engine.session
  server := w.server
  toServer := w.toServer
  toClient := w.toClient

def World.start {R : Type} (device : ExportedDevice) (endpoints : List (UInt8 × UInt8))
    (schedule : List (List Client.Step)) : World R where
  engine := Engine.start device schedule
  server := Connection.start (exportDevid device) endpoints
  toServer := []
  toClient := []

inductive Act (R : Type) where
  | engine (op : Op R)
  | server (st : Server.Step)
  | toServer (n : Nat)
  | toClient (n : Nat)
  | hangUp

def World.joined {R : Type} (w : World R) (st : Step) : World R :=
  let l := w.link.step st
  { engine := { w.engine with session := l.client }
    server := l.server
    toServer := l.toServer
    toClient := l.toClient }

def World.operate (rounds : Nat) (w : World R) (op : Op R) : World R :=
  let e := Engine.step rounds w.engine op
  { w with
    engine := e
    toServer := w.toServer ++ e.session.written.drop w.engine.session.written.length }

def World.step (rounds : Nat) (w : World R) : Act R -> World R
  | Act.engine op => w.operate rounds op
  | Act.server st => w.joined (Step.server st)
  | Act.toServer n => w.joined (Step.toServer n)
  | Act.toClient n => w.joined (Step.toClient n)
  | Act.hangUp => w.joined Step.hangUp

/--
The host follows the policy, a device returns no more than it was asked for, and
the numbers of the session have not been used up.
-/
def World.Allowed (rounds : Nat) (w : World R) : Act R -> Prop
  | Act.engine op =>
      (hostPolicy w.server.endpoints).op op ∧
        (ordersOf (Engine.step rounds w.engine op).session.shared).length + 1 < UInt32.size
  | Act.server (Server.Step.finish address outcome) =>
      outcomeFits w.server.urbs address outcome
  | _ => True

/-- What others do between the calls of the engine follows the policy. -/
def PoliteSchedule (endpoints : List (UInt8 × UInt8)) (schedule : List (List Client.Step)) :
    Prop :=
  forall steps, steps ∈ schedule -> forall st, st ∈ steps -> PoliteStep endpoints st

/-!
# Orders
-/

/-- The client has issued no less, and what it has issued since is polite. -/
structure Issues (endpoints : List (UInt8 × UInt8)) (s s' : Shared) : Prop where
  length_le : (ordersOf s).length ≤ (ordersOf s').length
  polite : forall o, o ∈ newOrders s s' -> OrderPolite endpoints o

theorem Issues.of_eq {endpoints : List (UInt8 × UInt8)} {s s' : Shared}
    (h : ordersOf s' = ordersOf s) : Issues endpoints s s' where
  length_le := by rw [h]
  polite := by
    rw [newOrders_of_eq h]
    intro o ho
    cases ho

theorem Issues.of_cons {endpoints : List (UInt8 × UInt8)} {s s' : Shared}
    {e : Client.Event} (hlog : s'.log = e :: s.log)
    (h : forall o, order? e = some o -> OrderPolite endpoints o) : Issues endpoints s s' where
  length_le := by
    rw [ordersOf_cons hlog, List.length_append]
    exact Nat.le_add_right _ _
  polite := by
    rw [newOrders_cons hlog]
    intro o ho
    exact h o (Option.mem_toList.mp ho)

theorem step_issues {endpoints : List (UInt8 × UInt8)} (s : Session) {st : Client.Step}
    (h : PoliteStep endpoints st) : Issues endpoints s.shared (s.step st).shared := by
  have hrequest : forall req, st.request? = some req -> st = Client.Step.submit req := by
    intro req hreq
    cases st <;> cases hreq
    rfl
  rcases s.step_shared st with ⟨frames, hframes⟩ | hsection
  · apply Issues.of_eq
    rw [hframes]
    rfl
  · generalize hreq : st.request? = request at hsection
    generalize (s.step st).shared = shared at hsection
    generalize hs : s.shared = before at hsection
    cases hsection with
    | submit hsubmit =>
        rcases Shared.submit_cases hsubmit with ⟨_, _, rfl, _⟩ | ⟨n, _, _, _, _, rfl⟩
        · exact Issues.of_eq rfl
        · apply Issues.of_cons rfl
          rintro _ ⟨⟩
          exact h.right _ (hrequest _ hreq) n _
    | unlink hunlink =>
        rcases Shared.unlink_cases hunlink with ⟨rfl, _⟩ | ⟨p, n, _, _, _, _, rfl⟩
        · exact Issues.of_eq rfl
        · apply Issues.of_cons rfl
          rintro _ ⟨⟩
          exact trivial
    | close reason => exact Issues.of_eq (close_orders _ _)
    | finishSubmit ret =>
        apply Issues.of_cons rfl
        rintro _ ⟨⟩
    | finishUnlink ret =>
        apply Issues.of_cons (Shared.finishUnlink_log _ ret)
        rintro _ ⟨⟩

theorem steps_length_le {endpoints : List (UInt8 × UInt8)} (s : Session)
    {steps : List Client.Step} (h : forall st, st ∈ steps -> PoliteStep endpoints st) :
    (ordersOf s.shared).length ≤
      (ordersOf (List.foldl Session.step s steps).shared).length := by
  induction steps generalizing s with
  | nil => exact Nat.le_refl _
  | cons st rest ih =>
      have hone := (step_issues s (h st List.mem_cons_self)).length_le
      exact Nat.le_trans hone (ih (s.step st) fun st' hst' => h st' (List.mem_cons_of_mem _ hst'))

/-!
# The engine's steps as steps of its session
-/

def System.driven (l : System) (s : Session) : System :=
  { l with
    client := s
    toServer := l.toServer ++ s.written.drop l.client.written.length }

theorem steps_written (s : Session) (steps : List Client.Step) :
    exists more, (List.foldl Session.step s steps).written = s.written ++ more := by
  induction steps generalizing s with
  | nil => exact ⟨[], by simp⟩
  | cons st rest ih =>
      rcases step_written s st with ⟨front, hfront⟩
      rcases ih (s.step st) with ⟨back, hback⟩
      refine ⟨front ++ back, ?_⟩
      rw [List.foldl_cons, hback, hfront, List.append_assoc]

theorem driven_steps (l : System) {steps : List Client.Step}
    (hown : forall st, st ∈ steps -> isOwn st = true) :
    List.foldl System.step l (steps.map Step.client) =
      l.driven (List.foldl Session.step l.client steps) := by
  induction steps generalizing l with
  | nil => simp [System.driven]
  | cons st rest ih =>
      have hst : l.step (Step.client st) = l.clientStep st := if_pos (hown st List.mem_cons_self)
      rw [List.map_cons, List.foldl_cons, hst,
        ih (l.clientStep st) fun st' hst' => hown st' (List.mem_cons_of_mem _ hst')]
      -- What the first step has written goes in front of what the others write.
      rcases step_written l.client st with ⟨front, hfront⟩
      rcases steps_written (l.client.step st) rest with ⟨back, hback⟩
      simp only [System.driven, System.clientStep, List.foldl_cons, System.mk.injEq, true_and,
        and_true, hback, hfront, List.append_assoc, List.drop_left]
      rw [← List.append_assoc l.client.written, List.drop_left]

theorem driven_few (l : System) {steps : List Client.Step}
    (hpolite : forall st, st ∈ steps -> PoliteStep l.server.endpoints st)
    (hfew : (ordersOf (List.foldl Session.step l.client steps).shared).length + 1 <
      UInt32.size) :
    Guarded System.step System.Few l (steps.map Step.client) := by
  induction steps generalizing l with
  | nil => exact trivial
  | cons st rest ih =>
      have hst := hpolite st List.mem_cons_self
      have hrest : forall st', st' ∈ rest -> PoliteStep l.server.endpoints st' :=
        fun st' hst' => hpolite st' (List.mem_cons_of_mem _ hst')
      have hstep : l.step (Step.client st) = l.clientStep st := if_pos hst.left
      constructor
      · have hle := steps_length_le (l.client.step st) hrest
        exact ⟨Nat.lt_of_le_of_lt (Nat.succ_le_succ hle) hfew,
          (step_issues l.client hst).polite⟩
      · rw [hstep]
        exact ih (l.clientStep st) hrest hfew

/-!
# Runs of the engine as runs of its session
-/

def World.Hosted (w : World R) : Prop :=
  (hostPolicy w.server.endpoints).Holds w.engine

theorem System.step_endpoints (l : System) (st : Step) :
    (l.step st).server.endpoints = l.server.endpoints := by
  cases st with
  | client st =>
      simp only [System.step]
      split <;> rfl
  | server st =>
      simp only [System.step]
      split
      · exact l.server.step_endpoints st
      · rfl
  | toServer n => exact l.server.step_endpoints _
  | toClient n =>
      simp only [System.step]
      split <;> rfl
  | hangUp =>
      simp only [System.step]
      split <;> rfl

theorem World.Hosted.joined {w : World R} (h : w.Hosted) (st : Step) : (w.joined st).Hosted := by
  have hsame : (w.joined st).server.endpoints = w.server.endpoints :=
    w.link.step_endpoints st
  unfold World.Hosted
  rw [hsame]
  exact ⟨h.core, h.schedule⟩

theorem World.Hosted.operate {w : World R} (h : w.Hosted)
    (hlists : ListsNoControl w.server.endpoints) (rounds : Nat) {op : Op R}
    (hop : w.Allowed rounds (Act.engine op)) :
    (w.operate rounds op).Hosted ∧
      exists steps, Guarded System.step System.Few w.link steps ∧
        (w.operate rounds op).link = List.foldl System.step w.link steps := by
  rcases hop with ⟨hop, hfew⟩
  rcases (hostPolicy_sound hlists).step_keeps rounds h hop with ⟨hholds, steps, hsteps, hpolite⟩
  refine ⟨hholds, steps.map Step.client, ?_, ?_⟩
  · apply driven_few w.link hpolite
    show (ordersOf (List.foldl Session.step w.engine.session steps).shared).length + 1 < _
    rw [← hsteps]
    exact hfew
  · rw [driven_steps w.link fun st hst => (hpolite st hst).left]
    show _ = w.link.driven (List.foldl Session.step w.engine.session steps)
    rw [← hsteps]
    rfl

theorem World.Hosted.step {w : World R} (h : w.Hosted)
    (hlists : ListsNoControl w.server.endpoints) (rounds : Nat) {a : Act R}
    (ha : w.Allowed rounds a) :
    (w.step rounds a).Hosted ∧
      exists steps, Guarded System.step System.Few w.link steps ∧
        (w.step rounds a).link = List.foldl System.step w.link steps := by
  have hjoined : forall st, w.link.Few st ->
      (w.joined st).Hosted ∧
        exists steps, Guarded System.step System.Few w.link steps ∧
          (w.joined st).link = List.foldl System.step w.link steps :=
    fun st hst => ⟨h.joined st, [st], ⟨hst, trivial⟩, rfl⟩
  cases a with
  | engine op => exact h.operate hlists rounds ha
  | server st => exact hjoined (Step.server st) (by cases st <;> exact ha)
  | toServer n => exact hjoined (Step.toServer n) trivial
  | toClient n => exact hjoined (Step.toClient n) trivial
  | hangUp => exact hjoined Step.hangUp trivial

theorem World.step_endpoints (rounds : Nat) (w : World R) (a : Act R) :
    (w.step rounds a).server.endpoints = w.server.endpoints := by
  cases a with
  | engine op => rfl
  | server st => exact w.link.step_endpoints _
  | toServer n => exact w.link.step_endpoints _
  | toClient n => exact w.link.step_endpoints _
  | hangUp => exact w.link.step_endpoints _

def World.after (rounds : Nat) (device : ExportedDevice) (endpoints : List (UInt8 × UInt8))
    (schedule : List (List Client.Step)) (acts : List (Act R)) : World R :=
  acts.foldl (World.step rounds) (World.start device endpoints schedule)

/--
An allowed run of an engine and its server, from the import on: the host and the
other tasks keep to the policy, outcomes fit, the numbers are not used up, and the
device lists no endpoint 0.
-/
structure World.Run (rounds : Nat) (device : ExportedDevice)
    (endpoints : List (UInt8 × UInt8)) (schedule : List (List Client.Step))
    (acts : List (Act R)) : Prop where
  lists : ListsNoControl endpoints
  polite : PoliteSchedule endpoints schedule
  guarded : Guarded (World.step rounds) (World.Allowed rounds)
    (World.start device endpoints schedule) acts

/-- A run of an engine and a server shows as a run of its session and the server. -/
theorem World.Run.session {rounds : Nat} {device : ExportedDevice}
    {endpoints : List (UInt8 × UInt8)} {schedule : List (List Client.Step)}
    {acts : List (Act R)} (h : World.Run rounds device endpoints schedule acts) :
    exists steps,
      Guarded System.step System.Few (System.start device endpoints) steps ∧
        (World.after rounds device endpoints schedule acts).link =
          System.after device endpoints steps := by
  have hstep : forall (w : World R) a, w.Allowed rounds a ->
      w.Hosted ∧ ListsNoControl w.server.endpoints ->
      ((w.step rounds a).Hosted ∧ ListsNoControl (w.step rounds a).server.endpoints) ∧
        exists steps, Guarded System.step System.Few w.link steps ∧
          (w.step rounds a).link = List.foldl System.step w.link steps := by
    rintro w a ha ⟨hosted, hlists⟩
    rcases hosted.step hlists rounds ha with ⟨hnext, hsteps⟩
    refine ⟨⟨hnext, ?_⟩, hsteps⟩
    rw [w.step_endpoints]
    exact hlists
  exact simulation_of_guarded_runs hstep h.guarded
    ⟨Engine.Policy.start_holds device h.polite, h.lists⟩

end Link
end UsbIp
