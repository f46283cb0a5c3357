import UsbIp.Engine.Rounds

/-!
# What the operations can do

Every operation is a change of the engine's own state, if it is not the pump
itself, followed by actions of the pump on one endpoint.  A property that holds
at the start and that every change and every action keeps holds in every state
of every run.
-/

namespace UsbIp
namespace Engine

open Foundation
open Protocol
open Hci
open Client (TransferResult Session)
open Relation (ReflTransGen)

variable {R : Type}

/-!
# Replies
-/

theorem splitAtToken_eq_some {token : Nat} {flights front back : List InFlight}
    {f : InFlight} (h : splitAtToken token flights = some (front, f, back)) :
    flights = front ++ f :: back ∧ f.token = token := by
  induction flights generalizing front with
  | nil => cases h
  | cons g rest ih =>
      unfold splitAtToken at h
      split at h
      · rename_i htoken
        cases h
        exact ⟨rfl, htoken⟩
      · split at h
        · rename_i hrest
          cases h
          rcases ih hrest with ⟨hsplit, htoken⟩
          exact ⟨by rw [hsplit]; rfl, htoken⟩
        · cases h

theorem splitAtToken_eq_none {token : Nat} {flights : List InFlight}
    (h : splitAtToken token flights = none) :
    forall f, f ∈ flights -> f.token ≠ token := by
  induction flights with
  | nil =>
      intro f hf
      cases hf
  | cons g rest ih =>
      unfold splitAtToken at h
      split at h
      · cases h
      · rename_i hne
        split at h
        · cases h
        · rename_i hrest
          intro f hf
          rcases List.mem_cons.mp hf with rfl | hf
          · exact hne
          · exact ih hrest f hf

def Core.reply (c : Core R) (task : Task) (result : TransferResult) : Core R :=
  Core.note { c with tasks := c.tasks.filter fun t => t.reply ≠ task.reply }
    (Event.finished task.key task.token result)

/-- What a reply does before the pump runs. -/
inductive Replied (task : Task) (result : TransferResult) (e e' : Engine R) : Prop where
  /-- The URB is not in flight any more. -/
  | dropped
      (hgone : forall f, f ∈ flightsOf e.toCore task.key -> f.token ≠ task.token)
      (h : Moves e e' (e.toCore.reply task result) [])
  /-- The result waits for its message to be the head. -/
  | recorded {ep : Endpoint R} {front back : List InFlight} {f : InFlight}
      (hep : e.endpoints.lookup task.key = some ep)
      (hsplit : ep.inFlight = front ++ f :: back) (htoken : f.token = task.token)
      (hkeep : ¬ (f.unlinking = true ∧ isUnlinked result = true))
      (h : Moves e e' ((e.toCore.reply task result).put task.key
        { ep with inFlight := front ++ { f with result := some result } :: back }) [])
  /-- A paused read was unlinked: it and the reads behind it are given up. -/
  | truncated {ep : Endpoint R} {front back : List InFlight} {f : InFlight}
      (hep : e.endpoints.lookup task.key = some ep)
      (hsplit : ep.inFlight = front ++ f :: back) (htoken : f.token = task.token)
      (hpaused : f.unlinking = true) (hunlinked : isUnlinked result = true)
      (h : Moves e e' (((e.toCore.reply task result).put task.key
        { ep with inFlight := front }).note
        (Event.discarded task.key back Cause.unlinked)) back)

theorem arrived_eq_some {e : Engine R} {reply : Nat} {task : Task}
    {result : TransferResult} (h : e.arrived reply = some (task, result)) :
    task ∈ e.tasks ∧ task.reply = reply ∧ (reply, result) ∈ e.session.shared.sent := by
  unfold arrived at h
  split at h
  · rename_i t n r htask hsent
    cases h
    have hn := List.find?_some hsent
    have hn : n = reply := by simpa using hn
    rw [← hn]
    refine ⟨List.mem_of_find?_eq_some htask, ?_, List.mem_of_find?_eq_some hsent⟩
    have hreply := List.find?_some htask
    rw [hn]
    simpa using hreply
  · cases h

/-!
# Commands
-/

def Event.command? : Event R -> Option Command
  | Event.submitted s => some (Command.submit s.cmd)
  | _ => none

def Core.commands (c : Core R) : List Command :=
  c.log.reverse.filterMap Event.command?

/-- The engine's commands are among those of the session, in the same order. -/
def Queued (e : Engine R) : Prop :=
  e.toCore.commands.Sublist e.session.shared.issued

theorem Core.commands_note {c : Core R} {ev : Event R} (h : ev.command? = none) :
    (c.note ev).commands = c.commands := by
  simp [Core.commands, h]

theorem commands_takeOut (c : Core R) (key : EndpointKey) :
    (takeOut c key).commands = c.commands := by
  unfold takeOut
  split
  · rfl
  · rw [Core.commands_note rfl, Core.commands_note rfl]
    rfl

theorem commands_takeOutAll (c : Core R) (keys : List EndpointKey) :
    (keys.foldl takeOut c).commands = c.commands := by
  induction keys generalizing c with
  | nil => rfl
  | cons key keys ih =>
      rw [List.foldl_cons, ih, commands_takeOut]

theorem Queued.moves {e e' : Engine R} (hq : e.Queued) {c : Core R}
    {flights : List InFlight} (h : Moves e e' c flights)
    (hc : c.commands = e.toCore.commands) : e'.Queued := by
  unfold Queued
  rw [h.core, hc]
  exact hq.trans h.session.tracks.issued_prefix.sublist

variable [Ring R]

theorem deliver_cases (rounds : Nat) (e : Engine R) (reply : Nat) :
    e.deliver rounds reply = e ∨
      exists task result, e.arrived reply = some (task, result) ∧
        exists e1, Replied task result e e1 ∧
          (e.deliver rounds reply = e1 ∨ e.deliver rounds reply = e1.pump rounds task.key) := by
  unfold deliver
  cases harrived : e.arrived reply with
  | none => exact Or.inl rfl
  | some found =>
      rcases found with ⟨task, result⟩
      have hreply : task.reply = reply := (arrived_eq_some harrived).right.left
      subst hreply
      refine Or.inr ⟨task, result, rfl, ?_⟩
      dsimp only
      unfold finish
      have hdropped : forall c, c = e.toCore.reply task result ->
          Moves e { e with toCore := c } (e.toCore.reply task result) [] := by
        intro c hc
        rw [← hc]
        exact Moves.same e c
      cases hep : e.endpoints.lookup task.key with
      | none =>
          refine ⟨_, Replied.dropped ?_ (hdropped _ rfl), Or.inl ?_⟩
          · simp [flightsOf, hep]
          · simp only [Core.note_endpoints, hep]
            rfl
      | some ep =>
          simp only [Core.note_endpoints, hep]
          cases hsplit : splitAtToken task.token ep.inFlight with
          | none =>
              refine ⟨_, Replied.dropped ?_ (hdropped _ rfl), Or.inl rfl⟩
              simpa [flightsOf, hep] using splitAtToken_eq_none hsplit
          | some parts =>
              rcases parts with ⟨front, f, back⟩
              rcases splitAtToken_eq_some hsplit with ⟨hflights, htoken⟩
              refine ⟨_, ?_, Or.inr rfl⟩
              unfold record
              split
              · rename_i hpaused
                exact Replied.truncated hep hflights htoken hpaused.left hpaused.right
                  (unlinkAll_with e _ back)
              · rename_i hkeep
                exact Replied.recorded hep hflights htoken hkeep (Moves.same e _)

/-!
# Changes
-/

def markPaused (flights : List InFlight) : List InFlight :=
  flights.map fun f => if f.pausable then { f with unlinking := true } else f

/-- What an operation does to the engine's own state before the pump runs. -/
inductive Change (e e' : Engine R) : Op R -> Prop where
  | added {key : EndpointKey} {info : EndpointInfo} {ring : R}
      (h : Moves e e' (putNew e.toCore key info ring) (flightsOf e.toCore key)) :
      Change e e' (Op.addEndpoint key info ring)
  | updated {key : EndpointKey} {info : EndpointInfo} {ep : Endpoint R}
      (hep : e.endpoints.lookup key = some ep)
      (h : Moves e e' (e.toCore.put key { ep with info := info }) []) :
      Change e e' (Op.updateEndpoint key info)
  | removed {key : EndpointKey}
      (h : Moves e e' ([key].foldl takeOut e.toCore)
        ([key].flatMap (flightsOf e.toCore))) :
      Change e e' (Op.removeEndpoint key)
  | removedDevice {device : UInt8} {keys : List EndpointKey}
      (hkeys : forall k, k ∈ keys -> k.1 = device)
      (h : Moves e e' (keys.foldl takeOut e.toCore) (keys.flatMap (flightsOf e.toCore))) :
      Change e e' (Op.removeDevice device keys)
  | reset {key : EndpointKey} {ep : Endpoint R}
      (hep : e.endpoints.lookup key = some ep)
      (h : Moves e e' (((e.toCore.put key { ep with setup := none, inFlight := [] }).note
        (Event.discarded key ep.inFlight Cause.reset)).note (Event.reset key))
        ep.inFlight) :
      Change e e' (Op.resetEndpoint key)
  | paused {key : EndpointKey} {ep : Endpoint R}
      (hread : ¬ (key.2 &&& 0x80 = 0 ∨ key.2 &&& 0x7f = 0))
      (hep : e.endpoints.lookup key = some ep)
      (h : Moves e e' (e.toCore.put key { ep with inFlight := markPaused ep.inFlight })
        (ep.inFlight.filter InFlight.pausable)) :
      Change e e' (Op.pauseEndpoint key)
  | synced {key : EndpointKey} {ep : Endpoint R} {front : InFlight} {rest : List InFlight}
      (hep : e.endpoints.lookup key = some ep) (hflight : ep.inFlight = front :: rest)
      (hmoved : front.message ≠ (Ring.current ep.ring).1)
      (h : Moves e e' ((e.toCore.put key { ep with inFlight := [] }).note
        (Event.discarded key ep.inFlight Cause.synced)) ep.inFlight) :
      Change e e' (Op.syncEndpoint key)
  | replied {task : Task} {result : TransferResult}
      (harrived : e.arrived task.reply = some (task, result))
      (h : Replied task result e e') :
      Change e e' (Op.deliver task.reply)
  | session {st : Client.Step} (h : Moves e e' e.toCore []) :
      Change e e' (Op.session st)
  | host {key : EndpointKey} {ring : R} {ep : Endpoint R}
      (hep : e.endpoints.lookup key = some ep)
      (h : Moves e e' (e.toCore.put key { ep with ring := ring }) []) :
      Change e e' (Op.host key ring)

/-- An operation does nothing, or changes something, or runs the pump, or both. -/
inductive Outcome (rounds : Nat) (e e' : Engine R) (op : Op R) : Prop where
  | nothing (h : e' = e)
  | change (h : Change e e' op)
  | doorbell {key : EndpointKey} (hop : op = Op.doorbell key) (h : e' = e.pump rounds key)
  | callback {task : Task} {result : TransferResult} {e1 : Engine R}
      (hop : op = Op.deliver task.reply)
      (harrived : e.arrived task.reply = some (task, result))
      (hreplied : Replied task result e e1) (h : e' = e1.pump rounds task.key)

theorem perform_outcome (rounds : Nat) (e : Engine R) (op : Op R) :
    Outcome rounds e (e.perform rounds op) op := by
  cases op with
  | addEndpoint key info ring => exact Outcome.change (Change.added (unlinkAll_with e _ _))
  | updateEndpoint key info =>
      cases hep : e.endpoints.lookup key with
      | none => exact Outcome.nothing (by simp [perform, updateEndpoint, hep])
      | some ep =>
          refine Outcome.change (Change.updated hep ?_)
          simp only [perform, updateEndpoint, hep]
          exact Moves.same e _
  | removeEndpoint key => exact Outcome.change (Change.removed (unlinkAll_with e _ _))
  | removeDevice device keys =>
      by_cases hperm : keys.isPerm (e.endpoints.keys.filter fun k => k.1 = device) = true
      · refine Outcome.change (Change.removedDevice ?_ ?_)
        · intro k hk
          have hmem := (List.isPerm_iff.mp hperm).mem_iff.mp hk
          simpa using (List.mem_filter.mp hmem).right
        · simp only [perform, removeDevice, hperm, if_true]
          exact unlinkAll_with e _ _
      · exact Outcome.nothing (by simp only [perform, removeDevice, if_neg hperm])
  | resetEndpoint key =>
      cases hep : e.endpoints.lookup key with
      | none => exact Outcome.nothing (by simp [perform, resetEndpoint, hep])
      | some ep =>
          refine Outcome.change (Change.reset hep ?_)
          simp only [perform, resetEndpoint, hep]
          exact unlinkAll_with e _ _
  | pauseEndpoint key =>
      by_cases hwrite : key.2 &&& 0x80 = 0 ∨ key.2 &&& 0x7f = 0
      · exact Outcome.nothing (by simp only [perform, pauseEndpoint, if_pos hwrite])
      · cases hep : e.endpoints.lookup key with
        | none => exact Outcome.nothing (by simp only [perform, pauseEndpoint, if_neg hwrite, hep])
        | some ep =>
            refine Outcome.change (Change.paused hwrite hep ?_)
            simp only [perform, pauseEndpoint, if_neg hwrite, hep]
            exact unlinkAll_with e _ _
  | syncEndpoint key =>
      cases hep : e.endpoints.lookup key with
      | none => exact Outcome.nothing (by simp [perform, syncEndpoint, hep])
      | some ep =>
          cases hflight : ep.inFlight with
          | nil => exact Outcome.nothing (by simp [perform, syncEndpoint, hep, hflight])
          | cons front rest =>
              by_cases hmoved : front.message ≠ (Ring.current ep.ring).1
              · have hdrop : e.perform rounds (Op.syncEndpoint key) =
                    e.dropStale key ep Cause.synced := by
                  simp only [perform, syncEndpoint, hep, hflight, if_pos hmoved]
                refine Outcome.change (Change.synced hep hflight hmoved ?_)
                rw [hdrop]
                exact e.dropStale_moves key ep Cause.synced
              · apply Outcome.nothing
                simp only [perform, syncEndpoint, hep, hflight, if_neg hmoved]
  | doorbell key => exact Outcome.doorbell rfl rfl
  | deliver reply =>
      rcases e.deliver_cases rounds reply with hsame | ⟨task, result, harrived, e1, hreplied, hpump⟩
      · exact Outcome.nothing hsame
      · have hreply : task.reply = reply := (arrived_eq_some harrived).right.left
        subst hreply
        rcases hpump with hpump | hpump
        · rw [← hpump] at hreplied
          exact Outcome.change (Change.replied harrived hreplied)
        · exact Outcome.callback rfl harrived hreplied hpump
  | session st =>
      apply Outcome.change
      exact Change.session (Moves.quiet rfl (Session.Reaches.step _ st) fun h => h)
  | host key ring =>
      cases hep : e.endpoints.lookup key with
      | none => exact Outcome.nothing (by simp [perform, hostRing, hep])
      | some ep =>
          refine Outcome.change (Change.host hep ?_)
          simp only [perform, hostRing, hep]
          exact Moves.same e _

/-!
# Runs
-/

theorem step_invariant {I : Engine R -> Prop}
    (hchange : forall e e' op, Change e e' op -> I e -> I e')
    (haction : forall key e e', Action key e e' -> I e -> I e')
    (rounds : Nat) (e : Engine R) (op : Op R) (h : I e) : I (step rounds e op) := by
  unfold step
  split
  · exact h
  · cases e.perform_outcome rounds op with
    | nothing heq =>
        rw [heq]
        exact h
    | change hchanged => exact hchange e _ op hchanged h
    | doorbell _ heq =>
        rw [heq]
        exact (pump_actions rounds e _).invariant (haction _) h
    | callback hop harrived hreplied heq =>
        have hmiddle := hchange e _ _ (Change.replied harrived hreplied) h
        rw [heq]
        exact (pump_actions rounds _ _).invariant (haction _) hmiddle

/-- A property that changes and actions keep holds in every state of every run. -/
theorem run_invariant {I : Engine R -> Prop}
    (hchange : forall e e' op, Change e e' op -> I e -> I e')
    (haction : forall key e e', Action key e e' -> I e -> I e')
    (rounds : Nat) {e : Engine R} (ops : List (Op R)) (hinit : I e) :
    I (run rounds e ops) :=
  invariant_of_step (step_invariant hchange haction rounds) ops hinit

theorem Change.reaches {e e' : Engine R} {op : Op R} (h : Change e e' op) :
    e.session.Reaches e'.session := by
  cases h with
  | added h => exact h.session
  | updated _ h => exact h.session
  | removed h => exact h.session
  | removedDevice _ h => exact h.session
  | reset _ h => exact h.session
  | paused _ _ h => exact h.session
  | synced _ _ _ h => exact h.session
  | replied _ h =>
      cases h with
      | dropped _ h => exact h.session
      | recorded _ _ _ _ h => exact h.session
      | truncated _ _ _ _ _ h => exact h.session
  | session h => exact h.session
  | host _ h => exact h.session

def Event.ofPump : Event R -> Bool
  | Event.submitted _ => true
  | Event.completed _ => true
  | _ => false

omit [Ring R] in
theorem ofPump_of_note {c : Core R} {ev ev' : Event R} (hev' : ev'.ofPump = false)
    (hev : ev.ofPump = true) (h : ev ∈ (c.note ev').log) : ev ∈ c.log := by
  rcases List.mem_cons.mp h with rfl | h
  · rw [hev] at hev'
    cases hev'
  · exact h

omit [Ring R] in
theorem ofPump_of_takeOut {c : Core R} {keys : List EndpointKey} {ev : Event R}
    (hev : ev.ofPump = true) (h : ev ∈ (keys.foldl takeOut c).log) : ev ∈ c.log := by
  induction keys generalizing c with
  | nil => exact h
  | cons key keys ih =>
      have hone : ev ∈ (takeOut c key).log := ih h
      unfold takeOut at hone
      split at hone
      · exact hone
      · exact ofPump_of_note (c := { c with endpoints := c.endpoints.erase key }) rfl hev
          (ofPump_of_note rfl hev hone)

theorem Change.ofPump {e e' : Engine R} {op : Op R} (h : Change e e' op) {ev : Event R}
    (hev : ev.ofPump = true) (hmem : ev ∈ e'.log) : ev ∈ e.log := by
  cases h with
  | added h =>
      rw [← h.log] at hmem
      exact ofPump_of_note rfl hev (ofPump_of_note rfl hev hmem)
  | updated _ h =>
      rw [← h.log] at hmem
      exact hmem
  | removed h =>
      rw [← h.log] at hmem
      exact ofPump_of_takeOut hev hmem
  | removedDevice _ h =>
      rw [← h.log] at hmem
      exact ofPump_of_takeOut hev hmem
  | reset _ h =>
      rw [← h.log] at hmem
      exact ofPump_of_note rfl hev (ofPump_of_note rfl hev hmem)
  | paused _ _ h =>
      rw [← h.log] at hmem
      exact hmem
  | synced _ _ _ h =>
      rw [← h.log] at hmem
      exact ofPump_of_note rfl hev hmem
  | replied _ h =>
      cases h with
      | dropped _ h =>
          rw [← h.log] at hmem
          exact ofPump_of_note rfl hev hmem
      | recorded _ _ _ _ h =>
          rw [← h.log] at hmem
          exact ofPump_of_note rfl hev hmem
      | truncated _ _ _ _ _ h =>
          rw [← h.log] at hmem
          exact ofPump_of_note rfl hev (ofPump_of_note rfl hev hmem)
  | session h =>
      rw [← h.log] at hmem
      exact hmem
  | host _ h =>
      rw [← h.log] at hmem
      exact hmem

/-- The engine's session is always one that its own tasks can produce. -/
theorem run_session_reachable (rounds : Nat) (device : Client.ExportedDevice)
    (schedule : List (List Client.Step)) (ops : List (Op R)) :
    (run rounds (start device schedule : Engine R) ops).session.Reachable :=
  run_invariant (I := fun e : Engine R => e.session.Reachable)
    (fun _ _ _ h hreach => h.reaches.reachable hreach)
    (fun _ _ _ h hreach => h.reaches.reachable hreach) rounds ops ⟨device, [], rfl⟩

/-!
# Commands are queued
-/

theorem Action.queued {key : EndpointKey} {e e' : Engine R} (h : Action key e e')
    (hq : e.Queued) : e'.Queued := by
  cases h with
  | idle h => exact hq.moves h rfl
  | stale _ _ _ _ h => exact hq.moves h (Core.commands_note rfl)
  | applied _ _ _ _ _ _ h => exact hq.moves h (Core.commands_note rfl)
  | settled _ _ _ _ _ h => exact hq.moves h (Core.commands_note rfl)
  | @submitted ep message req stage s seqnum reply shared _ _ hs hsubmit hsession h =>
      rcases Client.Shared.submit_cases hsubmit with ⟨_, herr, _⟩ | ⟨n, hn, _, _, _, hshared⟩
      · cases herr
      · cases hn
        have hcommands : e'.toCore.commands =
            e.toCore.commands ++ [Command.submit (req.command seqnum s.shared.devid)] := by
          rw [h.core]
          simp [Core.commands, Core.push, Event.command?]
        unfold Queued
        rw [hcommands, hsession, hshared, Client.Shared.register_issued]
        exact (hq.trans hs.tracks.issued_prefix.sublist).append (List.Sublist.refl _)
  | refused _ _ _ _ _ _ h => exact hq.moves h (Core.commands_note rfl)

theorem Change.queued {e e' : Engine R} {op : Op R} (h : Change e e' op)
    (hq : e.Queued) : e'.Queued := by
  cases h with
  | added h =>
      exact hq.moves h ((Core.commands_note rfl).trans (Core.commands_note rfl))
  | updated _ h => exact hq.moves h rfl
  | removed h => exact hq.moves h (commands_takeOut _ _)
  | removedDevice _ h => exact hq.moves h (commands_takeOutAll _ _)
  | reset _ h => exact hq.moves h ((Core.commands_note rfl).trans (Core.commands_note rfl))
  | paused _ _ h => exact hq.moves h rfl
  | synced _ _ _ h => exact hq.moves h (Core.commands_note rfl)
  | replied _ h =>
      cases h with
      | dropped _ h => exact hq.moves h (Core.commands_note rfl)
      | recorded _ _ _ _ h => exact hq.moves h (Core.commands_note rfl)
      | truncated _ _ _ _ _ h =>
          exact hq.moves h ((Core.commands_note rfl).trans (Core.commands_note rfl))
  | session h => exact hq.moves h rfl
  | host _ h => exact hq.moves h rfl

theorem run_queued (rounds : Nat) (device : Client.ExportedDevice)
    (schedule : List (List Client.Step)) (ops : List (Op R)) :
    (run rounds (start device schedule : Engine R) ops).Queued :=
  run_invariant (I := Queued) (fun _ _ _ h hq => h.queued hq)
    (fun _ _ _ h hq => h.queued hq) rounds ops (List.Sublist.refl _)

end Engine
end UsbIp
