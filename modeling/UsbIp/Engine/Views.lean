import UsbIp.Engine.Tokens

/-!
# One endpoint's view

The pump works on one endpoint at a time, and so does every operation but the
removal of a device.  What an endpoint can see of the engine is its own entry
and the events that name it; actions and changes on other endpoints leave that
alone.
-/

namespace UsbIp
namespace Engine

open Foundation
open Hci
open Client (TransferResult)

variable {R : Type}

def Event.key : Event R -> EndpointKey
  | Event.added k => k
  | Event.removed k => k
  | Event.reset k => k
  | Event.submitted s => s.key
  | Event.finished k _ _ => k
  | Event.discarded k _ _ => k
  | Event.completed c => c.key

/-- The events of an endpoint, newest first. -/
def historyOf (c : Core R) (key : EndpointKey) : List (Event R) :=
  c.log.filter fun ev => ev.key = key

@[simp] theorem historyOf_put (c : Core R) (key k : EndpointKey) (ep : Endpoint R) :
    historyOf (c.put key ep) k = historyOf c k := rfl

theorem historyOf_note (c : Core R) (ev : Event R) (key : EndpointKey) :
    historyOf (c.note ev) key =
      if ev.key = key then ev :: historyOf c key else historyOf c key := by
  simp [historyOf, List.filter_cons]

theorem historyOf_note_self {c : Core R} {ev : Event R} {key : EndpointKey}
    (h : ev.key = key) : historyOf (c.note ev) key = ev :: historyOf c key := by
  simp [historyOf, h]

theorem historyOf_note_other {c : Core R} {ev : Event R} {key : EndpointKey}
    (h : ev.key ≠ key) : historyOf (c.note ev) key = historyOf c key := by
  simp [historyOf, h]

theorem mem_historyOf {c : Core R} {key : EndpointKey} {ev : Event R} :
    ev ∈ historyOf c key <-> ev ∈ c.log ∧ ev.key = key := by
  simp [historyOf]

@[simp] theorem push_lookup (c : Core R) (key : EndpointKey) (ep : Endpoint R)
    (flight : InFlight) (reply : Nat) (cmd : Protocol.CmdSubmit) :
    (c.push key ep flight reply cmd).endpoints.lookup key =
      some { ep with inFlight := ep.inFlight ++ [flight] } := by
  rw [Core.push, Core.note_endpoints, Core.put_lookup, if_pos rfl]

@[simp] theorem push_history (c : Core R) (key : EndpointKey) (ep : Endpoint R)
    (flight : InFlight) (reply : Nat) (cmd : Protocol.CmdSubmit) :
    historyOf (c.push key ep flight reply cmd) key =
      Event.submitted { key, ahead := ep.inFlight.length, ring := ep.ring, flight, reply,
                        cmd } :: historyOf c key := by
  simp only [Core.push, historyOf_note, Event.key, if_true, historyOf_put]
  rfl

@[simp] theorem note_put_lookup (c : Core R) (key : EndpointKey) (ep : Endpoint R)
    (ev : Event R) : ((c.put key ep).note ev).endpoints.lookup key = some ep := by
  rw [Core.note_endpoints, Core.put_lookup, if_pos rfl]

@[simp] theorem discard_history (c : Core R) (key : EndpointKey) (flights : List InFlight)
    (cause : Cause) : historyOf (c.note (Event.discarded key flights cause)) key =
      Event.discarded key flights cause :: historyOf c key := by
  simp only [historyOf_note, Event.key, if_true]

theorem submitted_issued (key : EndpointKey) {e : Engine R} (hq : e.Queued)
    {s : Submission R} (hs : Event.submitted s ∈ historyOf e.toCore key) :
    Protocol.Command.submit s.cmd ∈ e.session.shared.issued := by
  apply hq.subset
  refine List.mem_filterMap.mpr ⟨Event.submitted s, ?_, rfl⟩
  exact List.mem_reverse.mpr (mem_historyOf.mp hs).left

/-- An endpoint sees no difference between two states. -/
structure SameView (key : EndpointKey) (c c' : Core R) : Prop where
  lookup : c'.endpoints.lookup key = c.endpoints.lookup key
  history : historyOf c' key = historyOf c key

theorem SameView.refl (key : EndpointKey) (c : Core R) : SameView key c c :=
  ⟨rfl, rfl⟩

theorem SameView.trans {key : EndpointKey} {c c' c'' : Core R} (h : SameView key c c')
    (h' : SameView key c' c'') : SameView key c c'' :=
  ⟨h'.lookup.trans h.lookup, h'.history.trans h.history⟩

theorem SameView.put {key k : EndpointKey} (hk : k ≠ key) (c : Core R)
    (ep : Endpoint R) : SameView key c (c.put k ep) :=
  ⟨by rw [Core.put_lookup, if_neg hk.symm], rfl⟩

theorem SameView.note {key : EndpointKey} (c : Core R) {ev : Event R}
    (hev : ev.key ≠ key) : SameView key c (c.note ev) :=
  ⟨rfl, historyOf_note_other hev⟩

theorem SameView.takeOut {key k : EndpointKey} (hk : k ≠ key) (c : Core R) :
    SameView key c (takeOut c k) := by
  unfold Engine.takeOut
  split
  · exact SameView.refl key c
  · constructor
    · change (c.endpoints.erase k).lookup key = c.endpoints.lookup key
      rw [Table.lookup_erase_eq, if_neg hk.symm]
    · refine (historyOf_note_other ?_).trans (historyOf_note_other ?_)
      · exact hk
      · exact hk

theorem Replied.other {key : EndpointKey} {task : Task} {result : TransferResult}
    {e e' : Engine R} (h : Replied task result e e') (hk : task.key ≠ key) :
    SameView key e.toCore e'.toCore := by
  have hreply : SameView key e.toCore (e.toCore.reply task result) := by
    refine ⟨rfl, historyOf_note_other ?_⟩
    exact hk
  cases h with
  | dropped _ h =>
      rw [h.core]
      exact hreply
  | recorded _ _ _ _ h =>
      rw [h.core]
      exact hreply.trans (SameView.put hk _ _)
  | truncated _ _ _ _ _ h =>
      rw [h.core]
      exact (hreply.trans (SameView.put hk _ _)).trans (SameView.note _ hk)

/-!
# Removed endpoints
-/

theorem takeOut_seen (c : Core R) (key : EndpointKey) :
    (c.endpoints.lookup key = none ∧ takeOut c key = c) ∨
      exists ep, c.endpoints.lookup key = some ep ∧
        (takeOut c key).endpoints.lookup key = none ∧
        historyOf (takeOut c key) key = Event.removed key ::
          Event.discarded key ep.inFlight Cause.removed :: historyOf c key := by
  unfold takeOut
  cases hep : c.endpoints.lookup key with
  | none => exact Or.inl ⟨rfl, rfl⟩
  | some ep =>
      refine Or.inr ⟨ep, rfl, ?_, ?_⟩
      · dsimp only [Core.note_endpoints]
        rw [Table.lookup_erase_eq, if_pos rfl]
      · simp only [historyOf_note, Event.key, if_true]
        rfl

theorem takeOutAll_seen (c : Core R) (keys : List EndpointKey) (key : EndpointKey) :
    SameView key c (keys.foldl takeOut c) ∨
      key ∈ keys ∧ exists ep, c.endpoints.lookup key = some ep ∧
        (keys.foldl takeOut c).endpoints.lookup key = none ∧
        historyOf (keys.foldl takeOut c) key = Event.removed key ::
          Event.discarded key ep.inFlight Cause.removed :: historyOf c key := by
  induction keys generalizing c with
  | nil => exact Or.inl (SameView.refl key c)
  | cons k keys ih =>
      rw [List.foldl_cons]
      by_cases hk : k = key
      · subst hk
        rcases takeOut_seen c k with ⟨_, hsame⟩ | ⟨ep, hep, hlookup, hhistory⟩
        · rw [hsame]
          rcases ih c with hview | ⟨_, hrest⟩
          · exact Or.inl hview
          · exact Or.inr ⟨List.mem_cons_self, hrest⟩
        · refine Or.inr ⟨List.mem_cons_self, ep, hep, ?_⟩
          rcases ih (takeOut c k) with hview | ⟨_, ep', hep', _⟩
          · exact ⟨hview.lookup.trans hlookup, hview.history.trans hhistory⟩
          · rw [hlookup] at hep'
            cases hep'
      · have hview := SameView.takeOut hk c
        rcases ih (takeOut c k) with hrest | ⟨hmem, ep, hep, hlookup, hhistory⟩
        · exact Or.inl (hview.trans hrest)
        · rw [hview.lookup] at hep
          rw [hview.history] at hhistory
          exact Or.inr ⟨List.mem_cons_of_mem k hmem, ep, hep, hlookup, hhistory⟩

theorem takeOutAll_tasks (c : Core R) (keys : List EndpointKey) :
    (keys.foldl takeOut c).tasks = c.tasks := by
  induction keys generalizing c with
  | nil => rfl
  | cons key keys ih =>
      rw [List.foldl_cons, ih]
      unfold takeOut
      split <;> rfl

/-!
# Endpoint keys
-/

theorem mem_put {c : Core R} {key k : EndpointKey} {ep : Endpoint R} :
    k ∈ (c.put key ep).endpoints <-> k = key ∨ k ∈ c.endpoints :=
  AList.mem_insert c.endpoints

theorem mem_put_back {c : Core R} {key k : EndpointKey} {ep ep' : Endpoint R}
    (hep : c.endpoints.lookup key = some ep) :
    k ∈ (c.put key ep').endpoints <-> k ∈ c.endpoints := by
  rw [mem_put]
  constructor
  · intro h
    rcases h with rfl | h
    · exact Table.mem_iff_lookup.mpr ⟨ep, hep⟩
    · exact h
  · exact Or.inr

theorem mem_takeOut {c : Core R} {key k : EndpointKey} :
    k ∈ (takeOut c key).endpoints <-> k ∈ c.endpoints ∧ k ≠ key := by
  unfold takeOut
  split
  · rename_i hep
    constructor
    · intro h
      refine ⟨h, ?_⟩
      rintro rfl
      exact AList.lookup_eq_none.mp hep h
    · exact And.left
  · dsimp only [Core.note_endpoints]
    rw [AList.mem_erase, and_comm]

theorem mem_takeOutAll {c : Core R} {keys : List EndpointKey} {k : EndpointKey} :
    k ∈ (keys.foldl takeOut c).endpoints <-> k ∈ c.endpoints ∧ k ∉ keys := by
  induction keys generalizing c with
  | nil => simp
  | cons key keys ih =>
      rw [List.foldl_cons, ih, mem_takeOut, List.mem_cons, not_or, and_assoc]

/-!
# Accepted completions

The history only grows, so what is asked of all completions of a run is asked of
the completions up to every state of it.
-/

theorem takeOut_log (c : Core R) (key : EndpointKey) : c.log <:+ (takeOut c key).log := by
  unfold takeOut
  split
  · exact List.suffix_refl _
  · exact ⟨[_, _], rfl⟩

theorem takeOutAll_log (c : Core R) (keys : List EndpointKey) :
    c.log <:+ (keys.foldl takeOut c).log := by
  induction keys generalizing c with
  | nil => exact List.suffix_refl _
  | cons key keys ih => exact (takeOut_log c key).trans (ih _)

/-- No ring of the endpoint has rejected a completion. -/
def Accepting (key : EndpointKey) (c : Core R) : Prop :=
  forall d, Event.completed d ∈ historyOf c key -> d.accepted = true

instance (key : EndpointKey) (c : Core R) : Decidable (Accepting key c) :=
  decidable_of_iff
    ((historyOf c key).all (fun | Event.completed d => d.accepted | _ => true) = true) (by
      rw [List.all_eq_true]
      constructor
      · intro h d hd
        exact h (Event.completed d) hd
      · intro h ev hev
        cases ev with
        | completed d => exact h d hev
        | _ => rfl)

theorem Accepting.earlier {key : EndpointKey} {c c' : Core R} (h : Accepting key c')
    (hlog : c.log <:+ c'.log) : Accepting key c := by
  intro d hd
  rw [mem_historyOf] at hd
  exact h d (mem_historyOf.mpr ⟨hlog.subset hd.left, hd.right⟩)

variable [Ring R]

theorem SameView.complete {key k : EndpointKey} (hk : k ≠ key) (c : Core R)
    (ep : Endpoint R) (origin : Option InFlight) (status : Status) (data : Bytes)
    (length : UInt32) : SameView key c (c.complete k ep origin status data length) :=
  (SameView.put hk c _).trans (SameView.note _ hk)

@[simp] theorem complete_lookup (c : Core R) (key : EndpointKey) (ep : Endpoint R)
    (origin : Option InFlight) (status : Status) (data : Bytes) (length : UInt32) :
    (c.complete key ep origin status data length).endpoints.lookup key =
      some { ep with ring := (Ring.complete ep.ring status data length).1 } := by
  rw [Core.complete, Core.note_endpoints, Core.put_lookup, if_pos rfl]

@[simp] theorem complete_history (c : Core R) (key : EndpointKey) (ep : Endpoint R)
    (origin : Option InFlight) (status : Status) (data : Bytes) (length : UInt32) :
    historyOf (c.complete key ep origin status data length) key =
      Event.completed { key, ring := ep.ring, origin, status, data, length,
                        accepted := (Ring.complete ep.ring status data length).2.isOk } ::
        historyOf c key := by
  simp only [Core.complete, historyOf_note, Event.key, if_true, historyOf_put]

theorem Accepting.completed {key : EndpointKey} {c : Core R} {ep : Endpoint R}
    {origin : Option InFlight} {status : Status} {data : Bytes} {length : UInt32}
    (h : Accepting key (c.complete key ep origin status data length)) :
    (Ring.complete ep.ring status data length).2.isOk = true := by
  unfold Accepting at h
  rw [complete_history] at h
  exact h _ List.mem_cons_self

theorem Action.other {key k : EndpointKey} {e e' : Engine R} (h : Action k e e')
    (hk : k ≠ key) : SameView key e.toCore e'.toCore := by
  cases h with
  | idle h =>
      rw [h.core]
      exact SameView.refl key _
  | stale _ _ _ _ h =>
      rw [h.core]
      exact (SameView.put hk _ _).trans (SameView.note _ hk)
  | applied _ _ _ _ _ _ h =>
      rw [h.core]
      exact SameView.complete hk _ _ _ _ _ _
  | settled _ _ _ _ _ h =>
      rw [h.core]
      exact SameView.complete hk _ _ _ _ _ _
  | submitted _ _ _ _ _ h =>
      rw [h.core]
      constructor
      · rw [Core.push, Core.note_endpoints, Core.put_lookup, if_neg hk.symm]
      · apply historyOf_note_other
        exact hk
  | refused _ _ _ _ _ _ h =>
      rw [h.core]
      exact SameView.complete hk _ _ _ _ _ _

/-!
# What a change does to one endpoint
-/

def Op.Removes (key : EndpointKey) : Op R -> Prop
  | Op.removeEndpoint k => k = key
  | Op.removeDevice device _ => device = key.1
  | _ => False

/-- A change as one endpoint sees it. -/
inductive Seen (key : EndpointKey) (e e' : Engine R) : Op R -> Prop where
  | same {op : Op R} (h : SameView key e.toCore e'.toCore) : Seen key e e' op
  | added {info : EndpointInfo} {ring : R}
      (hlookup : e'.endpoints.lookup key = some
        { ring, info, inFlight := [], setup := none, hiddenConfig := none })
      (hhistory : historyOf e'.toCore key = Event.added key ::
        Event.discarded key (flightsOf e.toCore key) Cause.replaced ::
          historyOf e.toCore key) :
      Seen key e e' (Op.addEndpoint key info ring)
  | updated {info : EndpointInfo} {ep : Endpoint R}
      (hep : e.endpoints.lookup key = some ep)
      (hlookup : e'.endpoints.lookup key = some { ep with info := info })
      (hhistory : historyOf e'.toCore key = historyOf e.toCore key) :
      Seen key e e' (Op.updateEndpoint key info)
  | removed {op : Op R} {ep : Endpoint R} (hop : op.Removes key)
      (hep : e.endpoints.lookup key = some ep)
      (hlookup : e'.endpoints.lookup key = none)
      (hhistory : historyOf e'.toCore key = Event.removed key ::
        Event.discarded key ep.inFlight Cause.removed :: historyOf e.toCore key) :
      Seen key e e' op
  | reset {ep : Endpoint R} (hep : e.endpoints.lookup key = some ep)
      (hlookup : e'.endpoints.lookup key = some { ep with setup := none, inFlight := [] })
      (hhistory : historyOf e'.toCore key = Event.reset key ::
        Event.discarded key ep.inFlight Cause.reset :: historyOf e.toCore key) :
      Seen key e e' (Op.resetEndpoint key)
  | paused {ep : Endpoint R} (hread : ¬ (key.2 &&& 0x80 = 0 ∨ key.2 &&& 0x7f = 0))
      (hep : e.endpoints.lookup key = some ep)
      (hlookup : e'.endpoints.lookup key =
        some { ep with inFlight := markPaused ep.inFlight })
      (hhistory : historyOf e'.toCore key = historyOf e.toCore key) :
      Seen key e e' (Op.pauseEndpoint key)
  | synced {ep : Endpoint R} {front : InFlight} {rest : List InFlight}
      (hep : e.endpoints.lookup key = some ep) (hflight : ep.inFlight = front :: rest)
      (hmoved : front.message ≠ (Ring.current ep.ring).1)
      (hlookup : e'.endpoints.lookup key = some { ep with inFlight := [] })
      (hhistory : historyOf e'.toCore key =
        Event.discarded key ep.inFlight Cause.synced :: historyOf e.toCore key) :
      Seen key e e' (Op.syncEndpoint key)
  | dropped {task : Task} {result : TransferResult}
      (harrived : e.arrived task.reply = some (task, result)) (hkey : task.key = key)
      (hgone : forall f, f ∈ flightsOf e.toCore key -> f.token ≠ task.token)
      (hlookup : e'.endpoints.lookup key = e.endpoints.lookup key)
      (hhistory : historyOf e'.toCore key =
        Event.finished key task.token result :: historyOf e.toCore key) :
      Seen key e e' (Op.deliver task.reply)
  | recorded {task : Task} {result : TransferResult} {ep : Endpoint R}
      {front back : List InFlight} {f : InFlight}
      (harrived : e.arrived task.reply = some (task, result)) (hkey : task.key = key)
      (hep : e.endpoints.lookup key = some ep)
      (hsplit : ep.inFlight = front ++ f :: back) (htoken : f.token = task.token)
      (hkeep : ¬ (f.unlinking = true ∧ isUnlinked result = true))
      (hlookup : e'.endpoints.lookup key =
        some { ep with inFlight := front ++ { f with result := some result } :: back })
      (hhistory : historyOf e'.toCore key =
        Event.finished key task.token result :: historyOf e.toCore key) :
      Seen key e e' (Op.deliver task.reply)
  | truncated {task : Task} {result : TransferResult} {ep : Endpoint R}
      {front back : List InFlight} {f : InFlight}
      (harrived : e.arrived task.reply = some (task, result)) (hkey : task.key = key)
      (hep : e.endpoints.lookup key = some ep)
      (hsplit : ep.inFlight = front ++ f :: back) (htoken : f.token = task.token)
      (hpaused : f.unlinking = true) (hunlinked : isUnlinked result = true)
      (hlookup : e'.endpoints.lookup key = some { ep with inFlight := front })
      (hhistory : historyOf e'.toCore key = Event.discarded key back Cause.unlinked ::
        Event.finished key task.token result :: historyOf e.toCore key) :
      Seen key e e' (Op.deliver task.reply)
  | host {ring : R} {ep : Endpoint R} (hep : e.endpoints.lookup key = some ep)
      (hlookup : e'.endpoints.lookup key = some { ep with ring := ring })
      (hhistory : historyOf e'.toCore key = historyOf e.toCore key) :
      Seen key e e' (Op.host key ring)

theorem Replied.seen {key : EndpointKey} {task : Task} {result : TransferResult}
    {e e' : Engine R} (h : Replied task result e e')
    (harrived : e.arrived task.reply = some (task, result)) :
    Seen key e e' (Op.deliver task.reply) := by
  by_cases hk : task.key = key
  · have hfinished : historyOf (e.toCore.reply task result) key =
        Event.finished key task.token result :: historyOf e.toCore key := by
      subst hk
      exact historyOf_note_self rfl
    cases h with
    | dropped hgone h =>
        rw [hk] at hgone
        refine Seen.dropped harrived hk hgone ?_ ?_
        · rw [h.core]
          rfl
        · rw [h.core]
          exact hfinished
    | recorded hep hsplit htoken hkeep h =>
        rw [hk] at hep h
        refine Seen.recorded harrived hk hep hsplit htoken hkeep ?_ ?_
        · rw [h.core, Core.put_lookup, if_pos rfl]
        · rw [h.core, historyOf_put]
          exact hfinished
    | truncated hep hsplit htoken hpaused hunlinked h =>
        rw [hk] at hep h
        refine Seen.truncated harrived hk hep hsplit htoken hpaused hunlinked ?_ ?_
        · rw [h.core, Core.note_endpoints, Core.put_lookup, if_pos rfl]
        · simp only [h.core, historyOf_note, Event.key, if_true, historyOf_put, hfinished]
  · exact Seen.same (h.other hk)

theorem Change.seen (key : EndpointKey) {e e' : Engine R} {op : Op R}
    (h : Change e e' op) : Seen key e e' op := by
  cases h with
  | @added k info ring h =>
      by_cases hk : k = key
      · subst hk
        refine Seen.added ?_ ?_
        · rw [h.core, putNew, Core.note_endpoints, Core.note_endpoints, Core.put_lookup,
            if_pos rfl]
        · simp only [h.core, putNew, historyOf_note, Event.key, if_true, historyOf_put]
      · apply Seen.same
        rw [h.core]
        refine ((SameView.put hk _ _).trans (SameView.note _ ?_)).trans (SameView.note _ ?_)
        · exact hk
        · exact hk
  | @updated k info ep hep h =>
      by_cases hk : k = key
      · subst hk
        refine Seen.updated hep ?_ ?_
        · rw [h.core, Core.put_lookup, if_pos rfl]
        · rw [h.core, historyOf_put]
      · apply Seen.same
        rw [h.core]
        exact SameView.put hk _ _
  | @removed k h =>
      rcases takeOutAll_seen e.toCore [k] key with
        hview | ⟨hmem, ep, hep, hlookup, hhistory⟩
      · rw [← h.core] at hview
        exact Seen.same hview
      · rw [← h.core] at hlookup hhistory
        refine Seen.removed ?_ hep hlookup hhistory
        exact (List.mem_singleton.mp hmem).symm
  | @removedDevice device keys hkeys h =>
      rcases takeOutAll_seen e.toCore keys key with
        hview | ⟨hmem, ep, hep, hlookup, hhistory⟩
      · rw [← h.core] at hview
        exact Seen.same hview
      · rw [← h.core] at hlookup hhistory
        refine Seen.removed ?_ hep hlookup hhistory
        exact (hkeys key hmem).symm
  | @reset k ep hep h =>
      by_cases hk : k = key
      · subst hk
        refine Seen.reset hep ?_ ?_
        · rw [h.core, Core.note_endpoints, Core.note_endpoints, Core.put_lookup, if_pos rfl]
        · simp only [h.core, historyOf_note, Event.key, if_true, historyOf_put]
      · apply Seen.same
        rw [h.core]
        refine ((SameView.put hk _ _).trans (SameView.note _ ?_)).trans (SameView.note _ ?_)
        · exact hk
        · exact hk
  | @paused k ep hread hep h =>
      by_cases hk : k = key
      · subst hk
        refine Seen.paused hread hep ?_ ?_
        · rw [h.core, Core.put_lookup, if_pos rfl]
        · rw [h.core, historyOf_put]
      · apply Seen.same
        rw [h.core]
        exact SameView.put hk _ _
  | @synced k ep front rest hep hflight hmoved h =>
      by_cases hk : k = key
      · subst hk
        refine Seen.synced hep hflight hmoved ?_ ?_
        · rw [h.core, Core.note_endpoints, Core.put_lookup, if_pos rfl]
        · simp only [h.core, historyOf_note, Event.key, if_true, historyOf_put]
      · apply Seen.same
        rw [h.core]
        exact (SameView.put hk _ _).trans (SameView.note _ hk)
  | replied harrived h => exact h.seen harrived
  | session h =>
      apply Seen.same
      rw [h.core]
      exact SameView.refl key _
  | @host k ring ep hep h =>
      by_cases hk : k = key
      · subst hk
        refine Seen.host hep ?_ ?_
        · rw [h.core, Core.put_lookup, if_pos rfl]
        · rw [h.core, historyOf_put]
      · apply Seen.same
        rw [h.core]
        exact SameView.put hk _ _

/-!
# Tasks
-/

theorem Action.tasks {key : EndpointKey} {e e' : Engine R} (h : Action key e e') :
    forall t, t ∈ e'.tasks -> t ∈ e.tasks ∨ t.key = key := by
  intro t ht
  cases h with
  | idle h =>
      rw [h.core] at ht
      exact Or.inl ht
  | stale _ _ _ _ h =>
      rw [h.core] at ht
      exact Or.inl ht
  | applied _ _ _ _ _ _ h =>
      rw [h.core] at ht
      exact Or.inl ht
  | settled _ _ _ _ _ h =>
      rw [h.core] at ht
      exact Or.inl ht
  | submitted _ _ _ _ _ h =>
      rw [h.core] at ht
      rcases List.mem_append.mp ht with ht | ht
      · exact Or.inl ht
      · rw [List.mem_singleton.mp ht]
        exact Or.inr rfl
  | refused _ _ _ _ _ _ h =>
      rw [h.core] at ht
      exact Or.inl ht

theorem Change.tasks {e e' : Engine R} {op : Op R} (h : Change e e' op) :
    forall t, t ∈ e'.tasks -> t ∈ e.tasks ∧ op ≠ Op.deliver t.reply := by
  intro t ht
  cases h with
  | added h =>
      rw [h.core] at ht
      exact ⟨ht, by simp⟩
  | updated _ h =>
      rw [h.core] at ht
      exact ⟨ht, by simp⟩
  | removed h =>
      rw [h.core, takeOutAll_tasks] at ht
      exact ⟨ht, by simp⟩
  | removedDevice _ h =>
      rw [h.core, takeOutAll_tasks] at ht
      exact ⟨ht, by simp⟩
  | reset _ h =>
      rw [h.core] at ht
      exact ⟨ht, by simp⟩
  | paused _ _ h =>
      rw [h.core] at ht
      exact ⟨ht, by simp⟩
  | synced _ _ _ h =>
      rw [h.core] at ht
      exact ⟨ht, by simp⟩
  | @replied task result _ h =>
      have hreply : forall {c : Core R}, c = e.toCore.reply task result -> t ∈ c.tasks ->
          t ∈ e.tasks ∧ Op.deliver task.reply ≠ (Op.deliver t.reply : Op R) := by
        intro c hc hmem
        rw [hc] at hmem
        rcases List.mem_filter.mp hmem with ⟨hold, hne⟩
        constructor
        · exact hold
        · intro heq
          rw [Op.deliver.injEq] at heq
          simp [heq] at hne
      cases h with
      | dropped _ h =>
          rw [h.core] at ht
          exact hreply rfl ht
      | recorded _ _ _ _ h =>
          rw [h.core] at ht
          exact hreply rfl ht
      | truncated _ _ _ _ _ h =>
          rw [h.core] at ht
          exact hreply rfl ht
  | session h =>
      rw [h.core] at ht
      exact ⟨ht, by simp⟩
  | host _ h =>
      rw [h.core] at ht
      exact ⟨ht, by simp⟩

/-!
# Growing histories
-/

theorem Action.log {key : EndpointKey} {e e' : Engine R} (h : Action key e e') :
    e.log <:+ e'.log := by
  cases h with
  | idle h => exact ⟨[], h.log⟩
  | stale _ _ _ _ h => exact ⟨[_], h.log⟩
  | applied _ _ _ _ _ _ h => exact ⟨[_], h.log⟩
  | settled _ _ _ _ _ h => exact ⟨[_], h.log⟩
  | submitted _ _ _ _ _ h => exact ⟨[_], h.log⟩
  | refused _ _ _ _ _ _ h => exact ⟨[_], h.log⟩

theorem Change.log {e e' : Engine R} {op : Op R} (h : Change e e' op) :
    e.log <:+ e'.log := by
  cases h with
  | added h => exact ⟨[_, _], h.log⟩
  | updated _ h => exact ⟨[], h.log⟩
  | removed h =>
      rw [← h.log]
      exact takeOutAll_log _ _
  | removedDevice _ h =>
      rw [← h.log]
      exact takeOutAll_log _ _
  | reset _ h => exact ⟨[_, _], h.log⟩
  | paused _ _ h => exact ⟨[], h.log⟩
  | synced _ _ _ h => exact ⟨[_], h.log⟩
  | replied _ h =>
      cases h with
      | dropped _ h => exact ⟨[_], h.log⟩
      | recorded _ _ _ _ h => exact ⟨[_], h.log⟩
      | truncated _ _ _ _ _ h => exact ⟨[_, _], h.log⟩
  | session h => exact ⟨[], h.log⟩
  | host _ h => exact ⟨[], h.log⟩

/-!
# Operations that keep the endpoint keys
-/

theorem Action.mem_endpoints {key k : EndpointKey} {e e' : Engine R} (h : Action key e e') :
    k ∈ e'.endpoints <-> k ∈ e.endpoints := by
  cases h with
  | idle h => rw [h.core]
  | stale hep _ _ _ h =>
      rw [h.core]
      exact mem_put_back hep
  | applied hep _ _ _ _ _ h =>
      rw [h.core]
      exact mem_put_back hep
  | settled hep _ _ _ _ h =>
      rw [h.core]
      exact mem_put_back hep
  | submitted hep _ _ _ _ h =>
      rw [h.core]
      exact mem_put_back (c := { e.toCore with
        nextToken := e.nextToken + 1, tasks := _ }) hep
  | refused hep _ _ _ _ _ h =>
      rw [h.core]
      exact mem_put_back hep

def Op.KeepsKeys : Op R -> Prop
  | Op.addEndpoint _ _ _ | Op.removeEndpoint _ | Op.removeDevice _ _ => False
  | _ => True

theorem Change.mem_endpoints {k : EndpointKey} {e e' : Engine R} {op : Op R}
    (h : Change e e' op) (hop : op.KeepsKeys) : k ∈ e'.endpoints <-> k ∈ e.endpoints := by
  cases h with
  | added _ => exact hop.elim
  | removed _ => exact hop.elim
  | removedDevice _ _ => exact hop.elim
  | updated hep h =>
      rw [h.core]
      exact mem_put_back hep
  | reset hep h =>
      rw [h.core]
      exact mem_put_back hep
  | paused _ hep h =>
      rw [h.core]
      exact mem_put_back hep
  | synced hep _ _ h =>
      rw [h.core]
      exact mem_put_back hep
  | replied _ h =>
      cases h with
      | dropped _ h => rw [h.core]; rfl
      | recorded hep _ _ _ h =>
          rw [h.core]
          exact mem_put_back hep
      | truncated hep _ _ _ _ h =>
          rw [h.core]
          exact mem_put_back hep
  | session h => rw [h.core]
  | host hep h =>
      rw [h.core]
      exact mem_put_back hep

theorem pump_mem_endpoints (rounds : Nat) (e : Engine R) (key k : EndpointKey) :
    k ∈ (e.pump rounds key).endpoints <-> k ∈ e.endpoints :=
  Actions.invariant (I := fun e' => k ∈ e'.endpoints <-> k ∈ e.endpoints)
    (fun _ _ h hsame => h.mem_endpoints.trans hsame) (pump_actions rounds e key) Iff.rfl

theorem perform_mem_endpoints {rounds : Nat} {e : Engine R} {op : Op R} (hop : op.KeepsKeys)
    (k : EndpointKey) : k ∈ (e.perform rounds op).endpoints <-> k ∈ e.endpoints := by
  cases e.perform_outcome rounds op with
  | nothing h => rw [h]
  | change h => exact h.mem_endpoints hop
  | doorbell _ h =>
      rw [h]
      exact pump_mem_endpoints rounds e _ k
  | callback hsame harrived hreplied h =>
      rw [h]
      subst hsame
      exact (pump_mem_endpoints rounds _ _ k).trans
        ((Change.replied harrived hreplied).mem_endpoints hop)

/-!
# Runs without a rejected completion
-/

/--
A property that holds between operations, where another one holds while the pump
of the endpoint runs, holds after every run without a rejected completion.
-/
theorem pumping_run_invariant {key : EndpointKey} {rounds : Nat}
    {guard : Engine R -> Op R -> Prop} {I J : Engine R -> Prop}
    (hchange : forall e e' op, guard e op -> Change e e' op -> I e -> I e')
    (hdoorbell : forall e, guard e (Op.doorbell key) -> I e -> J e)
    (hcallback : forall e e' task result, guard e (Op.deliver task.reply) ->
      e.arrived task.reply = some (task, result) -> task.key = key ->
      Replied task result e e' -> I e -> J e')
    (haction : forall e e', Action key e e' -> Accepting key e'.toCore -> J e -> J e')
    (hother : forall k e e', k ≠ key -> Action k e e' -> Accepting key e'.toCore ->
      I e -> I e')
    (hreturn : forall e, J e -> I e)
    {e : Engine R} {ops : List (Op R)} (hguard : Guarded (step rounds) guard e ops)
    (hinit : I e) (haccepting : Accepting key (run rounds e ops).toCore) :
    I (run rounds e ops) := by
  refine invariant_of_guarded (I := fun e => Accepting key e.toCore -> I e) ?_ hguard
    (fun _ => hinit) haccepting
  intro e op hop hI haccepting
  unfold step at haccepting ⊢
  split
  · rename_i hstuck
    rw [if_pos hstuck] at haccepting
    exact hI haccepting
  · rename_i hstuck
    rw [if_neg hstuck] at haccepting
    have hhere : forall e1, (Accepting key e1.toCore -> J e1) ->
        Accepting key (e1.pump rounds key).toCore -> I (e1.pump rounds key) := by
      intro e1 hJ1 hacc
      refine hreturn _ ((pump_actions rounds e1 key).invariant
        (I := fun e => Accepting key e.toCore -> J e) ?_ hJ1 hacc)
      intro e2 e3 hact hJ2 hacc3
      exact haction e2 e3 hact hacc3 (hJ2 (hacc3.earlier hact.log))
    have hthere : forall e1 k, k ≠ key -> (Accepting key e1.toCore -> I e1) ->
        Accepting key (e1.pump rounds k).toCore -> I (e1.pump rounds k) := by
      intro e1 k hk hI1
      refine (pump_actions rounds e1 k).invariant
        (I := fun e => Accepting key e.toCore -> I e) ?_ hI1
      intro e2 e3 hact hI2 hacc3
      exact hother k e2 e3 hk hact hacc3 (hI2 (hacc3.earlier hact.log))
    cases e.perform_outcome rounds op with
    | nothing heq =>
        rw [heq] at haccepting ⊢
        exact hI haccepting
    | change h => exact hchange e _ op hop h (hI (haccepting.earlier h.log))
    | @doorbell k hdoor heq =>
        rw [heq] at haccepting ⊢
        rw [hdoor] at hop
        by_cases hk : k = key
        · subst hk
          exact hhere e (fun hacc => hdoorbell e hop (hI hacc)) haccepting
        · exact hthere e k hk hI haccepting
    | @callback task result e1 hdeliver harrived hreplied heq =>
        have h := Change.replied harrived hreplied
        rw [heq] at haccepting ⊢
        rw [hdeliver] at hop
        by_cases hk : task.key = key
        · rw [hk] at haccepting ⊢
          refine hhere e1 ?_ haccepting
          intro hacc
          exact hcallback e e1 task result hop harrived hk hreplied (hI (hacc.earlier h.log))
        · refine hthere e1 task.key hk ?_ haccepting
          intro hacc
          exact hchange e e1 _ hop h (hI (hacc.earlier h.log))

/-- The same for one property that the changes and all actions keep. -/
theorem accepting_run_invariant {key : EndpointKey} {rounds : Nat}
    {guard : Engine R -> Op R -> Prop} {I : Engine R -> Prop}
    (hchange : forall e e' op, guard e op -> Change e e' op -> I e -> I e')
    (haction : forall k e e', Action k e e' -> Accepting key e'.toCore -> I e -> I e')
    {e : Engine R} {ops : List (Op R)} (hguard : Guarded (step rounds) guard e ops)
    (hinit : I e) (haccepting : Accepting key (run rounds e ops).toCore) :
    I (run rounds e ops) :=
  pumping_run_invariant (J := I) hchange (fun _ _ h => h)
    (fun e e' _ _ hop harrived _ hreplied h =>
      hchange e e' _ hop (Change.replied harrived hreplied) h)
    (fun e e' => haction key e e') (fun k e e' _ => haction k e e') (fun _ h => h) hguard
    hinit haccepting

end Engine
end UsbIp
