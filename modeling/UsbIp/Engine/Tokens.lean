import UsbIp.Engine.Changes
import UsbIp.Engine.SlotRing
import UsbIp.Foundation.History

/-!
# Tokens

Every submission gets a token of its own, and a reply finds its URB by the
token.  The invariant here ties the queues and the tasks to the history: what is
in flight was submitted on this endpoint and nothing has given it up since, a
result was passed to `finish` under its token, and the results that have
completed a message have smaller tokens than all that are still in flight.
-/

namespace UsbIp
namespace Engine

open Foundation
open Protocol
open Hci
open Client (SubmitRequest TransferResult)

variable {R : Type}

structure InFlight.SameUrb (f g : InFlight) : Prop where
  token : f.token = g.token
  message : f.message = g.message
  stage : f.stage = g.stage
  direction : f.direction = g.direction
  length : f.length = g.length
  seqnum : f.seqnum = g.seqnum

theorem InFlight.SameUrb.refl (f : InFlight) : f.SameUrb f :=
  ⟨rfl, rfl, rfl, rfl, rfl, rfl⟩

theorem InFlight.SameUrb.trans {f g h : InFlight} (hfg : f.SameUrb g)
    (hgh : g.SameUrb h) : f.SameUrb h :=
  ⟨hfg.token.trans hgh.token, hfg.message.trans hgh.message, hfg.stage.trans hgh.stage,
    hfg.direction.trans hgh.direction, hfg.length.trans hgh.length,
    hfg.seqnum.trans hgh.seqnum⟩

/--
Events after which a URB of an endpoint is not in flight any more: the endpoint
is another one or was reset, the URB was given up, or its result was used.
-/
def Event.Ends (key : EndpointKey) (token : Nat) : Event R -> Prop
  | Event.added k => k = key
  | Event.removed k => k = key
  | Event.reset k => k = key
  | Event.submitted _ => False
  | Event.finished _ _ _ => False
  | Event.discarded k flights _ => k = key ∧ exists f, f ∈ flights ∧ f.token = token
  | Event.completed c => c.key = key ∧ exists f, c.origin = some f ∧ f.token = token

variable [Ring R]

/-- A URB is built from the head message, or from one ahead of it. -/
def Submission.Built (s : Submission R) : Prop :=
  (s.ahead = 0 ∧ (Ring.current s.ring).1 = s.flight.message) ∨
    (0 < s.ahead ∧ exists transfer,
      Ring.peek s.ring s.ahead = some (s.flight.message, transfer))

/--
A completion with a URB result: the ring is active and its head is the message
the URB was built from; the URB was submitted on this endpoint, and nothing has
ended it since; its result came through `finish`; and results used before
belong to other submissions, earlier ones if they are of this endpoint.
-/
structure Completion.Rightful (c : Completion R) (f : InFlight)
    (older : List (Event R)) : Prop where
  active : Ring.active c.ring = true
  head : (Ring.current c.ring).1 = f.message
  submission : exists s : Submission R, s.key = c.key ∧ f.SameUrb s.flight ∧ s.Built ∧
    Since (fun ev => ev = Event.submitted s) (Event.Ends c.key f.token) older
  result : exists result, f.result = some result ∧
    Event.finished c.key f.token result ∈ older
  others : forall d g, Event.completed d ∈ older -> d.origin = some g ->
    g.token ≠ f.token ∧ (d.key = c.key -> g.token < f.token)

def Event.RightfulResult (ev : Event R) (older : List (Event R)) : Prop :=
  forall c f, ev = Event.completed c -> c.origin = some f -> c.Rightful f older

/-!
# The invariant
-/

structure Core.TokensOk (c : Core R) : Prop where
  submitted_lt : forall s, Event.submitted s ∈ c.log -> s.flight.token < c.nextToken
  submitted_injective : forall s t, Event.submitted s ∈ c.log ->
    Event.submitted t ∈ c.log -> s.flight.token = t.flight.token -> s = t
  submitted_built : forall s, Event.submitted s ∈ c.log -> s.Built
  finished_lt : forall key token result, Event.finished key token result ∈ c.log ->
    token < c.nextToken
  flight_sorted : forall key, (flightsOf c key).Pairwise fun f g => f.token < g.token
  flight_from : forall key f, f ∈ flightsOf c key ->
    exists s : Submission R, s.key = key ∧ f.SameUrb s.flight ∧
      Since (fun ev => ev = Event.submitted s) (Event.Ends key f.token) c.log
  flight_result : forall key f result, f ∈ flightsOf c key -> f.result = some result ->
    Event.finished key f.token result ∈ c.log
  completed_lt : forall d g f, Event.completed d ∈ c.log -> d.origin = some g ->
    f ∈ flightsOf c d.key -> g.token < f.token
  completed_from : forall d g, Event.completed d ∈ c.log -> d.origin = some g ->
    exists s, Event.submitted s ∈ c.log ∧ s.key = d.key ∧ s.flight.token = g.token
  completed_rightful : Justified Event.RightfulResult c.log
  task_from : forall t, t ∈ c.tasks ->
    exists s, Event.submitted s ∈ c.log ∧ s.key = t.key ∧
      s.flight.token = t.token ∧ s.reply = t.reply
  task_waiting : forall t key result, t ∈ c.tasks ->
    Event.finished key t.token result ∉ c.log

theorem Core.TokensOk.flight_submitted {c : Core R} (hok : c.TokensOk)
    {key : EndpointKey} {f : InFlight} (hf : f ∈ flightsOf c key) :
    exists s, Event.submitted s ∈ c.log ∧ s.key = key ∧ f.SameUrb s.flight := by
  rcases hok.flight_from key f hf with ⟨s, hkey, hsame, hsince⟩
  rcases hsince.exists with ⟨ev, hmem, rfl⟩
  exact ⟨s, hmem, hkey, hsame⟩

theorem Core.TokensOk.flight_lt {c : Core R} (hok : c.TokensOk)
    {key : EndpointKey} {f : InFlight} (hf : f ∈ flightsOf c key) :
    f.token < c.nextToken := by
  rcases hok.flight_submitted hf with ⟨s, hmem, _, hsame⟩
  rw [hsame.token]
  exact hok.submitted_lt s hmem

theorem Core.TokensOk.task_reply {c : Core R} (hok : c.TokensOk) {t u : Task}
    (ht : t ∈ c.tasks) (hu : u ∈ c.tasks) (htoken : t.token = u.token) :
    t.reply = u.reply := by
  rcases hok.task_from t ht with ⟨s, hs, _, hst, hsr⟩
  rcases hok.task_from u hu with ⟨s', hs', _, hst', hsr'⟩
  have hsame : s = s' := hok.submitted_injective s s' hs hs' (by rw [hst, hst', htoken])
  rw [← hsr, ← hsr', hsame]

/-!
# Queues that shrink
-/

structure Shrinks (c : Core R) (key : EndpointKey) (gs fs : List InFlight) : Prop where
  sorted : gs.Pairwise fun f g => f.token < g.token
  from_old : forall g, g ∈ gs -> exists f, f ∈ fs ∧ g.SameUrb f
  results : forall g result, g ∈ gs -> g.result = some result ->
    Event.finished key g.token result ∈ c.log

theorem Shrinks.of_sublist {c : Core R} (hok : c.TokensOk) {key : EndpointKey}
    {gs : List InFlight} (h : gs.Sublist (flightsOf c key)) :
    Shrinks c key gs (flightsOf c key) where
  sorted := (hok.flight_sorted key).sublist h
  from_old := fun g hg => ⟨g, h.subset hg, InFlight.SameUrb.refl g⟩
  results := fun g result hg hr => hok.flight_result key g result (h.subset hg) hr

theorem Core.TokensOk.put {c : Core R} (hok : c.TokensOk) {key : EndpointKey}
    {ep : Endpoint R} (h : Shrinks c key ep.inFlight (flightsOf c key)) :
    (c.put key ep).TokensOk := by
  have hold : forall k f, f ∈ flightsOf (c.put key ep) k ->
      exists g, g ∈ flightsOf c k ∧ f.SameUrb g := by
    intro k f hf
    rw [flightsOf_put] at hf
    split at hf
    · rename_i hk
      subst hk
      exact h.from_old f hf
    · exact ⟨f, hf, InFlight.SameUrb.refl f⟩
  exact
    { submitted_lt := hok.submitted_lt
      submitted_injective := hok.submitted_injective
      submitted_built := hok.submitted_built
      finished_lt := hok.finished_lt
      flight_sorted := by
        intro k
        rw [flightsOf_put]
        split
        · exact h.sorted
        · exact hok.flight_sorted k
      flight_from := by
        intro k f hf
        rcases hold k f hf with ⟨g, hg, hsame⟩
        rcases hok.flight_from k g hg with ⟨s, hkey, hgs, hsince⟩
        rw [← hsame.token] at hsince
        exact ⟨s, hkey, hsame.trans hgs, hsince⟩
      flight_result := by
        intro k f result hf hr
        rw [flightsOf_put] at hf
        split at hf
        · rename_i hk
          subst hk
          exact h.results f result hf hr
        · exact hok.flight_result k f result hf hr
      completed_lt := by
        intro d g f hd hg hf
        rcases hold d.key f hf with ⟨f', hf', hsame⟩
        rw [hsame.token]
        exact hok.completed_lt d g f' hd hg hf'
      completed_from := hok.completed_from
      completed_rightful := hok.completed_rightful
      task_from := hok.task_from
      task_waiting := hok.task_waiting }

/-!
# Events
-/

def Event.Plain : Event R -> Prop
  | Event.submitted _ => False
  | Event.finished _ _ _ => False
  | Event.completed c => c.origin = none
  | _ => True

theorem Core.TokensOk.note {c : Core R} (hok : c.TokensOk) {ev : Event R}
    (hplain : ev.Plain)
    (hends : forall key f, f ∈ flightsOf c key -> ¬ ev.Ends key f.token) :
    (c.note ev).TokensOk := by
  have hsubmitted : forall s, Event.submitted s ∈ (c.note ev).log ->
      Event.submitted s ∈ c.log := by
    intro s hs
    rcases List.mem_cons.mp hs with hnew | hs
    · rw [← hnew] at hplain
      cases hplain
    · exact hs
  have hfinished : forall k t r, Event.finished k t r ∈ (c.note ev).log ->
      Event.finished k t r ∈ c.log := by
    intro k t r hr
    rcases List.mem_cons.mp hr with hnew | hr
    · rw [← hnew] at hplain
      cases hplain
    · exact hr
  have hcompleted : forall d g, Event.completed d ∈ (c.note ev).log ->
      d.origin = some g -> Event.completed d ∈ c.log := by
    intro d g hd hg
    rcases List.mem_cons.mp hd with hnew | hd
    · rw [← hnew] at hplain
      change d.origin = none at hplain
      rw [hplain] at hg
      cases hg
    · exact hd
  exact
    { submitted_lt := fun s hs => hok.submitted_lt s (hsubmitted s hs)
      submitted_injective := fun s t hs ht =>
        hok.submitted_injective s t (hsubmitted s hs) (hsubmitted t ht)
      submitted_built := fun s hs => hok.submitted_built s (hsubmitted s hs)
      finished_lt := fun k t r hr => hok.finished_lt k t r (hfinished k t r hr)
      flight_sorted := hok.flight_sorted
      flight_from := by
        intro key f hf
        rcases hok.flight_from key f hf with ⟨s, hkey, hsame, hsince⟩
        exact ⟨s, hkey, hsame, hsince.later (hends key f hf)⟩
      flight_result := fun key f result hf hr =>
        List.mem_cons_of_mem _ (hok.flight_result key f result hf hr)
      completed_lt := fun d g f hd hg hf => hok.completed_lt d g f (hcompleted d g hd hg) hg hf
      completed_from := by
        intro d g hd hg
        rcases hok.completed_from d g (hcompleted d g hd hg) hg with ⟨s, hs, hrest⟩
        exact ⟨s, List.mem_cons_of_mem _ hs, hrest⟩
      completed_rightful := by
        constructor
        · intro d f hev hd
          rw [hev] at hplain
          change d.origin = none at hplain
          rw [hplain] at hd
          cases hd
        · exact hok.completed_rightful
      task_from := by
        intro t ht
        rcases hok.task_from t ht with ⟨s, hs, hrest⟩
        exact ⟨s, List.mem_cons_of_mem _ hs, hrest⟩
      task_waiting := fun t k r ht hmem => hok.task_waiting t k r ht (hfinished _ _ _ hmem) }

theorem Core.TokensOk.erase {c : Core R} (hok : c.TokensOk) (key : EndpointKey) :
    ({ c with endpoints := c.endpoints.erase key } : Core R).TokensOk := by
  have hold : forall k f, f ∈ flightsOf { c with endpoints := c.endpoints.erase key } k ->
      f ∈ flightsOf c k := by
    intro k f hf
    rw [flightsOf_erase] at hf
    split at hf
    · cases hf
    · exact hf
  exact
    { submitted_lt := hok.submitted_lt
      submitted_injective := hok.submitted_injective
      submitted_built := hok.submitted_built
      finished_lt := hok.finished_lt
      flight_sorted := by
        intro k
        rw [flightsOf_erase]
        split
        · exact List.Pairwise.nil
        · exact hok.flight_sorted k
      flight_from := fun k f hf => hok.flight_from k f (hold k f hf)
      flight_result := fun k f result hf => hok.flight_result k f result (hold k f hf)
      completed_lt := fun d g f hd hg hf => hok.completed_lt d g f hd hg (hold d.key f hf)
      completed_from := hok.completed_from
      completed_rightful := hok.completed_rightful
      task_from := hok.task_from
      task_waiting := hok.task_waiting }

theorem Core.TokensOk.reply {c : Core R} (hok : c.TokensOk) {task : Task}
    (htask : task ∈ c.tasks) (result : TransferResult) :
    (c.reply task result).TokensOk := by
  rcases hok.task_from task htask with ⟨s0, hs0, hkey0, htoken0, hreply0⟩
  have hsubmitted : forall s, Event.submitted s ∈ (c.reply task result).log ->
      Event.submitted s ∈ c.log :=
    fun s hs => List.mem_of_ne_of_mem (by simp) hs
  have hcompleted : forall d, Event.completed d ∈ (c.reply task result).log ->
      Event.completed d ∈ c.log :=
    fun d hd => List.mem_of_ne_of_mem (by simp) hd
  exact
    { submitted_lt := fun s hs => hok.submitted_lt s (hsubmitted s hs)
      submitted_injective := fun s t hs ht =>
        hok.submitted_injective s t (hsubmitted s hs) (hsubmitted t ht)
      submitted_built := fun s hs => hok.submitted_built s (hsubmitted s hs)
      finished_lt := by
        intro k t r hr
        rcases List.mem_cons.mp hr with hnew | hr
        · cases hnew
          rw [← htoken0]
          exact hok.submitted_lt s0 hs0
        · exact hok.finished_lt k t r hr
      flight_sorted := hok.flight_sorted
      flight_from := by
        intro key f hf
        rcases hok.flight_from key f hf with ⟨s, hkey, hsame, hsince⟩
        exact ⟨s, hkey, hsame, hsince.later fun h => h⟩
      flight_result := fun key f r hf hr =>
        List.mem_cons_of_mem _ (hok.flight_result key f r hf hr)
      completed_lt := fun d g f hd hg hf => hok.completed_lt d g f (hcompleted d hd) hg hf
      completed_from := by
        intro d g hd hg
        rcases hok.completed_from d g (hcompleted d hd) hg with ⟨s, hs, hrest⟩
        exact ⟨s, List.mem_cons_of_mem _ hs, hrest⟩
      completed_rightful := by
        constructor
        · intro d f hev
          cases hev
        · exact hok.completed_rightful
      task_from := by
        intro t ht
        rcases hok.task_from t (List.mem_filter.mp ht).left with ⟨s, hs, hrest⟩
        exact ⟨s, List.mem_cons_of_mem _ hs, hrest⟩
      task_waiting := by
        intro t k r ht hmem
        rcases List.mem_filter.mp ht with ⟨ht, hother⟩
        rcases List.mem_cons.mp hmem with hnew | hmem
        · -- The callback was that of the one task with this token, which has ended.
          rw [Event.finished.injEq] at hnew
          have hsame := hok.task_reply ht htask hnew.right.left
          simp [hsame] at hother
        · exact hok.task_waiting t k r ht hmem }

/-- A URB that is put in flight gets a token that was not used before. -/
theorem Core.TokensOk.push {c : Core R} (hok : c.TokensOk) {key : EndpointKey}
    {ep : Endpoint R} (hep : c.endpoints.lookup key = some ep) {message : UInt64}
    {req : SubmitRequest} {stage : Stage} {seqnum : UInt32} {reply : Nat}
    {cmd : CmdSubmit}
    (hbuilt : (Submission.mk key ep.inFlight.length ep.ring
      (newFlight c.nextToken message req stage seqnum) reply cmd).Built) :
    (c.push key ep (newFlight c.nextToken message req stage seqnum) reply cmd).TokensOk := by
  have hmem : forall k f,
      f ∈ flightsOf (c.push key ep (newFlight c.nextToken message req stage seqnum)
        reply cmd) k ->
      f ∈ flightsOf c k ∨ (k = key ∧ f = newFlight c.nextToken message req stage seqnum) := by
    intro k f hf
    rw [flightsOf_push hep] at hf
    split at hf
    · rename_i hk
      subst hk
      rcases List.mem_append.mp hf with hold | hnew
      · exact Or.inl hold
      · exact Or.inr ⟨rfl, List.mem_singleton.mp hnew⟩
    · exact Or.inl hf
  have hsubmitted : forall s, Event.submitted s ∈ (c.push key ep
      (newFlight c.nextToken message req stage seqnum) reply cmd).log ->
      (s.flight.token = c.nextToken ∧ s = Submission.mk key ep.inFlight.length ep.ring
        (newFlight c.nextToken message req stage seqnum) reply cmd) ∨
        Event.submitted s ∈ c.log := by
    intro s hs
    rcases List.mem_cons.mp hs with hnew | hs
    · cases hnew
      exact Or.inl ⟨rfl, rfl⟩
    · exact Or.inr hs
  have hfinished : forall k t r, Event.finished k t r ∈ (c.push key ep
      (newFlight c.nextToken message req stage seqnum) reply cmd).log ->
      Event.finished k t r ∈ c.log :=
    fun k t r hr => List.mem_of_ne_of_mem (by simp) hr
  have hcompleted : forall d, Event.completed d ∈ (c.push key ep
      (newFlight c.nextToken message req stage seqnum) reply cmd).log ->
      Event.completed d ∈ c.log :=
    fun d hd => List.mem_of_ne_of_mem (by simp) hd
  exact
    { submitted_lt := by
        intro s hs
        rcases hsubmitted s hs with ⟨htoken, _⟩ | hs
        · rw [htoken]
          exact Nat.lt_succ_self _
        · exact Nat.lt_succ_of_lt (hok.submitted_lt s hs)
      submitted_injective := by
        intro s t hs ht htoken
        rcases hsubmitted s hs with ⟨hst, hsnew⟩ | hs <;>
          rcases hsubmitted t ht with ⟨htt, htnew⟩ | ht
        · rw [hsnew, htnew]
        · rw [hst] at htoken
          exact absurd htoken (Nat.ne_of_gt (hok.submitted_lt t ht))
        · rw [htt] at htoken
          exact absurd htoken (Nat.ne_of_lt (hok.submitted_lt s hs))
        · exact hok.submitted_injective s t hs ht htoken
      submitted_built := by
        intro s hs
        rcases hsubmitted s hs with ⟨_, rfl⟩ | hs
        · exact hbuilt
        · exact hok.submitted_built s hs
      finished_lt := fun k t r hr =>
        Nat.lt_succ_of_lt (hok.finished_lt k t r (hfinished k t r hr))
      flight_sorted := by
        intro k
        rw [flightsOf_push hep]
        split
        · apply List.pairwise_append.mpr
          refine ⟨hok.flight_sorted key, List.pairwise_singleton _ _, ?_⟩
          intro f hf g hg
          rw [List.mem_singleton.mp hg]
          exact hok.flight_lt hf
        · exact hok.flight_sorted k
      flight_from := by
        intro k f hf
        rcases hmem k f hf with hold | ⟨rfl, rfl⟩
        · rcases hok.flight_from k f hold with ⟨s, hkey, hsame, hsince⟩
          exact ⟨s, hkey, hsame, hsince.later fun h => h⟩
        · exact ⟨_, rfl, InFlight.SameUrb.refl _, Since.here rfl⟩
      flight_result := by
        intro k f result hf hr
        rcases hmem k f hf with hold | ⟨_, rfl⟩
        · exact List.mem_cons_of_mem _ (hok.flight_result k f result hold hr)
        · cases hr
      completed_lt := by
        intro d g f hd hg hf
        rcases hmem d.key f hf with hold | ⟨_, rfl⟩
        · exact hok.completed_lt d g f (hcompleted d hd) hg hold
        · rcases hok.completed_from d g (hcompleted d hd) hg with ⟨s, hs, _, htoken⟩
          rw [← htoken]
          exact hok.submitted_lt s hs
      completed_from := by
        intro d g hd hg
        rcases hok.completed_from d g (hcompleted d hd) hg with ⟨s, hs, hrest⟩
        exact ⟨s, List.mem_cons_of_mem _ hs, hrest⟩
      completed_rightful := by
        constructor
        · intro d f hev
          cases hev
        · exact hok.completed_rightful
      task_from := by
        intro t ht
        rcases List.mem_append.mp ht with hold | hnew
        · rcases hok.task_from t hold with ⟨s, hs, hrest⟩
          exact ⟨s, List.mem_cons_of_mem _ hs, hrest⟩
        · rw [List.mem_singleton.mp hnew]
          exact ⟨_, List.mem_cons_self, rfl, rfl, rfl⟩
      task_waiting := by
        intro t k r ht hr
        have hr := hfinished k t.token r hr
        rcases List.mem_append.mp ht with hold | hnew
        · exact hok.task_waiting t k r hold hr
        · rw [List.mem_singleton.mp hnew] at hr
          exact Nat.lt_irrefl _ (hok.finished_lt k _ r hr) }

/-- The result of a URB in flight may complete the message it was built from. -/
theorem Core.TokensOk.rightful {c : Core R} (hok : c.TokensOk) {d : Completion R}
    {f : InFlight} {result : TransferResult} (hf : f ∈ flightsOf c d.key)
    (hactive : Ring.active d.ring = true) (hhead : (Ring.current d.ring).1 = f.message)
    (hresult : f.result = some result) : d.Rightful f c.log := by
  rcases hok.flight_from d.key f hf with ⟨s, hkey, hsame, hsince⟩
  rcases hsince.exists with ⟨ev, hsubmitted, rfl⟩
  constructor
  · exact hactive
  · exact hhead
  · exact ⟨s, hkey, hsame, hok.submitted_built s hsubmitted, hsince⟩
  · exact ⟨result, hresult, hok.flight_result d.key f result hf hresult⟩
  · intro d' g hd' hg
    constructor
    · intro htoken
      -- The same token means the same submission, and so the same endpoint.
      rcases hok.completed_from d' g hd' hg with ⟨t, ht, htkey, httoken⟩
      have hsubmission : t = s := hok.submitted_injective t s ht hsubmitted (by
        rw [httoken, htoken, hsame.token])
      have hf' : f ∈ flightsOf c d'.key := by
        rw [← htkey, hsubmission, hkey]
        exact hf
      exact absurd htoken (Nat.ne_of_lt (hok.completed_lt d' g f hd' hg hf'))
    · intro hsamekey
      exact hok.completed_lt d' g f hd' hg (hsamekey.symm ▸ hf)

theorem Core.TokensOk.completeFront {c : Core R} (hok : c.TokensOk) {key : EndpointKey}
    {ep ep' : Endpoint R} {front : InFlight} {rest : List InFlight}
    {result : TransferResult} {status : Status} {data : Bytes} {length : UInt32}
    (hep : c.endpoints.lookup key = some ep) (hactive : Ring.active ep.ring = true)
    (hflight : ep.inFlight = front :: rest)
    (hhead : front.message = (Ring.current ep.ring).1)
    (hresult : front.result = some result) (hring : ep'.ring = ep.ring)
    (hrest : ep'.inFlight = rest) :
    (c.complete key ep' (some front) status data length).TokensOk := by
  have hflights : flightsOf c key = front :: rest := (flightsOf_of_lookup hep).trans hflight
  have hfront : front ∈ flightsOf c key := by
    rw [hflights]
    exact List.mem_cons_self
  have hsorted := hok.flight_sorted key
  rw [hflights] at hsorted
  have hlater : forall g, g ∈ rest -> front.token < g.token :=
    (List.pairwise_cons.mp hsorted).left
  have hput : (c.put key { ep' with
      ring := (Ring.complete ep'.ring status data length).1 }).TokensOk := by
    apply hok.put
    apply Shrinks.of_sublist hok
    rw [hflights, hrest]
    exact List.sublist_cons_self _ _
  have hmem : forall k f,
      f ∈ flightsOf (c.complete key ep' (some front) status data length) k ->
        (k = key ∧ f ∈ rest) ∨ (k ≠ key ∧ f ∈ flightsOf c k) := by
    intro k f hf
    rw [Core.complete, flightsOf_note, flightsOf_put, hrest] at hf
    split at hf
    · rename_i hk
      exact Or.inl ⟨hk, hf⟩
    · rename_i hk
      exact Or.inr ⟨hk, hf⟩
  have hsubmitted : forall s,
      Event.submitted s ∈ (c.complete key ep' (some front) status data length).log ->
        Event.submitted s ∈ c.log :=
    fun s hs => List.mem_of_ne_of_mem (by simp) hs
  have hfinished : forall k t r,
      Event.finished k t r ∈ (c.complete key ep' (some front) status data length).log ->
        Event.finished k t r ∈ c.log :=
    fun k t r hr => List.mem_of_ne_of_mem (by simp) hr
  rcases hok.flight_submitted hfront with ⟨s0, hs0, hkey0, hsame0⟩
  exact
    { submitted_lt := fun s hs => hok.submitted_lt s (hsubmitted s hs)
      submitted_injective := fun s t hs ht =>
        hok.submitted_injective s t (hsubmitted s hs) (hsubmitted t ht)
      submitted_built := fun s hs => hok.submitted_built s (hsubmitted s hs)
      finished_lt := fun k t r hr => hok.finished_lt k t r (hfinished k t r hr)
      flight_sorted := hput.flight_sorted
      flight_from := by
        intro k f hf
        rcases hput.flight_from k f hf with ⟨s, hkey, hsame, hsince⟩
        refine ⟨s, hkey, hsame, hsince.later ?_⟩
        intro hends
        rcases hends with ⟨hk, g, hg, htoken⟩
        change key = k at hk
        subst hk
        cases hg
        rcases hmem key f hf with ⟨_, hf⟩ | ⟨hne, _⟩
        · exact absurd htoken (Nat.ne_of_lt (hlater f hf))
        · exact hne rfl
      flight_result := fun k f r hf hr =>
        List.mem_cons_of_mem _ (hput.flight_result k f r hf hr)
      completed_lt := by
        intro d g f hd hg hf
        rcases List.mem_cons.mp hd with hnew | hd
        · rw [Event.completed.injEq] at hnew
          subst hnew
          cases hg
          rcases hmem key f hf with ⟨_, hf⟩ | ⟨hne, _⟩
          · exact hlater f hf
          · exact absurd rfl hne
        · exact hput.completed_lt d g f hd hg hf
      completed_from := by
        intro d g hd hg
        rcases List.mem_cons.mp hd with hnew | hd
        · rw [Event.completed.injEq] at hnew
          subst hnew
          cases hg
          exact ⟨s0, List.mem_cons_of_mem _ hs0, hkey0, hsame0.token.symm⟩
        · rcases hok.completed_from d g hd hg with ⟨s, hs, hrest⟩
          exact ⟨s, List.mem_cons_of_mem _ hs, hrest⟩
      completed_rightful := by
        constructor
        · intro d f hev hd
          rw [Event.completed.injEq] at hev
          subst hev
          cases hd
          refine hok.rightful hfront ?_ ?_ hresult
          · rw [hring]
            exact hactive
          · rw [hring]
            exact hhead.symm
        · exact hok.completed_rightful
      task_from := by
        intro t ht
        rcases hok.task_from t ht with ⟨s, hs, hrest⟩
        exact ⟨s, List.mem_cons_of_mem _ hs, hrest⟩
      task_waiting := fun t k r ht hr => hok.task_waiting t k r ht (hfinished k t.token r hr) }

theorem Core.TokensOk.completeHead {c : Core R} (hok : c.TokensOk) {key : EndpointKey}
    {ep : Endpoint R} {status : Status} (hflight : ep.inFlight = flightsOf c key) :
    (c.complete key ep none status [] 0).TokensOk := by
  refine (hok.put ?_).note rfl ?_
  · apply Shrinks.of_sublist hok
    rw [hflight]
  · intro k f _ hends
    rcases hends with ⟨_, g, hg, _⟩
    cases hg

theorem Core.TokensOk.discard {c : Core R} (hok : c.TokensOk) {key : EndpointKey}
    {ep : Endpoint R} {kept gone : List InFlight} {cause : Cause}
    (hsplit : (kept ++ gone).Sublist (flightsOf c key)) (hkept : ep.inFlight = kept) :
    ((c.put key ep).note (Event.discarded key gone cause)).TokensOk := by
  have hsorted := (hok.flight_sorted key).sublist hsplit
  refine (hok.put ?_).note trivial ?_
  · apply Shrinks.of_sublist hok
    rw [hkept]
    exact (List.sublist_append_left kept gone).trans hsplit
  · intro k f hf hends
    rcases hends with ⟨rfl, g, hg, htoken⟩
    rw [flightsOf_put, if_pos rfl, hkept] at hf
    have hlt : f.token < g.token := (List.pairwise_append.mp hsorted).right.right f hf g hg
    exact absurd htoken (Nat.ne_of_gt hlt)

theorem Core.TokensOk.noteRestart {c : Core R} (hok : c.TokensOk) (key : EndpointKey)
    {ev : Event R} (hempty : flightsOf c key = [])
    (hev : ev = Event.added key ∨ ev = Event.removed key ∨ ev = Event.reset key) :
    (c.note ev).TokensOk := by
  refine hok.note ?_ ?_
  · rcases hev with rfl | rfl | rfl <;> exact trivial
  · intro k f hf hends
    have hk : key = k := by
      rcases hev with rfl | rfl | rfl <;> exact hends
    rw [← hk, hempty] at hf
    cases hf

theorem Core.TokensOk.takeOut {c : Core R} (hok : c.TokensOk) (key : EndpointKey) :
    (takeOut c key).TokensOk := by
  unfold Engine.takeOut
  split
  · exact hok
  · rename_i ep _
    have hempty : flightsOf { c with endpoints := c.endpoints.erase key } key = [] := by
      rw [flightsOf_erase]
      exact if_pos rfl
    have hdiscard : (Core.note { c with endpoints := c.endpoints.erase key }
        (Event.discarded key ep.inFlight Cause.removed)).TokensOk := by
      refine (hok.erase key).note trivial ?_
      intro k f hf hends
      rcases hends with ⟨rfl, _⟩
      rw [hempty] at hf
      cases hf
    exact hdiscard.noteRestart key hempty (Or.inr (Or.inl rfl))

theorem markPaused_mem {flights : List InFlight} {g : InFlight}
    (h : g ∈ markPaused flights) :
    exists f, f ∈ flights ∧ g.SameUrb f ∧ g.result = f.result := by
  rcases List.mem_map.mp h with ⟨f, hf, hg⟩
  refine ⟨f, hf, ?_⟩
  split at hg
  · rw [← hg]
    exact ⟨⟨rfl, rfl, rfl, rfl, rfl, rfl⟩, rfl⟩
  · rw [← hg]
    exact ⟨InFlight.SameUrb.refl f, rfl⟩

theorem markPaused_tokens (flights : List InFlight) :
    (markPaused flights).map InFlight.token = flights.map InFlight.token := by
  unfold markPaused
  rw [List.map_map]
  apply List.map_congr_left
  intro f _
  simp only [Function.comp_apply]
  split <;> rfl

/-!
# Actions and changes
-/

theorem Target.built {speed : Speed} {key : EndpointKey} {ep : Endpoint R}
    {message : UInt64} {req : SubmitRequest} {stage : Stage}
    (h : Target speed key ep message req stage) (token : Nat) (seqnum : UInt32)
    (reply : Nat) (cmd : CmdSubmit) :
    (Submission.mk key ep.inFlight.length ep.ring
      (newFlight token message req stage seqnum) reply cmd).Built := by
  cases h with
  | head hempty _ hcurrent _ =>
      left
      rw [hempty, hcurrent]
      exact ⟨rfl, rfl⟩
  | ahead hsome _ _ hpeek _ => exact Or.inr ⟨List.length_pos_of_ne_nil hsome, _, hpeek⟩

theorem Action.tokensOk {key : EndpointKey} {e e' : Engine R} (h : Action key e e')
    (hok : e.toCore.TokensOk) : e'.toCore.TokensOk := by
  cases h with
  | idle h =>
      rw [h.core]
      exact hok
  | stale hep _ _ _ h =>
      rw [h.core]
      refine hok.discard ?_ rfl
      rw [List.nil_append, flightsOf_of_lookup hep]
  | applied hep hactive hflight hhead hresult hstage h =>
      rcases applyStage_frame hstage with ⟨hring, hrest, _⟩
      rw [h.core]
      exact hok.completeFront hep hactive hflight hhead hresult hring hrest
  | settled hep _ _ _ hsettles h =>
      rw [h.core]
      exact hok.completeHead (hsettles.frame.right.left.trans (flightsOf_of_lookup hep).symm)
  | submitted hep htarget _ _ _ h =>
      rw [h.core]
      exact hok.push hep (htarget.built _ _ _ _)
  | refused hep _ _ _ _ _ h =>
      rw [h.core]
      exact hok.completeHead (flightsOf_of_lookup hep).symm

theorem Replied.tokensOk {task : Task} {result : TransferResult} {e e' : Engine R}
    (h : Replied task result e e') (htask : task ∈ e.tasks)
    (hok : e.toCore.TokensOk) : e'.toCore.TokensOk := by
  have hreply := hok.reply htask result
  cases h with
  | dropped _ h =>
      rw [h.core]
      exact hreply
  | @recorded ep front back f hep hsplit htoken _ h =>
      have hflights : flightsOf (e.toCore.reply task result) task.key =
          front ++ f :: back := (flightsOf_of_lookup hep).trans hsplit
      rw [h.core]
      refine hreply.put ⟨?_, ?_, ?_⟩
      · have hsorted := hreply.flight_sorted task.key
        rw [hflights] at hsorted
        have hmap : List.Pairwise (· < ·) ((front ++ f :: back).map InFlight.token) :=
          List.pairwise_map.mpr hsorted
        apply List.pairwise_map.mp
        simpa using hmap
      · intro g hg
        rw [hflights]
        rcases List.mem_append.mp hg with hg | hg
        · exact ⟨g, List.mem_append_left _ hg, InFlight.SameUrb.refl g⟩
        · rcases List.mem_cons.mp hg with rfl | hg
          · exact ⟨f, List.mem_append_right _ List.mem_cons_self, ⟨rfl, rfl, rfl, rfl, rfl, rfl⟩⟩
          · exact ⟨g, List.mem_append_right _ (List.mem_cons_of_mem _ hg),
              InFlight.SameUrb.refl g⟩
      · intro g r hg hr
        have hold : g ∈ flightsOf (e.toCore.reply task result) task.key ->
            Event.finished task.key g.token r ∈ (e.toCore.reply task result).log :=
          fun hg => hreply.flight_result task.key g r hg hr
        rw [hflights] at hold
        rcases List.mem_append.mp hg with hg | hg
        · exact hold (List.mem_append_left _ hg)
        · rcases List.mem_cons.mp hg with rfl | hg
          · cases hr
            show Event.finished task.key f.token result ∈ _
            rw [htoken]
            exact List.mem_cons_self
          · exact hold (List.mem_append_right _ (List.mem_cons_of_mem _ hg))
  | @truncated ep front back f hep hsplit htoken _ _ h =>
      rw [h.core]
      refine hreply.discard ?_ rfl
      have hflights : flightsOf (e.toCore.reply task result) task.key =
          front ++ f :: back := (flightsOf_of_lookup hep).trans hsplit
      rw [hflights]
      exact (List.Sublist.refl front).append (List.sublist_cons_self f back)

theorem Change.tokensOk {e e' : Engine R} {op : Op R} (h : Change e e' op)
    (hok : e.toCore.TokensOk) : e'.toCore.TokensOk := by
  have hkeep : forall {key : EndpointKey} {ep ep' : Endpoint R},
      e.endpoints.lookup key = some ep -> ep'.inFlight = ep.inFlight ->
        (e.toCore.put key ep').TokensOk := by
    intro key ep ep' hep hsame
    apply hok.put
    apply Shrinks.of_sublist hok
    rw [hsame, flightsOf_of_lookup hep]
  have hempty : forall {key : EndpointKey} {ep : Endpoint R} {cause : Cause},
      ep.inFlight = [] ->
        ((e.toCore.put key ep).note
          (Event.discarded key (flightsOf e.toCore key) cause)).TokensOk := by
    intro key ep cause hnone
    exact hok.discard (List.Sublist.refl _) hnone
  cases h with
  | added h =>
      rw [h.core]
      refine (hempty rfl).noteRestart _ ?_ (Or.inl rfl)
      simp
  | updated hep h =>
      rw [h.core]
      exact hkeep hep rfl
  | removed h =>
      rw [h.core]
      exact hok.takeOut _
  | @removedDevice _ keys _ h =>
      rw [h.core]
      exact invariant_of_step (I := Core.TokensOk) (fun _ key hok => hok.takeOut key) keys hok
  | @reset key ep hep h =>
      rw [h.core]
      have hflights := flightsOf_of_lookup hep
      refine Core.TokensOk.noteRestart ?_ key ?_ (Or.inr (Or.inr rfl))
      · rw [← hflights]
        exact hempty rfl
      · simp
  | @paused key ep _ hep h =>
      rw [h.core]
      have hflights := flightsOf_of_lookup hep
      refine hok.put ⟨?_, ?_, ?_⟩
      · have hsorted := List.pairwise_map.mpr (hflights ▸ hok.flight_sorted key)
        apply List.pairwise_map.mp
        rw [markPaused_tokens]
        exact hsorted
      · intro g hg
        rcases markPaused_mem hg with ⟨f, hf, hsame, _⟩
        exact ⟨f, hflights ▸ hf, hsame⟩
      · intro g r hg hr
        rcases markPaused_mem hg with ⟨f, hf, hsame, hresult⟩
        rw [hsame.token]
        exact hok.flight_result key f r (hflights ▸ hf) (hresult ▸ hr)
  | synced hep _ _ h =>
      rw [h.core, ← flightsOf_of_lookup hep]
      exact hempty rfl
  | replied harrived h => exact h.tokensOk (arrived_eq_some harrived).left hok
  | session h =>
      rw [h.core]
      exact hok
  | host hep h =>
      rw [h.core]
      exact hkeep hep rfl

theorem start_tokensOk (device : Client.ExportedDevice)
    (schedule : List (List Client.Step)) :
    (start device schedule : Engine R).toCore.TokensOk where
  submitted_lt := by simp [start]
  submitted_injective := by simp [start]
  submitted_built := by simp [start]
  finished_lt := by simp [start]
  flight_sorted := by simp [start, flightsOf]
  flight_from := by simp [start, flightsOf]
  flight_result := by simp [start, flightsOf]
  completed_lt := by simp [start]
  completed_from := by simp [start]
  completed_rightful := trivial
  task_from := by simp [start]
  task_waiting := by simp [start]

theorem run_tokensOk (rounds : Nat) (device : Client.ExportedDevice)
    (schedule : List (List Client.Step)) (ops : List (Op R)) :
    (run rounds (start device schedule) ops).toCore.TokensOk :=
  run_invariant (I := fun e : Engine R => e.toCore.TokensOk)
    (fun _ _ _ h hok => h.tokensOk hok) (fun _ _ _ h hok => h.tokensOk hok) rounds ops
    (start_tokensOk device schedule)

/-!
# Results reach the ring in ring order
-/

/--
In every run of fewer than `2^64` submissions, whatever order the replies arrive in
and whatever else happens, each completion that carries a URB result is a rightful
one.
-/
theorem urb_results_complete_their_message (rounds : Nat)
    (device : Client.ExportedDevice) (schedule : List (List Client.Step))
    (ops : List (Op R)) (newer older : List (Event R)) (c : Completion R) (f : InFlight)
    (hlog : (run rounds (start device schedule) ops).log =
      newer ++ Event.completed c :: older) (hresult : c.origin = some f) :
    c.Rightful f older :=
  (run_tokensOk rounds device schedule ops).completed_rightful.at hlog c f rfl hresult

def Event.origin? : Event R -> Option InFlight
  | Event.completed c => c.origin
  | _ => none

theorem urb_results_complete_their_message_reordered :
    let key : EndpointKey := (1, 0x81)
    let ring : QueueRing :=
      { active := true
        slots := [⟨10, .normal 2, [0, 0], rfl⟩, ⟨11, .normal 2, [0, 0], rfl⟩]
        next := 12 }
    let ops :=
      [Op.addEndpoint key { kind := .bulk, maxPacketSize := 512, bInterval := 0 } ring,
        Op.doorbell key] ++ answered 2 2 [7, 8] ++ [Op.deliver 1] ++
        answered 1 2 [5, 6] ++ [Op.deliver 0]
    let e := run 8 (start sampleDevice []) ops
    exists c f older, e.log = Event.completed c :: older ∧ c.origin = some f ∧
      c.Rightful f older := by
  intro key ring ops e
  have hlast : (e.log.head?.bind Event.origin?).isSome = true := by
    decide +kernel
  rcases Option.isSome_iff_exists.mp hlast with ⟨f, hf⟩
  rcases Option.bind_eq_some_iff.mp hf with ⟨ev, hev, horigin⟩
  rcases List.head?_eq_some_iff.mp hev with ⟨older, hlog⟩
  cases ev with
  | completed c =>
      exact ⟨c, f, older, hlog, horigin,
        urb_results_complete_their_message 8 sampleDevice [] ops [] older c f hlog horigin⟩
  | _ => cases horigin

end Engine
end UsbIp
