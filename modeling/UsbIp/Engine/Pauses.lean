import UsbIp.Engine.Links

/-!
# Reads across a pause

A pause unlinks the reads in flight, and each of them may still be answered with
data instead of being unlinked.  Such an answer is kept until its message is the
head of an active ring.  But when the unlink of one read is confirmed, `finish`
gives up every read behind it, those that hold data and those whose data is
still to come.  This module gives such a run, and shows that nothing else loses
data: if no read that was behind an unlinked one is answered with data, before
or after, every answer is written to its message or still held.
-/

namespace UsbIp
namespace Engine

open Foundation
open Protocol
open Hci
open Client (SubmitRequest TransferResult)

variable {R : Type}

/-!
# Answers
-/

def InFlight.hasData (f : InFlight) : Bool :=
  match f.result with
  | some (.ok _) => true
  | _ => false

/-- The reads behind a paused one. -/
def behindPaused (token : Nat) (flights : List InFlight) : List InFlight :=
  match splitAtToken token flights with
  | some (_, f, back) => if f.unlinking then back else []
  | none => []

/-- The read was behind a paused one when the unlink of that was confirmed. -/
def overtaken (token : Nat) (history : List (Event R)) : Bool :=
  history.any fun
    | Event.discarded _ flights Cause.unlinked => flights.any fun f => f.token = token
    | _ => false

theorem overtaken_mono {token : Nat} {history history' : List (Event R)}
    (h : overtaken token history = true) (hgrows : history <:+ history') :
    overtaken token history' = true := by
  rcases hgrows with ⟨newer, rfl⟩
  unfold overtaken at h ⊢
  rw [List.any_append, h, Bool.or_true]

theorem overtaken_here {key : EndpointKey} {flights : List InFlight} {f : InFlight}
    (h : f ∈ flights) (history : List (Event R)) :
    overtaken f.token (Event.discarded key flights Cause.unlinked :: history) = true := by
  unfold overtaken
  rw [List.any_cons, Bool.or_eq_true]
  left
  exact List.any_eq_true.mpr ⟨f, h, by simp⟩

/-- The reply is held until its message is the head of an active ring. -/
def Held (flights : List InFlight) (token : Nat) (ret : RetSubmit) : Prop :=
  exists f, f ∈ flights ∧ f.token = token ∧ f.result = some (.ok ret)

def Waits (flights : List InFlight) (history : List (Event R)) (token : Nat) : Prop :=
  (exists f, f ∈ flights ∧ f.token = token ∧ f.result = none) ∨
    overtaken token history = true

theorem applyStage_read {ep ep' : Endpoint R} {stage : Stage} {data data' : Bytes}
    {length length' : UInt32} {hidden : Bool}
    (hstage : stage = Stage.normal ∨ stage = Stage.isochronous)
    (h : applyStage ep stage data length = (ep', data', length', hidden)) :
    data' = data ∧ length' = length := by
  rcases hstage with rfl | rfl
  · cases h
    exact ⟨rfl, rfl⟩
  · cases h
    exact ⟨rfl, rfl⟩

variable [Ring R]

def Written (history : List (Event R)) (token : Nat) (ret : RetSubmit) : Prop :=
  exists c f, Event.completed c ∈ history ∧ c.accepted = true ∧ c.origin = some f ∧
    f.token = token ∧ f.result = some (.ok ret) ∧
    (Ring.current c.ring).1 = f.message ∧
    (c.status, c.data, c.length) = f.outcome (.ok ret)

theorem Written.mono {history history' : List (Event R)} {token : Nat} {ret : RetSubmit}
    (h : Written history token ret) (hgrows : history <:+ history') :
    Written history' token ret := by
  rcases h with ⟨c, f, hc, hrest⟩
  exact ⟨c, f, hgrows.subset hc, hrest⟩

/-!
# Reads
-/

structure InFlight.IsRead (f : InFlight) : Prop where
  direction : f.direction = Direction.in
  stage : f.stage = Stage.normal ∨ f.stage = Stage.isochronous

theorem dataRequest_read {speed : Speed} {ep : Endpoint R} {key : EndpointKey}
    {ahead : Nat} {transfer : Transfer} {req : SubmitRequest} {stage : Stage}
    (hin : Direction.ofEndpoint key.2 = Direction.in)
    (h : dataRequest speed ep key ahead transfer = some (req, stage)) :
    req.direction = Direction.in ∧ (stage = Stage.normal ∨ stage = Stage.isochronous) := by
  cases transfer with
  | normal length =>
      simp only [dataRequest, hin, Option.some.injEq, Prod.mk.injEq] at h
      rcases h with ⟨rfl, rfl⟩
      exact ⟨rfl, Or.inl rfl⟩
  | isochronous length frame =>
      simp only [dataRequest, hin, Option.some.injEq, Prod.mk.injEq] at h
      rcases h with ⟨rfl, rfl⟩
      cases frame <;> exact ⟨rfl, Or.inr rfl⟩
  | _ => cases h

theorem Target.read {speed : Speed} {key : EndpointKey} {ep : Endpoint R}
    {message : UInt64} {req : SubmitRequest} {stage : Stage}
    (hin : Direction.ofEndpoint key.2 = Direction.in) (hdata : isControl key = false)
    (h : Target speed key ep message req stage) :
    req.direction = Direction.in ∧ (stage = Stage.normal ∨ stage = Stage.isochronous) := by
  cases h with
  | head _ _ _ hasks =>
      cases hasks with
      | controlData hcontrol _ =>
          rw [hdata] at hcontrol
          cases hcontrol
      | controlStatus hcontrol _ =>
          rw [hdata] at hcontrol
          cases hcontrol
      | transfer _ hreq => exact dataRequest_read hin hreq
  | ahead _ _ _ _ hreq => exact dataRequest_read hin hreq

/-!
# The invariant
-/

/-- Nothing that has been read is lost. -/
structure ReadsKept (key : EndpointKey) (c : Core R) : Prop where
  reads : forall f, f ∈ flightsOf c key -> f.IsRead
  waiting : forall t, t ∈ c.tasks -> t.key = key ->
    Waits (flightsOf c key) (historyOf c key) t.token
  answered : forall token ret, Event.finished key token (.ok ret) ∈ historyOf c key ->
    Written (historyOf c key) token ret ∨ Held (flightsOf c key) token ret

theorem ReadsKept.sameView {key : EndpointKey} {c c' : Core R} (h : ReadsKept key c)
    (hview : SameView key c c')
    (htasks : forall t, t ∈ c'.tasks -> t.key = key -> t ∈ c.tasks) :
    ReadsKept key c' := by
  have hflights : flightsOf c' key = flightsOf c key := by
    unfold flightsOf
    rw [hview.lookup]
  constructor
  · rw [hflights]
    exact h.reads
  · rw [hflights, hview.history]
    intro t ht hkey
    exact h.waiting t (htasks t ht hkey) hkey
  · rw [hflights, hview.history]
    exact h.answered

/--
What is left to show of a step: that every read without an answer still waits,
and that every answer, new or old, is written or held.
-/
theorem ReadsKept.update {key : EndpointKey} {c c' : Core R} (h : ReadsKept key c)
    (hgrows : historyOf c key <:+ historyOf c' key)
    (hreads : forall f, f ∈ flightsOf c' key -> f.IsRead)
    (htasks : forall t, t ∈ c'.tasks -> t.key = key -> t ∈ c.tasks)
    (hwaits : forall t f, t ∈ c'.tasks -> f ∈ flightsOf c key -> f.token = t.token ->
      f.result = none -> Waits (flightsOf c' key) (historyOf c' key) t.token)
    (hheld : forall token ret, Held (flightsOf c key) token ret ->
      Written (historyOf c' key) token ret ∨ Held (flightsOf c' key) token ret)
    (hnew : forall token ret, Event.finished key token (.ok ret) ∈ historyOf c' key ->
      Event.finished key token (.ok ret) ∉ historyOf c key ->
      Held (flightsOf c' key) token ret) : ReadsKept key c' := by
  constructor
  · exact hreads
  · intro t ht hkey
    rcases h.waiting t (htasks t ht hkey) hkey with ⟨f, hf, htoken, hresult⟩ | hovertaken
    · exact hwaits t f ht hf htoken hresult
    · exact Or.inr (overtaken_mono hovertaken hgrows)
  · intro token ret hfinished
    by_cases hold : Event.finished key token (.ok ret) ∈ historyOf c key
    · rcases h.answered token ret hold with hwritten | hheld'
      · exact Or.inl (hwritten.mono hgrows)
      · exact hheld token ret hheld'
    · exact Or.inr (hnew token ret hfinished hold)

theorem ReadsKept.flights {key : EndpointKey} {c c' : Core R} (h : ReadsKept key c)
    (hhistory : historyOf c' key = historyOf c key)
    (htasks : forall t, t ∈ c'.tasks -> t.key = key -> t ∈ c.tasks)
    (hback : forall f, f ∈ flightsOf c' key -> f.IsRead)
    (hforth : forall f, f ∈ flightsOf c key ->
      exists g, g ∈ flightsOf c' key ∧ g.token = f.token ∧ g.result = f.result) :
    ReadsKept key c' := by
  refine h.update ⟨[], hhistory.symm⟩ hback htasks ?_ ?_ ?_
  · intro t f _ hf htoken hresult
    rcases hforth f hf with ⟨g, hg, hgtoken, hgresult⟩
    exact Or.inl ⟨g, hg, hgtoken.trans htoken, hgresult.trans hresult⟩
  · rintro token ret ⟨f, hf, htoken, hresult⟩
    rcases hforth f hf with ⟨g, hg, hgtoken, hgresult⟩
    exact Or.inr ⟨g, hg, hgtoken.trans htoken, hgresult.trans hresult⟩
  · intro token ret hfinished hnot
    rw [hhistory] at hfinished
    exact absurd hfinished hnot

/-!
# Actions of the pump
-/

theorem ReadsKept.settle {key : EndpointKey} {c c' : Core R} (h : ReadsKept key c)
    (hbefore : flightsOf c key = []) (hafter : flightsOf c' key = [])
    (htasks : c'.tasks = c.tasks) {d : Completion R}
    (hhistory : historyOf c' key = Event.completed d :: historyOf c key) :
    ReadsKept key c' := by
  refine h.update ?_ ?_ ?_ ?_ ?_ ?_
  · exact ⟨[_], hhistory.symm⟩
  · simp [hafter]
  · rw [htasks]
    exact fun t ht _ => ht
  · simp [hbefore]
  · simp [Held, hbefore]
  · intro token ret hfinished hnot
    rw [hhistory] at hfinished
    rcases List.mem_cons.mp hfinished with heq | hold
    · cases heq
    · exact absurd hold hnot

theorem ReadsKept.apply {key : EndpointKey} {c c' : Core R} (h : ReadsKept key c)
    {front : InFlight} {rest : List InFlight} {result : TransferResult}
    (hbefore : flightsOf c key = front :: rest) (hresult : front.result = some result)
    (hafter : flightsOf c' key = rest) (htasks : c'.tasks = c.tasks) {d : Completion R}
    (hhistory : historyOf c' key = Event.completed d :: historyOf c key)
    (horigin : d.origin = some front) (haccepted : d.accepted = true)
    (hhead : (Ring.current d.ring).1 = front.message)
    (houtcome : (d.status, d.data, d.length) = front.outcome result) :
    ReadsKept key c' := by
  refine h.update ?_ ?_ ?_ ?_ ?_ ?_
  · exact ⟨[_], hhistory.symm⟩
  · rw [hafter]
    intro f hf
    apply h.reads f
    rw [hbefore]
    exact List.mem_cons_of_mem _ hf
  · rw [htasks]
    exact fun t ht _ => ht
  · intro t f _ hf htoken hnone
    rw [hbefore] at hf
    rcases List.mem_cons.mp hf with rfl | hf
    · rw [hresult] at hnone
      cases hnone
    · left
      rw [hafter]
      exact ⟨f, hf, htoken, hnone⟩
  · rintro token ret ⟨f, hf, htoken, hok⟩
    rw [hbefore] at hf
    rcases List.mem_cons.mp hf with rfl | hf
    · left
      rw [hresult] at hok
      cases hok
      refine ⟨d, f, ?_, haccepted, horigin, htoken, hresult, hhead, houtcome⟩
      rw [hhistory]
      exact List.mem_cons_self
    · right
      rw [hafter]
      exact ⟨f, hf, htoken, hok⟩
  · intro token ret hfinished hnot
    rw [hhistory] at hfinished
    rcases List.mem_cons.mp hfinished with heq | hold
    · cases heq
    · exact absurd hold hnot

theorem ReadsKept.push {key : EndpointKey} {c : Core R} (h : ReadsKept key c)
    {ep : Endpoint R} (hep : c.endpoints.lookup key = some ep) {flight : InFlight}
    (hread : flight.IsRead) (htoken : flight.token = c.nextToken)
    (hresult : flight.result = none) (reply : Nat) (cmd : CmdSubmit) :
    ReadsKept key (c.push key ep flight reply cmd) := by
  have hbefore : flightsOf c key = ep.inFlight := flightsOf_of_lookup hep
  have hafter : flightsOf (c.push key ep flight reply cmd) key = ep.inFlight ++ [flight] :=
    flightsOf_of_lookup (push_lookup _ _ _ _ _ _)
  constructor
  · rw [hafter]
    intro f hf
    rcases List.mem_append.mp hf with hf | hf
    · apply h.reads f
      rw [hbefore]
      exact hf
    · rw [List.mem_singleton.mp hf]
      exact hread
  · rw [hafter, push_history]
    intro t ht hkey
    rcases List.mem_append.mp ht with ht | ht
    · rcases h.waiting t ht hkey with ⟨f, hf, hftoken, hnone⟩ | hovertaken
      · rw [hbefore] at hf
        exact Or.inl ⟨f, List.mem_append_left _ hf, hftoken, hnone⟩
      · exact Or.inr (overtaken_mono hovertaken (List.suffix_cons _ _))
    · rw [List.mem_singleton.mp ht]
      exact Or.inl ⟨flight, by simp, htoken, hresult⟩
  · rw [hafter, push_history]
    intro token ret hfinished
    rcases List.mem_cons.mp hfinished with heq | hold
    · cases heq
    · rcases h.answered token ret hold with hwritten | ⟨f, hf, hftoken, hok⟩
      · exact Or.inl (hwritten.mono (List.suffix_cons _ _))
      · rw [hbefore] at hf
        exact Or.inr ⟨f, List.mem_append_left _ hf, hftoken, hok⟩

section Runs

variable {S : Type} [SlotRing S]

theorem Action.readsKept {key : EndpointKey}
    (hin : Direction.ofEndpoint key.2 = Direction.in) (hdata : isControl key = false)
    {e e' : Engine S} (h : Action key e e') (haccepting : Accepting key e'.toCore)
    (hmoving : Unmoving key e) (hok : ReadsKept key e.toCore) :
    ReadsKept key e'.toCore := by
  cases h with
  | idle h =>
      rw [h.core]
      exact hok
  | stale hep hactive hflight hmoved _ =>
      exact absurd ((hmoving.steady _ hep).not_moved hactive hflight) hmoved
  | applied hep _ hflight hhead hresult hstage h =>
      have hbefore := (flightsOf_of_lookup hep).trans hflight
      rcases applyStage_frame hstage with ⟨hring, hrest, _⟩
      have hread := hok.reads _ (by
        rw [hbefore]
        exact List.mem_cons_self)
      rcases applyStage_read hread.stage hstage with ⟨hwritten, hlength⟩
      rw [if_pos hread.direction] at hwritten
      have hafter := flightsOf_of_lookup (h.lookup (complete_lookup _ _ _ _ _ _ _))
      rw [h.core] at haccepting hafter ⊢
      refine hok.apply hbefore hresult (hafter.trans hrest) rfl (complete_history _ _ _ _ _ _ _)
        rfl haccepting.completed ?_ ?_
      · dsimp only
        rw [hring, hhead]
      · rw [hwritten, hlength]
  | settled hep _ hempty _ hsettles h =>
      have hflights := hsettles.frame.right.left.trans hempty
      have hafter := flightsOf_of_lookup (h.lookup (complete_lookup _ _ _ _ _ _ _))
      rw [h.core] at hafter ⊢
      exact hok.settle ((flightsOf_of_lookup hep).trans hempty) (hafter.trans hflights) rfl
        (complete_history _ _ _ _ _ _ _)
  | submitted hep htarget _ _ _ h =>
      rw [h.core]
      exact hok.push hep ⟨(htarget.read hin hdata).left, (htarget.read hin hdata).right⟩ rfl
        rfl _ _
  | refused hep _ hempty _ _ _ h =>
      have hafter := flightsOf_of_lookup (h.lookup (complete_lookup _ _ _ _ _ _ _))
      rw [h.core] at hafter ⊢
      exact hok.settle ((flightsOf_of_lookup hep).trans hempty) (hafter.trans hempty) rfl
        (complete_history _ _ _ _ _ _ _)

/-!
# Replies
-/

/--
No read that is behind a paused one when the unlink of that is confirmed has been
answered with data, or is answered with data later.
-/
def ReadsInOrder (key : EndpointKey) (e : Engine S) : Op S -> Prop
  | Op.deliver reply => forall found, found ∈ e.arrived reply -> found.1.key = key ->
      (isUnlinked found.2 = true ->
        forall g, g ∈ behindPaused found.1.token (flightsOf e.toCore key) ->
          g.hasData = false) ∧
      (found.2.isOk = true -> overtaken found.1.token (historyOf e.toCore key) = false)
  | _ => True

theorem Core.TokensOk.unanswered {c : Core S} (hok : c.TokensOk) {key : EndpointKey}
    {t : Task} {f : InFlight} (ht : t ∈ c.tasks) (hf : f ∈ flightsOf c key)
    (htoken : f.token = t.token) : f.result = none := by
  cases hresult : f.result with
  | none => rfl
  | some result =>
      have hfinished := hok.flight_result key f result hf hresult
      rw [htoken] at hfinished
      exact absurd hfinished (hok.task_waiting t key result ht)

theorem ReadsKept.dropped {key : EndpointKey} {e e' : Engine S} {task : Task}
    {result : TransferResult} (hok : ReadsKept key e.toCore) (hmem : task ∈ e.tasks)
    (hkey : task.key = key)
    (horder : result.isOk = true ->
      overtaken task.token (historyOf e.toCore key) = false)
    (htasks : forall t, t ∈ e'.tasks -> t.key = key -> t ∈ e.tasks)
    (hgone : forall f, f ∈ flightsOf e.toCore key -> f.token ≠ task.token)
    (hlookup : e'.endpoints.lookup key = e.endpoints.lookup key)
    (hhistory : historyOf e'.toCore key =
      Event.finished key task.token result :: historyOf e.toCore key) :
    ReadsKept key e'.toCore := by
  have hflights : flightsOf e'.toCore key = flightsOf e.toCore key := by
    unfold flightsOf
    rw [hlookup]
  refine hok.update ?_ ?_ htasks ?_ ?_ ?_
  · exact ⟨[_], hhistory.symm⟩
  · rw [hflights]
    exact hok.reads
  · rw [hflights]
    exact fun t f _ hf htoken hnone => Or.inl ⟨f, hf, htoken, hnone⟩
  · rw [hflights]
    exact fun _ _ hheld => Or.inr hheld
  · intro token ret hfinished hnot
    rw [hhistory] at hfinished
    rcases List.mem_cons.mp hfinished with heq | hold
    · cases heq
      rcases hok.waiting task hmem hkey with ⟨f, hf, htoken, _⟩ | hovertaken
      · exact absurd htoken (hgone f hf)
      · rw [horder rfl] at hovertaken
        cases hovertaken
    · exact absurd hold hnot

theorem ReadsKept.recorded {key : EndpointKey} {e e' : Engine S} {task : Task}
    {result : TransferResult} (hok : ReadsKept key e.toCore)
    (htokens : e.toCore.TokensOk) (hmem : task ∈ e.tasks)
    (htasks : forall t, t ∈ e'.tasks -> t.key = key -> t ∈ e.tasks)
    (hother : forall t, t ∈ e'.tasks -> t.token ≠ task.token)
    {front back : List InFlight} {f : InFlight}
    (hbefore : flightsOf e.toCore key = front ++ f :: back)
    (htoken : f.token = task.token)
    (hafter : flightsOf e'.toCore key = front ++ { f with result := some result } :: back)
    (hhistory : historyOf e'.toCore key =
      Event.finished key task.token result :: historyOf e.toCore key) :
    ReadsKept key e'.toCore := by
  have hf : f ∈ flightsOf e.toCore key := by
    rw [hbefore]
    exact List.mem_append_right _ List.mem_cons_self
  have hkept : forall g, g ∈ flightsOf e.toCore key -> g ≠ f ->
      g ∈ flightsOf e'.toCore key := by
    intro g hg hne
    rw [hbefore] at hg
    rw [hafter]
    simp only [List.mem_append, List.mem_cons] at hg ⊢
    rcases hg with hg | hg | hg
    · exact Or.inl hg
    · exact absurd hg hne
    · exact Or.inr (Or.inr hg)
  refine hok.update ?_ ?_ htasks ?_ ?_ ?_
  · exact ⟨[_], hhistory.symm⟩
  · intro g hg
    rw [hafter] at hg
    simp only [List.mem_append, List.mem_cons] at hg
    rcases hg with hg | rfl | hg
    · apply hok.reads g
      rw [hbefore]
      exact List.mem_append_left _ hg
    · exact ⟨(hok.reads f hf).direction, (hok.reads f hf).stage⟩
    · apply hok.reads g
      rw [hbefore]
      exact List.mem_append_right _ (List.mem_cons_of_mem _ hg)
  · intro t g ht hg hgtoken hnone
    refine Or.inl ⟨g, hkept g hg ?_, hgtoken, hnone⟩
    rintro rfl
    exact hother t ht (hgtoken.symm.trans htoken)
  · rintro token ret ⟨g, hg, hgtoken, hgresult⟩
    refine Or.inr ⟨g, hkept g hg ?_, hgtoken, hgresult⟩
    rintro rfl
    rw [htokens.unanswered hmem hg htoken] at hgresult
    cases hgresult
  · intro token ret hfinished hnot
    rw [hhistory] at hfinished
    rcases List.mem_cons.mp hfinished with heq | hold
    · cases heq
      rw [hafter]
      exact ⟨_, List.mem_append_right _ List.mem_cons_self, htoken, rfl⟩
    · exact absurd hold hnot

theorem ReadsKept.truncated {key : EndpointKey} {e e' : Engine S} {task : Task}
    {result : TransferResult} (hok : ReadsKept key e.toCore)
    (htokens : e.toCore.TokensOk) (hmem : task ∈ e.tasks)
    (htasks : forall t, t ∈ e'.tasks -> t.key = key -> t ∈ e.tasks)
    (hother : forall t, t ∈ e'.tasks -> t.token ≠ task.token)
    {front back : List InFlight} {f : InFlight}
    (hbefore : flightsOf e.toCore key = front ++ f :: back)
    (htoken : f.token = task.token) (hunlinked : isUnlinked result = true)
    (horder : forall g, g ∈ back -> g.hasData = false)
    (hafter : flightsOf e'.toCore key = front)
    (hhistory : historyOf e'.toCore key = Event.discarded key back Cause.unlinked ::
      Event.finished key task.token result :: historyOf e.toCore key) :
    ReadsKept key e'.toCore := by
  have hparts : forall g, g ∈ flightsOf e.toCore key -> g ∈ front ∨ g = f ∨ g ∈ back := by
    intro g hg
    rw [hbefore] at hg
    simpa using hg
  refine hok.update ?_ ?_ htasks ?_ ?_ ?_
  · exact ⟨[_, _], hhistory.symm⟩
  · rw [hafter]
    intro g hg
    apply hok.reads g
    rw [hbefore]
    exact List.mem_append_left _ hg
  · intro t g ht hg hgtoken hnone
    rw [hafter, hhistory]
    rcases hparts g hg with hfront | rfl | hback
    · exact Or.inl ⟨g, hfront, hgtoken, hnone⟩
    · exact absurd (hgtoken.symm.trans htoken) (hother t ht)
    · right
      rw [← hgtoken]
      exact overtaken_here hback _
  · rintro token ret ⟨g, hg, hgtoken, hgresult⟩
    rcases hparts g hg with hfront | rfl | hback
    · right
      rw [hafter]
      exact ⟨g, hfront, hgtoken, hgresult⟩
    · rw [htokens.unanswered hmem hg htoken] at hgresult
      cases hgresult
    · have hnodata := horder g hback
      rw [InFlight.hasData, hgresult] at hnodata
      cases hnodata
  · intro token ret hfinished hnot
    rw [hhistory] at hfinished
    rcases List.mem_cons.mp hfinished with heq | hfinished
    · cases heq
    · rcases List.mem_cons.mp hfinished with heq | hold
      · cases heq
        cases hunlinked
      · exact absurd hold hnot

/-!
# Runs
-/

theorem Change.readsKept {key : EndpointKey} {e e' : Engine S} {op : Op S}
    (hop : Undisturbed key e op) (hlinks : LinksClear key e op)
    (horder : ReadsInOrder key e op) (h : Change e e' op)
    (hmoved : Unmoved key e) (hok : ReadsKept key e.toCore) : ReadsKept key e'.toCore := by
  have htasks : forall t, t ∈ e'.tasks -> t.key = key -> t ∈ e.tasks :=
    fun t ht _ => (h.tasks t ht).left
  have hother : forall task, task ∈ e.tasks -> op = Op.deliver task.reply ->
      forall t, t ∈ e'.tasks -> t.token ≠ task.token := by
    intro task hmem hdeliver t ht htoken
    rcases h.tasks t ht with ⟨hold, hne⟩
    rw [hmoved.tokens.task_reply hold hmem htoken] at hne
    exact hne hdeliver
  cases h.seen key with
  | same hview => exact hok.sameView hview htasks
  | added hlookup hhistory =>
      have hbefore : flightsOf e.toCore key = [] := by
        simp [flightsOf, hop rfl]
      have hafter := flightsOf_of_lookup hlookup
      refine hok.update ?_ ?_ htasks ?_ ?_ ?_
      · exact ⟨[_, _], hhistory.symm⟩
      · simp [hafter]
      · simp [hbefore]
      · simp [Held, hbefore]
      · intro token ret hfinished hnot
        rw [hhistory] at hfinished
        simp only [List.mem_cons, reduceCtorEq, false_or] at hfinished
        exact absurd hfinished hnot
  | updated hep hlookup hhistory =>
      have hsame := (flightsOf_of_lookup hlookup).trans (flightsOf_of_lookup hep).symm
      refine hok.flights hhistory htasks ?_ ?_
      · rw [hsame]
        exact hok.reads
      · rw [hsame]
        exact fun f hf => ⟨f, hf, rfl, rfl⟩
  | removed hremoves _ _ _ => exact absurd hremoves hop.not_removes
  | reset _ _ _ => exact absurd rfl hop
  | paused _ hep hlookup hhistory =>
      have hbefore := flightsOf_of_lookup hep
      have hafter := flightsOf_of_lookup hlookup
      have hmark : forall f : InFlight, exists g : InFlight,
          (if f.pausable then { f with unlinking := true } else f) = g ∧
            g.token = f.token ∧ g.result = f.result ∧ g.direction = f.direction ∧
            g.stage = f.stage := by
        intro f
        split <;> exact ⟨_, rfl, rfl, rfl, rfl, rfl⟩
      refine hok.flights hhistory htasks ?_ ?_
      · rw [hafter]
        intro g hg
        rcases List.mem_map.mp hg with ⟨f, hf, rfl⟩
        rcases hmark f with ⟨g, rfl, _, _, hdirection, hstage⟩
        rw [← hbefore] at hf
        have hread := hok.reads f hf
        exact ⟨hdirection.trans hread.direction, by rw [hstage]; exact hread.stage⟩
      · rw [hbefore, hafter]
        intro f hf
        rcases hmark f with ⟨g, hg, htoken, hresult, _⟩
        exact ⟨g, List.mem_map.mpr ⟨f, hf, hg⟩, htoken, hresult⟩
  | synced hep hflight hmoved' _ _ =>
      exact absurd (hmoved.in_sync (hlinks rfl) hep hflight) hmoved'
  | @dropped task result harrived hkey hgone hlookup hhistory =>
      have hmem := (arrived_eq_some harrived).left
      exact hok.dropped hmem hkey (horder (task, result) harrived hkey).right htasks hgone
        hlookup hhistory
  | recorded harrived _ hep hsplit htoken _ hlookup hhistory =>
      have hmem := (arrived_eq_some harrived).left
      exact hok.recorded hmoved.tokens hmem htasks (hother _ hmem rfl)
        ((flightsOf_of_lookup hep).trans hsplit) htoken (flightsOf_of_lookup hlookup) hhistory
  | @truncated task result ep front back f harrived hkey hep hsplit htoken hpaused hunlinked
      hlookup hhistory =>
      have hmem := (arrived_eq_some harrived).left
      have hbefore := (flightsOf_of_lookup hep).trans hsplit
      have hsorted := hmoved.tokens.flight_sorted key
      rw [hbefore] at hsorted
      have hbehind : behindPaused task.token (flightsOf e.toCore key) = back := by
        rw [hbefore, ← htoken, behindPaused, splitAtToken_of_sorted hsorted]
        exact if_pos hpaused
      have hnodata := (horder (task, result) harrived hkey).left hunlinked
      rw [hbehind] at hnodata
      exact hok.truncated hmoved.tokens hmem htasks (hother _ hmem rfl) hbefore htoken
        hunlinked hnodata (flightsOf_of_lookup hlookup) hhistory
  | host hep hlookup hhistory =>
      have hsame := (flightsOf_of_lookup hlookup).trans (flightsOf_of_lookup hep).symm
      refine hok.flights hhistory htasks ?_ ?_
      · rw [hsame]
        exact hok.reads
      · rw [hsame]
        exact fun f hf => ⟨f, hf, rfl, rfl⟩

theorem start_readsKept (key : EndpointKey) (device : Client.ExportedDevice)
    (schedule : List (List Client.Step)) :
    ReadsKept key (start device schedule : Engine S).toCore where
  reads := by simp [start, flightsOf]
  waiting := by simp [start]
  answered := by simp [start, historyOf]

/--
In a run of fewer than `2^64` submissions in which no read is answered with data
that was behind a paused one when the unlink of that was confirmed, and in which
the pump does not come to a link while URBs are in flight, every answer with data
is written to its message, or still held.
-/
theorem answered_read_written_or_held (rounds : Nat) (device : Client.ExportedDevice)
    (schedule : List (List Client.Step)) (ops : List (Op S)) (key : EndpointKey)
    (hin : Direction.ofEndpoint key.2 = Direction.in) (hdata : isControl key = false)
    (hrun : Guarded (step rounds)
      (fun e op => Undisturbed key e op ∧ LinksClear key e op ∧ ReadsInOrder key e op)
      (start device schedule) ops)
    (haccepting : Accepting key (run rounds (start device schedule) ops).toCore) :
    let e := run rounds (start device schedule : Engine S) ops
    forall token ret, Event.finished key token (.ok ret) ∈ e.log ->
      Written (historyOf e.toCore key) token ret ∨
        Held (flightsOf e.toCore key) token ret := by
  intro e token ret hfinished
  have hok : Unmoved key e ∧ ReadsKept key e.toCore := by
    refine pumping_run_invariant
      (I := fun e => Unmoved key e ∧ ReadsKept key e.toCore)
      (J := fun e => Unmoving key e ∧ ReadsKept key e.toCore)
      ?_ ?_ ?_ ?_ ?_ (fun _ hok => ⟨hok.left.unmoved, hok.right⟩) hrun
      ⟨start_unmoved key device schedule, start_readsKept key device schedule⟩ haccepting
    · rintro e e' op ⟨hop, hlinks, horder⟩ h ⟨hmoved, hkept⟩
      exact ⟨h.unmoved hop.hostAppends hlinks.sync hmoved,
        h.readsKept hop hlinks horder hmoved hkept⟩
    · rintro e ⟨_, hclear, _⟩ ⟨hmoved, hkept⟩
      exact ⟨hmoved.doorbell (hclear rfl), hkept⟩
    · rintro e e' task result ⟨hop, hclear, horder⟩ harrived hkey hreplied ⟨hmoved, hkept⟩
      subst hkey
      have hclear' := hclear (task, result) harrived rfl
      exact ⟨hmoved.callback harrived hreplied hclear',
        (Change.replied harrived hreplied).readsKept hop hclear horder hmoved hkept⟩
    · rintro e e' h hacc ⟨hmoving, hkept⟩
      exact ⟨h.unmoving hacc hmoving, h.readsKept hin hdata hacc hmoving hkept⟩
    · rintro k e e' hk h _ ⟨hmoved, hkept⟩
      constructor
      · exact hmoved.sameView (h.tokensOk hmoved.tokens) (h.other hk)
      · apply hkept.sameView (h.other hk)
        intro t ht hkey
        rcases h.tasks t ht with hold | hnew
        · exact hold
        · exact absurd (hnew.symm.trans hkey) hk
  exact hok.right.answered token ret (mem_historyOf.mpr ⟨hfinished, rfl⟩)

end Runs

theorem answered_read_written_or_held_resumed :
    let key : EndpointKey := (1, 0x81)
    let ring : QueueRing :=
      { active := true
        slots := [⟨10, .normal 2, [0, 0], rfl⟩, ⟨11, .normal 2, [0, 0], rfl⟩]
        next := 12 }
    let ops :=
      [Op.addEndpoint key { kind := .bulk, maxPacketSize := 512, bInterval := 0 } ring,
        Op.doorbell key, Op.host key { ring with active := false },
        Op.pauseEndpoint key] ++
        answered 1 2 [5, 6] ++ [Op.deliver 0] ++ confirmed 4 ++
        [Op.deliver 1, Op.host key ring, Op.doorbell key]
    let e := run 8 (start sampleDevice []) ops
    (historyOf e.toCore key).reverse.filterMap Event.message? = [10, 11, 11] ∧
      forall token ret, Event.finished key token (.ok ret) ∈ e.log ->
        Written (historyOf e.toCore key) token ret ∨
          Held (flightsOf e.toCore key) token ret := by
  intro key ring ops e
  constructor
  · decide +kernel
  · refine answered_read_written_or_held 8 sampleDevice [] ops key (by decide) (by decide) ?_
      (by decide +kernel)
    have hquiet : True ∧ True ∧ True := ⟨trivial, trivial, trivial⟩
    refine ⟨⟨fun _ => rfl, trivial, trivial⟩, ⟨trivial, fun _ => by decide +kernel, trivial⟩,
      ⟨fun _ => by decide +kernel, trivial, trivial⟩, hquiet, hquiet, hquiet, hquiet,
      ⟨trivial, ?_, ?_⟩, hquiet, hquiet, ⟨trivial, ?_, ?_⟩,
      ⟨fun _ => by decide +kernel, trivial, trivial⟩,
      ⟨trivial, fun _ => by decide +kernel, trivial⟩, trivial⟩
    · unfold LinksClear
      decide +kernel
    · unfold ReadsInOrder
      decide +kernel
    · unfold LinksClear
      decide +kernel
    · unfold ReadsInOrder
      decide +kernel

def Event.answer? (token : Nat) : Event R -> Option RetSubmit
  | Event.finished _ t (.ok ret) => if t = token then some ret else none
  | _ => none

def Event.isCompleted : Event R -> Bool
  | Event.completed _ => true
  | _ => false

/--
Two reads are paused. The second is answered before its unlink gets there and
holds its data, and then the unlink of the first is confirmed: the data of the
second is neither written nor held any more.
-/
theorem answered_read_lost :
    let key : EndpointKey := (1, 0x81)
    let ring : QueueRing :=
      { active := true
        slots := [⟨10, .normal 2, [0, 0], rfl⟩, ⟨11, .normal 2, [0, 0], rfl⟩]
        next := 12 }
    let ops :=
      [Op.addEndpoint key { kind := .bulk, maxPacketSize := 512, bInterval := 0 } ring,
        Op.doorbell key, Op.host key { ring with active := false },
        Op.pauseEndpoint key] ++
        answered 2 2 [7, 8] ++ [Op.deliver 1] ++ confirmed 3 ++
        [Op.deliver 0, Op.host key ring, Op.doorbell key]
    let e := run 8 (start sampleDevice []) ops
    Guarded (step 8) (Undisturbed key) (start sampleDevice []) ops ∧
      Accepting key e.toCore ∧ e.stuck = false ∧
      exists ret, Event.finished key 1 (.ok ret) ∈ e.log ∧
        ¬ (Written (historyOf e.toCore key) 1 ret ∨ Held (flightsOf e.toCore key) 1 ret) := by
  intro key ring ops e
  refine ⟨?_, by decide +kernel, by decide +kernel, ?_⟩
  · exact ⟨fun _ => rfl, trivial, fun _ => by decide +kernel, trivial, trivial, trivial,
      trivial, trivial, trivial, trivial, trivial, fun _ => by decide +kernel, trivial, trivial⟩
  · have hfinished : ((historyOf e.toCore key).findSome? (Event.answer? 1)).isSome = true := by
      decide +kernel
    have hnever : (historyOf e.toCore key).any Event.isCompleted = false := by
      decide +kernel
    have hgone : (flightsOf e.toCore key).any (fun f => f.token = 1) = false := by
      decide +kernel
    rcases Option.isSome_iff_exists.mp hfinished with ⟨ret, hret⟩
    rcases List.exists_of_findSome?_eq_some hret with ⟨ev, hev, hfound⟩
    rcases mem_historyOf.mp hev with ⟨hlog, hkey⟩
    refine ⟨ret, ?_, ?_⟩
    · cases ev with
      | finished k t result =>
          change k = key at hkey
          cases result with
          | ok answer =>
              simp only [Event.answer?, Option.ite_none_right_eq_some,
                Option.some.injEq] at hfound
              rw [hkey, hfound.left, hfound.right] at hlog
              exact hlog
          | error _ => cases hfound
      | _ => cases hfound
    · rintro (⟨c, _, hc, _⟩ | ⟨f, hf, htoken, _⟩)
      · exact List.any_eq_false.mp hnever _ hc rfl
      · exact List.any_eq_false.mp hgone f hf (by simp [htoken])

end Engine
end UsbIp
