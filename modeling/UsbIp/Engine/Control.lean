import UsbIp.Engine.Views

/-!
# Control transfers

A control transfer is a Setup message, possibly a message for its data stage, and
a Status message, but it is one URB: repeating it would make the device act
twice.  The engine remembers the bytes of the last Setup message and whether they
have been used.  The invariant here says that a Setup that counts as unused was
completed after every other message of a control transfer and after every URB of
the endpoint, unless the session is closed and takes no URBs any more.
-/

namespace UsbIp
namespace Engine

open Foundation
open Protocol
open Hci
open Client (SubmitRequest TransferResult Session)

variable {R : Type}

/-!
# Stages
-/

theorem applyStage_setup {ep ep' : Endpoint R} {stage : Stage} {data data' : Bytes}
    {length length' : UInt32} {hidden : Bool}
    (h : applyStage ep stage data length = (ep', data', length', hidden))
    (hstage : stage = Stage.controlData ∨ stage = Stage.controlStatus)
    (bytes : Vector UInt8 8) : ep'.setup ≠ some { bytes := bytes, dataDone := false } := by
  have hfst : ep' = (applyStage ep stage data length).1 := by rw [h]
  have hdone : forall s : Option Setup,
      s.map (fun t => { t with dataDone := true }) ≠
        some { bytes := bytes, dataDone := false } := by
    intro s
    cases s <;> simp
  rw [hfst]
  rcases hstage with rfl | rfl
  · simp only [applyStage]
    split
    · simp only [hideConfig]
      split
      · exact hdone ep.setup
      · split
        · split <;> exact hdone ep.setup
        · exact hdone ep.setup
    · exact hdone ep.setup
  · simp [applyStage]

variable [Ring R]

def Completion.transfer (c : Completion R) : Option Transfer :=
  (Ring.current c.ring).2

def Event.SetupDone (bytes : Vector UInt8 8) : Event R -> Prop
  | Event.completed c => c.transfer = some (Transfer.setup bytes) ∧ c.accepted = true
  | _ => False

/-- A URB is submitted, or a message of a control transfer is completed. -/
def Event.Stages : Event R -> Prop
  | Event.submitted _ => True
  | Event.completed c =>
      (exists bytes, c.transfer = some (Transfer.setup bytes)) ∨
        (exists length, c.transfer = some (Transfer.normal length)) ∨
        c.transfer = some Transfer.status
  | _ => False

/--
A control URB carries the Setup that was completed last, of which nothing has
been used so far, and the length that fits its stage.
-/
structure Submission.Proper (s : Submission R) (bytes : Vector UInt8 8)
    (older : List (Event R)) : Prop where
  unused : Since (Event.SetupDone bytes) Event.Stages older
  setup : s.cmd.setup = bytes
  direction : s.cmd.direction = (setupDirection bytes).toU32
  length : (exists length, (Ring.current s.ring).2 = some (Transfer.normal length) ∧
      s.cmd.transferBufferLength = min length (wLength bytes).toUInt32) ∨
    ((Ring.current s.ring).2 = some Transfer.status ∧ s.cmd.transferBufferLength = 0)

def Event.ProperUrb (ev : Event R) (older : List (Event R)) : Prop :=
  forall s, ev = Event.submitted s -> exists bytes, s.Proper bytes older

/-!
# The invariant
-/

/-- A control endpoint, its history, and whether the session is closed. -/
inductive ControlOk (closed : Bool) (history : List (Event R)) (ep : Endpoint R) :
    Prop where
  | idle (hempty : ep.inFlight = [])
      (hopen : forall bytes, ep.setup = some { bytes := bytes, dataDone := false } ->
        closed = true ∨ Since (Event.SetupDone bytes) Event.Stages history)
  | waiting {f : InFlight} (hflight : ep.inFlight = [f]) (hunlinking : f.unlinking = false)
      (hstage : f.stage = Stage.controlData ∨ f.stage = Stage.controlStatus)
      (hhead : f.message = (Ring.current ep.ring).1)

structure OneUrb (key : EndpointKey) (e : Engine R) : Prop where
  kind : forall ep, e.endpoints.lookup key = some ep ->
    ep.info.kind = EndpointKind.control
  endpoint : forall ep, e.endpoints.lookup key = some ep ->
    ControlOk e.session.shared.state.closed.isSome (historyOf e.toCore key) ep
  urbs : Justified Event.ProperUrb (historyOf e.toCore key)

theorem properUrb_cons {ev : Event R} {older : List (Event R)} (hev : ev.command? = none)
    (h : Justified Event.ProperUrb older) : Justified Event.ProperUrb (ev :: older) := by
  constructor
  · intro s hs
    subst hs
    cases hev
  · exact h

theorem ControlOk.single {closed : Bool} {history : List (Event R)} {ep : Endpoint R}
    (h : ControlOk closed history ep) {front back : List InFlight} {f : InFlight}
    (hsplit : ep.inFlight = front ++ f :: back) :
    front = [] ∧ back = [] ∧ f.unlinking = false ∧
      (f.stage = Stage.controlData ∨ f.stage = Stage.controlStatus) ∧
      f.message = (Ring.current ep.ring).1 := by
  cases h with
  | idle hempty _ =>
      rw [hempty] at hsplit
      simp at hsplit
  | waiting hflight hunlinking hstage hhead =>
      rw [hflight] at hsplit
      rcases List.append_eq_singleton_iff.mp hsplit.symm with ⟨hfront, hcons⟩ | ⟨_, hcons⟩
      · cases hcons
        exact ⟨hfront, rfl, hunlinking, hstage, hhead⟩
      · cases hcons

theorem ControlOk.later {closed : Bool} {history : List (Event R)} {ep : Endpoint R}
    (h : ControlOk closed history ep) {ev : Event R} (hev : ¬ ev.Stages) :
    ControlOk closed (ev :: history) ep := by
  cases h with
  | idle hempty hopen =>
      apply ControlOk.idle hempty
      intro bytes hsetup
      rcases hopen bytes hsetup with hclosed | hsince
      · exact Or.inl hclosed
      · exact Or.inr (hsince.later hev)
  | waiting hflight hunlinking hstage hhead =>
      exact ControlOk.waiting hflight hunlinking hstage hhead

theorem ControlOk.session {s s' : Session} {history : List (Event R)} {ep : Endpoint R}
    (h : ControlOk s.shared.state.closed.isSome history ep) (hs : s.Reaches s') :
    ControlOk s'.shared.state.closed.isSome history ep := by
  cases h with
  | idle hempty hopen =>
      apply ControlOk.idle hempty
      intro bytes hsetup
      rcases hopen bytes hsetup with hclosed | hsince
      · exact Or.inl (hs.tracks.closed_kept hclosed)
      · exact Or.inr hsince
  | waiting hflight hunlinking hstage hhead =>
      exact ControlOk.waiting hflight hunlinking hstage hhead

theorem ControlOk.used {closed : Bool} {history : List (Event R)} {ep : Endpoint R}
    (hempty : ep.inFlight = [])
    (hsetup : forall bytes, ep.setup ≠ some { bytes := bytes, dataDone := false }) :
    ControlOk closed history ep :=
  ControlOk.idle hempty fun bytes h => absurd h (hsetup bytes)

theorem ControlOk.info {closed : Bool} {history : List (Event R)} {ep : Endpoint R}
    (h : ControlOk closed history ep) (info : EndpointInfo) :
    ControlOk closed history { ep with info := info } := by
  cases h with
  | idle hempty hopen => exact ControlOk.idle hempty hopen
  | waiting hflight hunlinking hstage hhead =>
      exact ControlOk.waiting hflight hunlinking hstage hhead

theorem OneUrb.sameView {key : EndpointKey} {e e' : Engine R} (h : OneUrb key e)
    (hview : SameView key e.toCore e'.toCore) (hs : e.session.Reaches e'.session) :
    OneUrb key e' := by
  constructor
  · intro ep hep
    rw [hview.lookup] at hep
    exact h.kind ep hep
  · intro ep hep
    rw [hview.lookup] at hep
    rw [hview.history]
    exact (h.endpoint ep hep).session hs
  · rw [hview.history]
    exact h.urbs

theorem OneUrb.update {key : EndpointKey} {e' : Engine R} {ep : Endpoint R}
    (hlookup : e'.endpoints.lookup key = some ep)
    (hkind : ep.info.kind = EndpointKind.control)
    (hep : ControlOk e'.session.shared.state.closed.isSome (historyOf e'.toCore key) ep)
    (hurbs : Justified Event.ProperUrb (historyOf e'.toCore key)) : OneUrb key e' := by
  have honly : forall ep', e'.endpoints.lookup key = some ep' -> ep' = ep := by
    intro ep' hep'
    rw [hlookup] at hep'
    exact (Option.some.inj hep').symm
  constructor
  · intro ep' hep'
    rw [honly ep' hep']
    exact hkind
  · intro ep' hep'
    rw [honly ep' hep']
    exact hep
  · exact hurbs

/-!
# Actions of the pump
-/

/-- The buffer of the head message can be read in full. -/
def ReadsHead (R : Type) [Ring R] : Prop :=
  forall (r : R) message transfer n, Ring.current r = (message, some transfer) ->
    n ≤ transfer.length.toNat -> (Ring.read r 0 n).length = n

theorem controlRequest_eq (ep : Endpoint R) (bytes : Vector UInt8 8) (length : UInt32) :
    controlRequest ep bytes length =
      { SubmitRequest.new 0 (setupDirection bytes) length with
        setup := bytes
        data := if setupDirection bytes = Direction.out then
            Ring.read ep.ring 0 length.toNat
          else
            [] } := by
  unfold controlRequest
  show (if setupDirection bytes = Direction.out then _ else _) = _
  split <;> rfl

theorem controlRequest_accepted (hread : ReadsHead R) {ep : Endpoint R} {message : UInt64}
    {transfer : Transfer} (hcurrent : Ring.current ep.ring = (message, some transfer))
    (bytes : Vector UInt8 8) {length : UInt32} (hlength : length ≤ transfer.length) :
    (controlRequest ep bytes length).Accepted := by
  have hfull : (Ring.read ep.ring 0 length.toNat).length = length.toNat :=
    hread ep.ring message transfer length.toNat hcurrent (UInt32.le_iff_toNat_le.mp hlength)
  rw [controlRequest_eq]
  constructor
  · intro hout
    change setupDirection bytes = Direction.out at hout
    dsimp only
    rw [if_pos hout]
    exact hfull
  · intro hin
    change setupDirection bytes = Direction.in at hin
    dsimp only
    rw [if_neg (by rw [hin]; decide)]

theorem Asks.accepted (hread : ReadsHead R) {speed : Speed} {key : EndpointKey}
    (hcontrol : isControl key = true) {ep : Endpoint R} {message : UInt64}
    {transfer : Transfer} (hcurrent : Ring.current ep.ring = (message, some transfer))
    {req : SubmitRequest} {stage : Stage} (h : Asks speed key ep transfer req stage) :
    req.Accepted := by
  cases h with
  | controlData _ _ =>
      apply controlRequest_accepted hread hcurrent _
      rename_i length bytes _ _
      show (if length ≤ (wLength bytes).toUInt32 then length else _) ≤ length
      split
      · exact UInt32.le_refl length
      · rename_i hlt
        exact UInt32.le_of_lt (UInt32.not_le.mp hlt)
  | controlStatus _ _ => exact controlRequest_accepted hread hcurrent _ UInt32.zero_le
  | transfer hdata _ =>
      rw [hcontrol] at hdata
      cases hdata

theorem Asks.proper {speed : Speed} {key : EndpointKey}
    (hcontrol : isControl key = true) {ep : Endpoint R} {transfer : Transfer}
    {req : SubmitRequest} {stage : Stage} (h : Asks speed key ep transfer req stage) :
    (stage = Stage.controlData ∨ stage = Stage.controlStatus) ∧
      exists bytes, ep.setup = some { bytes := bytes, dataDone := false } ∧
        forall (s : Submission R) (older : List (Event R)) (message : UInt64)
          (seqnum devid : UInt32),
          Since (Event.SetupDone bytes) Event.Stages older ->
          Ring.current s.ring = (message, some transfer) ->
          s.cmd = req.command seqnum devid -> s.Proper bytes older := by
  cases h with
  | @controlData length bytes _ hsetup =>
      refine ⟨Or.inl rfl, bytes, hsetup, ?_⟩
      intro s older message seqnum devid hsince hring hcmd
      rw [controlRequest_eq] at hcmd
      refine ⟨hsince, ?_, ?_, Or.inl ⟨length, ?_, ?_⟩⟩
      · rw [hcmd]
        rfl
      · rw [hcmd]
        rfl
      · rw [hring]
      · rw [hcmd]
        rfl
  | @controlStatus bytes _ hsetup =>
      refine ⟨Or.inr rfl, bytes, hsetup, ?_⟩
      intro s older message seqnum devid hsince hring hcmd
      rw [controlRequest_eq] at hcmd
      refine ⟨hsince, ?_, ?_, Or.inr ⟨?_, ?_⟩⟩
      · rw [hcmd]
        rfl
      · rw [hcmd]
        rfl
      · rw [hring]
      · rw [hcmd]
        rfl
  | transfer hdata _ =>
      rw [hcontrol] at hdata
      cases hdata

theorem Settles.unused {key : EndpointKey} (hcontrol : isControl key = true)
    {ep ep' : Endpoint R} {transfer : Transfer} {status : Status}
    (h : Settles key ep transfer ep' status) {closed : Bool} {history : List (Event R)}
    (hopen : forall bytes, ep.setup = some { bytes := bytes, dataDone := false } ->
      closed = true ∨ Since (Event.SetupDone bytes) Event.Stages history)
    {c : Completion R} (hc : c.transfer = some transfer) (haccepted : c.accepted = true)
    (bytes : Vector UInt8 8)
    (hsetup : ep'.setup = some { bytes := bytes, dataDone := false }) :
    closed = true ∨
      Since (Event.SetupDone bytes) Event.Stages (Event.completed c :: history) := by
  have haside : (forall b, transfer ≠ Transfer.setup b) ->
      (forall length, transfer ≠ Transfer.normal length) -> transfer ≠ Transfer.status ->
      ep'.setup = ep.setup -> closed = true ∨
        Since (Event.SetupDone bytes) Event.Stages (Event.completed c :: history) := by
    intro hnosetup hnonormal hnostatus hsame
    rw [hsame] at hsetup
    rcases hopen bytes hsetup with hclosed | hsince
    · exact Or.inl hclosed
    · refine Or.inr (hsince.later ?_)
      rintro (⟨b, hb⟩ | ⟨length, hlength⟩ | hstatus)
      · rw [hc] at hb
        exact hnosetup b (Option.some.inj hb)
      · rw [hc] at hlength
        exact hnonormal length (Option.some.inj hlength)
      · rw [hc] at hstatus
        exact hnostatus (Option.some.inj hstatus)
  cases h with
  | @setup b _ =>
      have hb : b = bytes := by
        simpa using hsetup
      rw [hb] at hc
      exact Or.inr (Since.here ⟨hc, haccepted⟩)
  | normal _ hnone => exact absurd hsetup (hnone bytes)
  | status _ _ => cases hsetup
  | link => exact haside (by simp) (by simp) (by simp) rfl
  | unexpected hnosetup hnostatus hnonormal _ _ =>
      refine haside ?_ hnonormal ?_ rfl
      · intro b hb
        have hfalse := hnosetup b hb
        rw [hcontrol] at hfalse
        cases hfalse
      · intro hstatus
        have hfalse := hnostatus hstatus
        rw [hcontrol] at hfalse
        cases hfalse

theorem OneUrb.completed {key : EndpointKey} {e e' : Engine R} (hok : OneUrb key e)
    {ep : Endpoint R} {origin : Option InFlight} {status : Status} {data : Bytes}
    {length : UInt32}
    (h : Moves e e' (e.toCore.complete key ep origin status data length) [])
    (hkind : ep.info.kind = EndpointKind.control)
    (hep : ControlOk e'.session.shared.state.closed.isSome (historyOf e'.toCore key)
      { ep with ring := (Ring.complete ep.ring status data length).1 }) :
    OneUrb key e' := by
  apply OneUrb.update (h.lookup (complete_lookup _ _ _ _ _ _ _)) hkind hep
  rw [h.core, complete_history]
  exact properUrb_cons rfl hok.urbs

theorem Action.oneUrb (hread : ReadsHead R) {key k : EndpointKey}
    (hcontrol : isControl key = true) {e e' : Engine R} (h : Action k e e')
    (haccepting : Accepting key e'.toCore) (hok : OneUrb key e) : OneUrb key e' := by
  by_cases hk : k = key
  · subst hk
    cases h with
    | idle h =>
        refine hok.sameView ?_ h.session
        rw [h.core]
        exact SameView.refl k _
    | stale hep _ hflight hmoved h =>
        cases hok.endpoint _ hep with
        | idle hempty _ =>
            rw [hempty] at hflight
            cases hflight
        | waiting hone _ _ hhead =>
            rw [hone] at hflight
            cases hflight
            exact absurd hhead hmoved
    | applied hep _ hflight _ _ hstage h =>
        have hkind := hok.kind _ hep
        rcases applyStage_frame hstage with ⟨_, hrest, hinfo⟩
        cases hok.endpoint _ hep with
        | idle hempty _ =>
            rw [hempty] at hflight
            cases hflight
        | waiting hone _ hcontrolStage _ =>
            rw [hone] at hflight
            cases hflight
            refine hok.completed h ?_ ?_
            · rw [hinfo]
              exact hkind
            · have hused := applyStage_setup hstage hcontrolStage
              exact ControlOk.used hrest hused
    | settled hep _ hempty hcurrent hsettles h =>
        have hkind := hok.kind _ hep
        rcases hsettles.frame with ⟨hring, hflights, hinfo⟩
        cases hok.endpoint _ hep with
        | waiting hone _ _ _ =>
            rw [hempty] at hone
            cases hone
        | idle _ hopen =>
            refine hok.completed h ?_ ?_
            · rw [hinfo]
              exact hkind
            · refine ControlOk.idle (hflights.trans hempty) ?_
              intro bytes hsetup
              rw [h.core] at haccepting
              rw [h.core, complete_history]
              refine hsettles.unused hcontrol ?_ ?_ haccepting.completed bytes hsetup
              · intro b hb
                rcases hopen b hb with hclosed | hsince
                · exact Or.inl (h.session.tracks.closed_kept hclosed)
                · exact Or.inr hsince
              · rw [Completion.transfer, hring]
                exact hcurrent
    | @submitted ep message req stage s seqnum reply shared hep htarget hs hsubmit hsession h =>
        have hkind := hok.kind _ hep
        cases htarget with
        | ahead hsome hdepth _ _ _ =>
            rw [hkind] at hdepth
            exact absurd (List.length_eq_zero_iff.mp (Nat.lt_one_iff.mp hdepth)) hsome
        | head hempty hactive hcurrent hasks =>
            rcases hasks.proper hcontrol with ⟨hstage, bytes, hsetup, hproper⟩
            cases hok.endpoint _ hep with
            | waiting hone _ _ _ =>
                rw [hempty] at hone
                cases hone
            | idle _ hopen =>
                have hsince : Since (Event.SetupDone bytes) Event.Stages
                    (historyOf e.toCore k) := by
                  rcases hopen bytes hsetup with hclosed | hsince
                  · rw [hs.open (Client.Shared.submit_ok_open hsubmit)] at hclosed
                    cases hclosed
                  · exact hsince
                refine OneUrb.update (h.lookup (push_lookup _ _ _ _ _ _)) ?_ ?_ ?_
                · exact hkind
                · refine ControlOk.waiting (f := newFlight e.nextToken message req stage seqnum)
                    ?_ rfl hstage ?_
                  · dsimp only
                    rw [hempty]
                    rfl
                  · dsimp only
                    rw [hcurrent]
                    rfl
                · rw [h.core, push_history]
                  constructor
                  · intro sub hsub
                    cases hsub
                    exact ⟨bytes, hproper _ _ message seqnum s.shared.devid hsince hcurrent rfl⟩
                  · exact hok.urbs
    | refused hep _ hempty hcurrent hasks hsubmit h =>
        have hkind := hok.kind _ hep
        have haccepted := hasks.accepted hread hcontrol hcurrent
        have hclosed := Client.Shared.submit_error_closed hsubmit haccepted
        exact hok.completed h hkind (ControlOk.idle hempty fun _ _ => Or.inl hclosed)
  · exact hok.sameView (h.other hk) h.reaches

/-!
# Changes
-/

/--
What may happen to a control endpoint: it is one, and the host does not move the
ring while a URB is in flight.
-/
def ControlRun (key : EndpointKey) (e : Engine R) : Op R -> Prop
  | Op.addEndpoint k info _ => k = key -> info.kind = EndpointKind.control
  | Op.updateEndpoint k info => k = key -> info.kind = EndpointKind.control
  | Op.host k ring => k = key -> forall ep, e.endpoints.lookup key = some ep ->
      ep.inFlight ≠ [] -> (Ring.current ring).1 = (Ring.current ep.ring).1
  | _ => True

theorem Change.oneUrb {key : EndpointKey} (hcontrol : isControl key = true)
    {e e' : Engine R} {op : Op R} (hop : ControlRun key e op) (h : Change e e' op)
    (hok : OneUrb key e) : OneUrb key e' := by
  have hs := h.reaches
  cases h.seen key with
  | same hview => exact hok.sameView hview hs
  | added hlookup hhistory =>
      apply OneUrb.update hlookup (hop rfl) (ControlOk.used rfl (by simp))
      rw [hhistory]
      exact properUrb_cons rfl (properUrb_cons rfl hok.urbs)
  | updated hep hlookup hhistory =>
      refine OneUrb.update hlookup (hop rfl) ?_ ?_
      · rw [hhistory]
        exact ((hok.endpoint _ hep).session hs).info _
      · rw [hhistory]
        exact hok.urbs
  | removed _ hep hlookup hhistory =>
      constructor
      · intro ep hep'
        rw [hlookup] at hep'
        cases hep'
      · intro ep hep'
        rw [hlookup] at hep'
        cases hep'
      · rw [hhistory]
        exact properUrb_cons rfl (properUrb_cons rfl hok.urbs)
  | reset hep hlookup hhistory =>
      have hkind := hok.kind _ hep
      apply OneUrb.update hlookup hkind (ControlOk.used rfl (by simp))
      rw [hhistory]
      exact properUrb_cons rfl (properUrb_cons rfl hok.urbs)
  | paused hread _ _ _ =>
      refine absurd (Or.inr ?_) hread
      simpa [isControl] using hcontrol
  | @synced ep front rest hep hflight hmoved _ _ =>
      have hsplit : ep.inFlight = [] ++ front :: rest := hflight
      rcases (hok.endpoint ep hep).single hsplit with ⟨_, _, _, _, hhead⟩
      exact absurd hhead hmoved
  | dropped _ _ _ hlookup hhistory =>
      constructor
      · intro ep hep
        rw [hlookup] at hep
        exact hok.kind ep hep
      · intro ep hep
        rw [hlookup] at hep
        rw [hhistory]
        exact ((hok.endpoint ep hep).session hs).later (fun h => h)
      · rw [hhistory]
        exact properUrb_cons rfl hok.urbs
  | recorded _ _ hep hsplit _ _ hlookup hhistory =>
      have hkind := hok.kind _ hep
      rcases (hok.endpoint _ hep).single hsplit with ⟨rfl, rfl, hunlinking, hstage, hhead⟩
      apply OneUrb.update hlookup hkind (ControlOk.waiting rfl hunlinking hstage hhead)
      rw [hhistory]
      exact properUrb_cons rfl hok.urbs
  | truncated _ _ hep hsplit _ hpaused _ _ _ =>
      rcases (hok.endpoint _ hep).single hsplit with ⟨_, _, hunlinking, _, _⟩
      rw [hunlinking] at hpaused
      cases hpaused
  | host hep hlookup hhistory =>
      have hkind := hok.kind _ hep
      refine OneUrb.update hlookup hkind ?_ ?_
      · rw [hhistory]
        cases (hok.endpoint _ hep).session hs with
        | idle hempty hopen => exact ControlOk.idle hempty hopen
        | waiting hone hunlinking hstage hhead =>
            refine ControlOk.waiting hone hunlinking hstage ?_
            rw [hhead]
            exact (hop rfl _ hep (by simp [hone])).symm
      · rw [hhistory]
        exact hok.urbs

/-!
# One URB for each control transfer
-/

theorem start_oneUrb (key : EndpointKey) (device : Client.ExportedDevice)
    (schedule : List (List Client.Step)) :
    OneUrb key (start device schedule : Engine R) where
  kind := by simp [start]
  endpoint := by simp [start]
  urbs := trivial

/--
Every URB of a control endpoint is the only one since a Setup message was
completed, and is made from the bytes of that message.
-/
theorem control_transfer_submits_once (hread : ReadsHead R) (rounds : Nat)
    (device : Client.ExportedDevice) (schedule : List (List Client.Step))
    (ops : List (Op R)) (key : EndpointKey) (hcontrol : isControl key = true)
    (hrun : Guarded (step rounds) (ControlRun key) (start device schedule) ops)
    (haccepting : Accepting key (run rounds (start device schedule) ops).toCore) :
    let e := run rounds (start device schedule : Engine R) ops
    forall newer older s, historyOf e.toCore key = newer ++ Event.submitted s :: older ->
      Command.submit s.cmd ∈ e.session.shared.issued ∧
      (exists bytes, s.Proper bytes older) ∧
      forall middle t oldest, older = middle ++ Event.submitted t :: oldest ->
        exists bytes ev, ev ∈ middle ∧ Event.SetupDone bytes ev := by
  intro e newer older s hsplit
  have hok : OneUrb key e :=
    accepting_run_invariant (I := OneUrb key)
      (fun _ _ _ hop h hok => h.oneUrb hcontrol hop hok)
      (fun _ _ _ h hacc hok => h.oneUrb hread hcontrol hacc hok) hrun
      (start_oneUrb key device schedule) haccepting
  rcases hok.urbs.at hsplit s rfl with ⟨bytes, hproper⟩
  refine ⟨?_, ⟨bytes, hproper⟩, ?_⟩
  · apply submitted_issued key (run_queued rounds device schedule ops)
    rw [hsplit]
    exact List.mem_append_right _ List.mem_cons_self
  · intro middle t oldest hmiddle
    have hunused := hproper.unused
    rw [hmiddle] at hunused
    rcases hunused.between trivial (fun h => h) with ⟨ev, hev, hdone⟩
    exact ⟨bytes, ev, hev, hdone⟩

theorem QueueRing.readsHead : ReadsHead QueueRing := by
  intro r message transfer n hcurrent hn
  rcases slots_cons_of_current hcurrent with ⟨s, rest, hslots, _, htransfer⟩
  subst htransfer
  cases hlink : s.isLink with
  | false =>
      have hmessage : messageAt (SlotRing.slots r) 0 = some s := by
        rw [hslots]
        exact messageAt_zero hlink
      rw [SlotRing.read_eq hmessage n hn, List.length_take, s.buffer_length]
      exact Nat.min_eq_left hn
  | true =>
      -- A link has no buffer, so nothing was asked for.
      have hzero : n = 0 := by
        cases htransfer : s.transfer with
        | link needsResponse =>
            rw [htransfer] at hn
            exact Nat.le_zero.mp hn
        | _ => simp [Slot.isLink, htransfer, Transfer.isLink] at hlink
      subst hzero
      show (((messageAt r.slots 0).map fun t => t.buffer.take 0).getD []).length = 0
      cases messageAt r.slots 0 <;> rfl

theorem control_transfer_submits_once_read :
    let key : EndpointKey := (1, 0)
    let ring : QueueRing :=
      { active := true
        slots := [⟨10, .setup #v[0x80, 0, 0, 0, 0, 0, 2, 0], [], rfl⟩,
          ⟨11, .normal 4, [0, 0, 0, 0], rfl⟩, ⟨12, .status, [], rfl⟩]
        next := 13 }
    let ops :=
      [Op.addEndpoint key { kind := .control, maxPacketSize := 64, bInterval := 0 } ring,
        Op.doorbell key] ++ answered 1 2 [1, 0] ++ [Op.deliver 0]
    let e := run 8 (start sampleDevice []) ops
    (historyOf e.toCore key).length = 7 ∧
      forall newer older s,
        historyOf e.toCore key = newer ++ Event.submitted s :: older ->
        Command.submit s.cmd ∈ e.session.shared.issued ∧
        (exists bytes, s.Proper bytes older) ∧
        forall middle t oldest, older = middle ++ Event.submitted t :: oldest ->
          exists bytes ev, ev ∈ middle ∧ Event.SetupDone bytes ev := by
  intro key ring ops e
  constructor
  · decide +kernel
  · refine control_transfer_submits_once QueueRing.readsHead 8 sampleDevice [] ops key
      (by decide) ?_ (by decide +kernel)
    exact ⟨fun _ => rfl, trivial, trivial, trivial, trivial, trivial, trivial⟩

end Engine
end UsbIp
