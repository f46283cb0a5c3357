import UsbIp.Link.World
import UsbIp.Link.Delivery

/-!
# From the device to the host

What a message of the host gets is what the device has come to for the very URB
that was built from it: the engine, its session, the two streams and the server
hand it on, and no result gets to another message on the way.
-/

namespace UsbIp
namespace Link

open Foundation
open Protocol
open Hci
open Client (Shared SubmitRequest TransferResult TransferError Session ExportedDevice)
open Server (Urb Urbs Answer Outcome Connection urbOf)
open Engine (EndpointKey InFlight Stage Submission Relaying Op)

variable {R : Type} [Engine.Ring R]

/-!
# The engine of a world
-/

/-- What the engine and steps of its session keep holds in every run. -/
theorem World.engine_invariant {I : Engine R -> Prop}
    (hchange : forall e e' op, Engine.Change e e' op -> I e -> I e')
    (haction : forall key e e', Engine.Action key e e' -> I e -> I e')
    (rounds : Nat) {w : World R} (acts : List (Act R)) (hinit : I w.engine) :
    I (acts.foldl (World.step rounds) w).engine := by
  refine invariant_of_step (I := fun w : World R => I w.engine) ?_ acts hinit
  intro w a hw
  have hjoined : forall st s, (w.link.step st).client = w.engine.session.step s ∨
      (w.link.step st).client = w.engine.session -> I (w.joined st).engine := by
    intro st s hsession
    have hreaches : w.engine.session.Reaches (w.joined st).engine.session := by
      show w.engine.session.Reaches (w.link.step st).client
      rcases hsession with h | h
      · rw [h]
        exact Client.Session.Reaches.step _ _
      · rw [h]
        exact Client.Session.Reaches.refl _
    exact hchange w.engine _ (Op.session s)
      (Engine.Change.session (Engine.Moves.quiet rfl hreaches fun h => h)) hw
  cases a with
  | engine op => exact Engine.step_invariant hchange haction rounds w.engine op hw
  | server st =>
      apply hjoined _ Client.Step.hangUp
      simp only [System.step]
      split <;> exact Or.inr rfl
  | toServer n => exact hjoined _ Client.Step.hangUp (Or.inr rfl)
  | toClient n =>
      apply hjoined _ (Client.Step.receive (w.toClient.take n))
      simp only [System.step]
      split
      · exact Or.inr rfl
      · exact Or.inl rfl
  | hangUp =>
      apply hjoined _ Client.Step.hangUp
      simp only [System.step]
      split
      · exact Or.inl rfl
      · exact Or.inr rfl

theorem World.relaying (rounds : Nat) (device : ExportedDevice)
    (endpoints : List (UInt8 × UInt8)) (schedule : List (List Client.Step))
    (acts : List (Act R)) :
    (World.after rounds device endpoints schedule acts).engine.Relaying :=
  World.engine_invariant (fun _ _ _ h hok => h.relaying hok)
    (fun _ _ _ h hok => h.relaying hok) rounds acts (Engine.start_relaying device schedule)

/-!
# What the host gets
-/

/-- The device has come to this completion, and this is what the host sees of it. -/
structure Reported (c : Engine.Completion R) (stage : Stage) (urb : Urb)
    (d : Server.Completion) : Prop where
  whole : stage = Stage.normal ->
    c.status = Status.fromUrbStatus d.status ∧
      (urb.isIn = true -> c.data = d.data ∧ c.length.toNat = d.data.length) ∧
      (urb.isIn = false -> c.data = [] ∧ c.length = d.actualLength.getD urb.length)
  packet : stage = Stage.isochronous -> forall p rest, urb.isoOf d = p :: rest ->
    c.status = Status.fromUrbStatus p.status ∧ c.length = min p.actualLength urb.length ∧
      c.data = if urb.isIn then d.data.take c.length.toNat else []

structure Empty (c : Engine.Completion R) (status : Status) : Prop where
  status : c.status = status
  data : c.data = []
  length : c.length = 0

/-- The URB of a submission is what its message asks for. -/
structure Requested (s : Submission R) : Prop where
  address : (urbOf s.cmd).address = addressOf s.key
  length : (urbOf s.cmd).length = s.flight.length
  data : (urbOf s.cmd).data =
    if (urbOf s.cmd).isIn then [] else Engine.Ring.read s.ring s.ahead s.flight.length.toNat

/-- The device's completion, or why there is none. -/
inductive Concluded (w : World R) (c : Engine.Completion R) (s : Submission R) : Prop where
  | completed (d : Server.Completion)
      (hanswer : Answer.ret s.reply (urbOf s.cmd) d ∈ w.server.urbs.answers)
      (hreported : Reported c s.flight.stage (urbOf s.cmd) d)
  | cancelled (u : UInt32)
      (hanswer : Answer.unlink u s.cmd.seqnum (some s.reply) ∈ w.server.urbs.answers)
      (hempty : Empty c Status.endpointStopped)
  | lost (hclosed : w.engine.session.shared.state.closed.isSome = true)
      (hempty : Empty c Status.offline)

theorem isIn_of_direction {s : Submission R} (h : s.Asked) :
    (urbOf s.cmd).isIn = decide (s.flight.direction = Direction.in) := by
  have hdirection : (urbOf s.cmd).direction = s.flight.direction.toU32 := h.direction
  rw [Urb.isIn, hdirection]
  cases s.flight.direction <;> rfl

theorem Requested.of_asked {s : Submission R} (h : s.Asked) (hdata : s.flight.stage.IsData) :
    Requested s where
  address := by
    rcases h.endpoint hdata with ⟨hep, hdirection⟩
    apply address_of_key hep
    rw [h.direction, hdirection]
  length := h.length
  data := by
    rw [isIn_of_direction h]
    show s.cmd.data = _
    rw [h.data hdata]
    cases s.flight.direction <;> rfl

theorem reported_of_carries {c : Engine.Completion R} {f : InFlight} {s : Submission R}
    {d : Server.Completion} (hsame : f.SameUrb s.flight) (hasked : s.Asked)
    (hdata : f.stage.IsData) (hfits : Fits (urbOf s.cmd) (Outcome.complete d))
    (hcarries : c.Carries f (.ok ((urbOf s.cmd).reply d))) :
    Reported c s.flight.stage (urbOf s.cmd) d := by
  have hin : (urbOf s.cmd).isIn = decide (f.direction = Direction.in) := by
    rw [isIn_of_direction hasked, hsame.direction]
  have hlength : (urbOf s.cmd).length = f.length := hasked.length.trans hsame.length.symm
  rcases hcarries.data hdata with ⟨hbytes, hcount⟩
  rcases hfits with ⟨hread, hwrite, _⟩
  constructor
  · intro hstage
    have hnormal : f.stage = Stage.normal := hsame.stage.trans hstage
    have houtcome : f.outcome (.ok ((urbOf s.cmd).reply d)) =
        (Status.fromUrbStatus d.status,
          ((urbOf s.cmd).reply d).data.take (min ((urbOf s.cmd).actual d) f.length).toNat,
          min ((urbOf s.cmd).actual d) f.length) := by
      simp only [InFlight.outcome, hnormal]
      rfl
    rw [houtcome] at hbytes hcount
    refine ⟨?_, ?_, ?_⟩
    · rw [hcarries.status, houtcome]
    · intro hisIn
      have hdirection : f.direction = Direction.in := by simpa [hin] using hisIn
      have hnat : (UInt32.ofNat d.data.length).toNat = d.data.length := by
        apply UInt32.toNat_ofNat_of_lt'
        exact Nat.lt_of_le_of_lt (hread hisIn) (urbOf s.cmd).length.toNat_lt
      have hmin : (min ((urbOf s.cmd).actual d) f.length).toNat = d.data.length := by
        rw [Engine.min_toNat, Urb.actual, if_pos hisIn, hnat, ← hlength]
        exact Nat.min_eq_left (hread hisIn)
      have hreturned : ((urbOf s.cmd).reply d).data = d.data := if_pos hisIn
      rw [if_pos hdirection] at hbytes
      constructor
      · rw [hbytes, hmin, hreturned, List.take_length]
      · rw [hcount, hmin]
    · intro hisOut
      have hdirection : f.direction ≠ Direction.in := by simpa [hin] using hisOut
      have hmin : min ((urbOf s.cmd).actual d) f.length = d.actualLength.getD (urbOf s.cmd).length := by
        have hactual : (urbOf s.cmd).actual d = d.actualLength.getD (urbOf s.cmd).length := by
          rw [Urb.actual, hisOut, if_neg Bool.false_ne_true]
        rw [hactual, ← hlength]
        exact if_pos (hwrite hisOut)
      rw [if_neg hdirection] at hbytes
      exact ⟨hbytes, hcount.trans hmin⟩
  · intro hstage p rest hpackets
    have hiso : f.stage = Stage.isochronous := hsame.stage.trans hstage
    have houtcome : f.outcome (.ok ((urbOf s.cmd).reply d)) =
        (Status.fromUrbStatus p.status,
          ((urbOf s.cmd).reply d).data.take (min p.actualLength f.length).toNat,
          min p.actualLength f.length) := by
      have hhead : ((urbOf s.cmd).reply d).isoPackets.head? = some p := by
        show ((urbOf s.cmd).isoOf d).head? = some p
        rw [hpackets]
        rfl
      simp only [InFlight.outcome, hiso, hhead]
    rw [houtcome] at hbytes hcount
    refine ⟨?_, ?_, ?_⟩
    · rw [hcarries.status, houtcome]
    · rw [hcount, hlength]
    · rw [hbytes, hcount]
      cases hdirection : f.direction with
      | out =>
          rw [hdirection] at hin
          rw [hin]
          rfl
      | «in» =>
          rw [hdirection] at hin
          rw [hin]
          show List.take _ (if (urbOf s.cmd).isIn then d.data else []) = _
          rw [hin]
          rfl

omit [Engine.Ring R] in
theorem empty_of_error {c : Engine.Completion R} {f : InFlight} {e : TransferError}
    (hdata : f.stage.IsData) (hcarries : c.Carries f (.error e)) :
    Empty c (Engine.errorStatus e) where
  status := hcarries.status
  data := by
    rw [(hcarries.data hdata).left]
    cases f.direction <;> rfl
  length := (hcarries.data hdata).right

theorem command_of_reply {w : World R} (hdelivered : w.link.dialogue.Delivered)
    {c : Engine.Completion R} {f : InFlight} {s : Submission R} {result : TransferResult}
    (hfrom : c.From w.engine f s result) {cmd : CmdSubmit}
    (hcmd : Client.Event.submitted s.reply cmd ∈ w.engine.session.shared.log) :
    cmd = s.cmd :=
  hdelivered.ok.sound.replies.submitted_injective s.reply cmd s.cmd hcmd hfrom.issued

theorem answer_of_reply {w : World R} (hdelivered : w.link.dialogue.Delivered)
    {c : Engine.Completion R} {f : InFlight} {s : Submission R} {ret : RetSubmit}
    (hfrom : c.From w.engine f s (.ok ret)) :
    exists d, Answer.ret s.reply (urbOf s.cmd) d ∈ w.server.urbs.answers ∧
      ret = (urbOf s.cmd).reply d := by
  rcases System.answered (l := w.link) hdelivered hfrom.sent with ⟨cmd, d, hcmd, hanswer, hret⟩
  cases command_of_reply hdelivered hfrom hcmd
  exact ⟨d, hanswer, hret⟩

/-- What a completion reports is what has become of its URB. -/
theorem World.concluded {w : World R} (hdelivered : w.link.dialogue.Delivered)
    {c : Engine.Completion R} {f : InFlight} {s : Submission R} {result : TransferResult}
    (hfrom : c.From w.engine f s result) (hdata : f.stage.IsData) : Concluded w c s := by
  have hcarries := hfrom.carries
  cases result with
  | ok ret =>
      rcases answer_of_reply hdelivered hfrom with ⟨d, hanswer, rfl⟩
      refine Concluded.completed d hanswer ?_
      exact reported_of_carries hfrom.same hfrom.asked hdata
        (hdelivered.ok.sound.answers_issued s.reply _ d hanswer).left hcarries
  | error e =>
      have hanswered := System.answered (l := w.link) hdelivered hfrom.sent
      cases e with
      | unlinked status =>
          rcases hanswered with ⟨_, cmd, u, hcmd, hanswer, _⟩
          cases command_of_reply hdelivered hfrom hcmd
          exact Concluded.cancelled u hanswer (empty_of_error hdata hcarries)
      | disconnected reason =>
          apply Concluded.lost _ (empty_of_error hdata hcarries)
          have hclosed : w.engine.session.shared.state.closed = some reason := hanswered
          rw [hclosed]
          rfl
      | invalid text => exact hanswered.elim

/-!
# The order of results
-/

def tokenReply? {R : Type} (key : EndpointKey) : Engine.Event R -> Option (Nat × RetSubmit)
  | Engine.Event.completed c =>
      if c.key = key then
        match c.origin with
        | some f =>
            match f.result with
            | some (.ok ret) => some (f.token, ret)
            | _ => none
        | none => none
      else
        none
  | _ => none

/-- The replies that messages of an endpoint have got, oldest first. -/
def received {R : Type} (e : Engine R) (key : EndpointKey) : List RetSubmit :=
  (e.log.reverse.filterMap (tokenReply? key)).map Prod.snd

def channelReply? (address : UInt8) : Answer -> Option (Nat × RetSubmit)
  | Answer.ret cancel urb c =>
      if urb.address = address then some (cancel, urb.reply c) else none
  | Answer.unlink _ _ _ => none

/-- The replies that the device has given for an address, oldest first. -/
def given (u : Urbs) (address : UInt8) : List RetSubmit :=
  (u.answers.filterMap (channelReply? address)).map Prod.snd

omit [Engine.Ring R] in
theorem tokenReply?_eq_some {key : EndpointKey} {ev : Engine.Event R} {t : Nat × RetSubmit}
    (h : tokenReply? key ev = some t) :
    exists c f, ev = Engine.Event.completed c ∧ c.key = key ∧ c.origin = some f ∧
      f.token = t.1 ∧ f.result = some (.ok t.2) := by
  cases ev with
  | completed c =>
      simp only [tokenReply?] at h
      split at h
      · rename_i hkey
        cases horigin : c.origin with
        | none =>
            rw [horigin] at h
            cases h
        | some f =>
            rw [horigin] at h
            dsimp only at h
            split at h
            · rename_i ret hresult
              cases h
              exact ⟨c, f, rfl, hkey, horigin, rfl, hresult⟩
            · cases h
      · cases h
  | _ => cases h

theorem completions_sorted {e : Engine R} (h : e.toCore.TokensOk) (key : EndpointKey) :
    (e.log.reverse.filterMap (tokenReply? key)).Pairwise fun x y => x.1 < y.1 := by
  have hlog : e.log.Pairwise fun ev older => forall x, tokenReply? key ev = some x ->
      forall y, tokenReply? key older = some y -> y.1 < x.1 := by
    apply h.completed_rightful.pairwise
    intro ev older hwhy other hother x hx y hy
    rcases tokenReply?_eq_some hx with ⟨c, f, rfl, hkey, horigin, htoken, _⟩
    rcases tokenReply?_eq_some hy with ⟨d, g, rfl, hkey', horigin', htoken', _⟩
    have hlt := ((hwhy c f rfl horigin).others d g hother horigin').right
      (hkey'.trans hkey.symm)
    rw [← htoken, ← htoken']
    exact hlt
  apply List.pairwise_filterMap.mpr
  apply List.pairwise_reverse.mpr
  refine hlog.imp ?_
  intro ev older hlt x hx y hy
  exact hlt y hy x hx

theorem answers_sorted {u : Urbs} (h : UrbsInTurn u) (address : UInt8) :
    (u.answers.filterMap (channelReply? address)).Pairwise fun x y => x.1 < y.1 := by
  apply List.pairwise_filterMap.mpr
  refine h.answers.imp ?_
  intro a b hturn x hx y hy
  cases a with
  | unlink _ _ _ => cases hx
  | ret cancel urb c =>
      cases b with
      | unlink _ _ _ => cases hy
      | ret cancel' urb' c' =>
          simp only [channelReply?] at hx hy
          split at hx
          · rename_i haddress
            split at hy
            · rename_i haddress'
              cases hx
              cases hy
              exact hturn (haddress.trans haddress'.symm)
            · cases hy
          · cases hx

def ChannelOf (e : Engine R) (token channel : Nat) : Prop :=
  exists s, Engine.Event.submitted s ∈ e.log ∧ s.flight.token = token ∧ s.reply = channel

theorem World.received_in_order {w : World R} (hrelay : w.engine.Relaying)
    (hdelivered : w.link.dialogue.Delivered) {key : EndpointKey}
    (hdata : Engine.isControl key = false) :
    (received w.engine key).Sublist (given w.server.urbs (addressOf key)) := by
  have hturns : UrbsInTurn w.server.urbs := hdelivered.turns
  refine sublist_of_match (ChannelOf w.engine)
    (completions_sorted hrelay.tokens key) (answers_sorted hturns _) ?_ ?_
  · intro x hx
    rcases List.mem_filterMap.mp hx with ⟨ev, hev, hreply⟩
    rcases tokenReply?_eq_some hreply with ⟨c, f, rfl, hkey, horigin, htoken, hresult⟩
    rcases hrelay.completion (List.mem_reverse.mp hev) horigin with ⟨s, result, hfrom⟩
    have hresult' := hfrom.used
    rw [hresult] at hresult'
    cases hresult'
    rcases answer_of_reply hdelivered hfrom with ⟨d, hanswer, hret⟩
    refine ⟨s.reply, ⟨s, hfrom.submitted, hfrom.same.token.symm.trans htoken, rfl⟩, ?_⟩
    apply List.mem_filterMap.mpr
    refine ⟨_, hanswer, ?_⟩
    have hstage := hfrom.asked.stage (by rw [hfrom.key, hkey]; exact hdata)
    have haddress : (urbOf s.cmd).address = addressOf key := by
      rw [(Requested.of_asked hfrom.asked hstage).address, hfrom.key, hkey]
    simp only [channelReply?, haddress, if_true, hret]
  · rintro t n t' n' ⟨s, hs, rfl, rfl⟩ ⟨s', hs', rfl, rfl⟩ hlt
    exact hrelay.ordered s s' hs hs' hlt

end Link
end UsbIp
