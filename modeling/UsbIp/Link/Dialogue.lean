import UsbIp.Client.Tables
import UsbIp.Server.Urbs

/-!
# The dialogue of a client and a server

A session and the server it talks to, message by message: what is between them
is a queue of commands and a queue of answers, and each move takes or adds one
message.  Neither bytes nor tasks are left here.  A queue is not a part of the
state; it is what one side has sent according to its history without what the
other side has taken according to its own.
-/

namespace UsbIp
namespace Link

open Foundation
open Protocol
open Client (Shared SubmitRequest)
open Server (Urb Urbs Answer Outcome Completion Job urbOf unlinkStatus)

/-!
# Messages
-/

/-- A command with the reply channel it is about. -/
inductive Order where
  | submit (reply : Nat) (cmd : CmdSubmit)
  | unlink (reply : Nat) (cmd : CmdUnlink)
deriving DecidableEq, Repr

def Order.command : Order -> Command
  | Order.submit _ cmd => Command.submit cmd
  | Order.unlink _ cmd => Command.unlink cmd

def Order.seqnum (o : Order) : UInt32 :=
  o.command.seqnum

def Order.encode (o : Order) : Bytes :=
  o.command.encode

def Order.held : Order -> Option (UInt32 × Nat)
  | Order.submit reply cmd => some (cmd.seqnum, reply)
  | Order.unlink _ _ => none

def answerHeld : Answer -> Option (UInt32 × Nat)
  | Answer.ret cancel urb _ => some (urb.seqnum, cancel)
  | Answer.unlink _ target (some cancel) => some (target, cancel)
  | Answer.unlink _ _ none => none

def Order.target? : Order -> Option UInt32
  | Order.submit _ _ => none
  | Order.unlink _ cmd => some cmd.unlinkSeqnum

def order? : Client.Event -> Option Order
  | Client.Event.submitted reply cmd => some (Order.submit reply cmd)
  | Client.Event.unlinking reply cmd => some (Order.unlink reply cmd)
  | _ => none

def ordersOf (s : Shared) : List Order :=
  s.log.reverse.filterMap order?

def isReply : Client.Event -> Bool
  | Client.Event.received _ => true
  | Client.Event.confirmed _ => true
  | _ => false

def readsOf (s : Shared) : Nat :=
  s.log.countP isReply

/-!
# States and moves
-/

structure Dialogue where
  client : Shared
  server : Urbs

def Dialogue.start (devid : UInt32) : Dialogue where
  client := Shared.initial devid
  server := Urbs.initial

/-- The orders under way to the server, oldest first. -/
def Dialogue.orders (d : Dialogue) : List Order :=
  (ordersOf d.client).drop d.server.taken

/-- The answers under way to the client, oldest first. -/
def Dialogue.unread (d : Dialogue) : List Answer :=
  d.server.answers.drop (readsOf d.client)

inductive Move where
  | submit (req : SubmitRequest)
  | unlink (target : UInt32)
  | close (reason : String)
  /-- The server takes the oldest order under way. -/
  | take
  | finish (address : UInt8) (outcome : Outcome)
  | skip (address : UInt8)
  /-- The loop of the server ends. -/
  | stop
  /-- The client reads the oldest answer under way. -/
  | read
  /-- A closed session goes on reading, whatever it takes the bytes for. -/
  | lateRet (ret : RetSubmit)
  | lateUnlink (ret : RetUnlink)

/-- A frame is under way as soon as it is queued. -/
def sent (s : Shared) : Shared :=
  { s with frames := [] }

def Dialogue.take (d : Dialogue) : Dialogue :=
  match d.orders with
  | [] => d
  | Order.submit _ cmd :: _ => { d with server := d.server.submit (urbOf cmd) }
  | Order.unlink _ cmd :: _ =>
      { d with server := d.server.unlink cmd.seqnum cmd.unlinkSeqnum }

/-- What the reader makes of an answer. -/
def readAnswer (s : Shared) : Answer -> Shared
  | Answer.ret _ urb c => s.finishSubmit (urb.reply c)
  | Answer.unlink seqnum _ cancelled =>
      s.finishUnlink { seqnum := seqnum, status := unlinkStatus cancelled }

def Dialogue.read (d : Dialogue) : Dialogue :=
  match d.unread with
  | [] => d
  | a :: _ => { d with client := readAnswer d.client a }

def Dialogue.step (d : Dialogue) : Move -> Dialogue
  | Move.submit req =>
      { d with client := sent (((d.client.submit req).map Prod.snd).getD d.client) }
  | Move.unlink target => { d with client := sent ((d.client.unlink target).getD d.client) }
  | Move.close reason => { d with client := d.client.close reason }
  | Move.take => d.take
  | Move.finish address outcome =>
      { d with server := (d.server.finish address outcome).1 }
  | Move.skip address => { d with server := d.server.skip address }
  | Move.stop => { d with server := d.server.stop }
  | Move.read => d.read
  | Move.lateRet ret =>
      if d.client.state.closed.isSome then { d with client := d.client.finishSubmit ret } else d
  | Move.lateUnlink ret =>
      if d.client.state.closed.isSome then { d with client := d.client.finishUnlink ret } else d

/-!
# What the moves may rely on
-/

/-- The number belongs to no message under way, and to no URB in a queue. -/
structure Dialogue.Unused (d : Dialogue) (n : UInt32) : Prop where
  orders : forall o, o ∈ d.orders -> o.seqnum ≠ n
  targets : forall o, o ∈ d.orders -> o.target? ≠ some n
  jobs : forall job, job ∈ d.server.jobs -> job.urb.seqnum ≠ n
  unread : forall a, a ∈ d.unread -> a.seqnum ≠ n

instance (d : Dialogue) (n : UInt32) : Decidable (d.Unused n) :=
  decidable_of_iff
    ((forall o, o ∈ d.orders -> o.seqnum ≠ n) ∧
      (forall o, o ∈ d.orders -> o.target? ≠ some n) ∧
      (forall job, job ∈ d.server.jobs -> job.urb.seqnum ≠ n) ∧
      forall a, a ∈ d.unread -> a.seqnum ≠ n)
    ⟨fun ⟨h1, h2, h3, h4⟩ => ⟨h1, h2, h3, h4⟩,
      fun h => ⟨h.orders, h.targets, h.jobs, h.unread⟩⟩

def newOrders (s s' : Shared) : List Order :=
  (ordersOf s').drop (ordersOf s).length

/-- A device returns no more than it was asked for. -/
def Fits (urb : Urb) : Outcome -> Prop
  | Outcome.complete c =>
      (urb.isIn = true -> c.data.length ≤ urb.length.toNat) ∧
        (urb.isIn = false -> c.actualLength.getD urb.length ≤ urb.length) ∧
        (urb.isoOf c).length ≤ 1024
  | Outcome.raw _ => False
  | Outcome.disconnect => True

instance (urb : Urb) (outcome : Outcome) : Decidable (Fits urb outcome) :=
  match outcome with
  | Outcome.complete c =>
      inferInstanceAs (Decidable ((urb.isIn = true -> c.data.length ≤ urb.length.toNat) ∧
        (urb.isIn = false -> c.actualLength.getD urb.length ≤ urb.length) ∧
        (urb.isoOf c).length ≤ 1024))
  | Outcome.raw _ => isFalse id
  | Outcome.disconnect => isTrue trivial

/-- The outcome fits the URB that the worker of the address has before it. -/
def outcomeFits (u : Urbs) (address : UInt8) (outcome : Outcome) : Prop :=
  forall job, job ∈ u.jobs.find? (Job.at address) -> Fits job.urb (job.outcome outcome)

instance (u : Urbs) (address : UInt8) (outcome : Outcome) :
    Decidable (outcomeFits u address outcome) :=
  inferInstanceAs (Decidable (forall job, job ∈ u.jobs.find? (Job.at address) ->
    Fits job.urb (job.outcome outcome)))

structure Dialogue.Allowed (d : Dialogue) (m : Move) : Prop where
  fresh : forall o, o ∈ newOrders d.client (d.step m).client -> d.Unused o.seqnum
  fits : forall address outcome, m = Move.finish address outcome ->
    outcomeFits d.server address outcome

/-!
# How the queues change
-/

theorem mem_ordersOf_submit {s : Shared} {reply : Nat} {cmd : CmdSubmit} :
    Order.submit reply cmd ∈ ordersOf s <-> Client.Event.submitted reply cmd ∈ s.log := by
  unfold ordersOf
  rw [List.mem_filterMap]
  constructor
  · rintro ⟨e, he, hsome⟩
    cases e with
    | submitted r c =>
        cases hsome
        exact List.mem_reverse.mp he
    | _ => cases hsome
  · intro he
    exact ⟨_, List.mem_reverse.mpr he, rfl⟩

theorem ordersOf_cons {s s' : Shared} {e : Client.Event} (hlog : s'.log = e :: s.log) :
    ordersOf s' = ordersOf s ++ (order? e).toList := by
  unfold ordersOf
  rw [hlog, List.reverse_cons, List.filterMap_append]
  cases h : order? e <;> simp [h]

theorem readsOf_cons {s s' : Shared} {e : Client.Event} (hlog : s'.log = e :: s.log) :
    readsOf s' = readsOf s + (if isReply e then 1 else 0) := by
  unfold readsOf
  rw [hlog, List.countP_cons]

theorem issued_eq_orders (s : Shared) : s.issued = (ordersOf s).map Order.command := by
  unfold Shared.issued ordersOf
  rw [List.map_filterMap]
  congr 1
  funext e
  cases e <;> rfl

theorem drop_concat {α : Type} {xs : List α} {n : Nat} (h : n ≤ xs.length) (ys : List α) :
    (xs ++ ys).drop n = xs.drop n ++ ys :=
  List.drop_append_of_le_length h

theorem newOrders_cons {s s' : Shared} {e : Client.Event} (hlog : s'.log = e :: s.log) :
    newOrders s s' = (order? e).toList := by
  unfold newOrders
  rw [ordersOf_cons hlog, List.drop_left]

theorem drop_cons_next {α : Type} {xs rest : List α} {x : α} {n : Nat}
    (h : xs.drop n = x :: rest) : n < xs.length ∧ xs.drop (n + 1) = rest := by
  constructor
  · apply Nat.lt_of_not_le
    intro hle
    rw [List.drop_eq_nil_of_le hle] at h
    cases h
  · rw [← List.tail_drop, h, List.tail_cons]

/-!
# What a move can do

Every move is one of the turns below, with what was checked before it.
Invariants are proved once per turn.
-/

def takeOut (u : Urbs) (front : List Job) (job : Job) (back : List Job) : Urbs :=
  { u with
    jobs := front ++ back
    pending := u.pending.erase job.urb.seqnum
    log := Server.Event.completed job.urb.seqnum :: u.log }

inductive Turn (d : Dialogue) : Dialogue -> Prop where
  | idle (frames : List Bytes) :
      Turn d ⟨{ d.client with frames := frames }, d.server⟩
  | submit {req : SubmitRequest} {n : UInt32} :
      req.Accepted -> d.client.state.closed = none -> d.client.state.Free n ->
      d.Unused n ->
      Turn d
        ⟨sent (d.client.register req n { d.client.state with nextSeqnum := n }), d.server⟩
  | unlink {target n : UInt32} {p : Client.PendingSubmit} :
      d.client.state.submits.lookup target = some p -> d.client.state.closed = none ->
      (forall u, d.client.state.unlinks.lookup u ≠ some target) ->
      d.client.state.Free n -> d.Unused n ->
      Turn d
        ⟨sent (d.client.registerUnlink target p.reply n
          { d.client.state with nextSeqnum := n }), d.server⟩
  | close (reason : String) : Turn d ⟨d.client.close reason, d.server⟩
  | takeSubmit {reply : Nat} {cmd : CmdSubmit} {rest : List Order} :
      d.orders = Order.submit reply cmd :: rest ->
      Turn d ⟨d.client, d.server.submit (urbOf cmd)⟩
  | takeUnlink {reply : Nat} {cmd : CmdUnlink} {rest : List Order} :
      d.orders = Order.unlink reply cmd :: rest ->
      Turn d ⟨d.client, d.server.unlink cmd.seqnum cmd.unlinkSeqnum⟩
  | drop {front back : List Job} {job : Job} :
      d.server.jobs = front ++ job :: back ->
      (d.server.pending.lookup job.urb.seqnum = none ∨
        forall n, d.server.pending.lookup n ≠ some job.cancel) ->
      Turn d ⟨d.client, { d.server with jobs := front ++ back }⟩
  | answer {front back : List Job} {job : Job} {cancel : Nat} {c : Completion} :
      d.server.jobs = front ++ job :: back ->
      (forall other, other ∈ front -> other.urb.address ≠ job.urb.address) ->
      d.server.pending.lookup job.urb.seqnum = some cancel ->
      Fits job.urb (Outcome.complete c) ->
      Turn d ⟨d.client,
        (takeOut d.server front job back).put (Answer.ret job.cancel job.urb c)⟩
  | disconnect {front back : List Job} {job : Job} {cancel : Nat} :
      d.server.jobs = front ++ job :: back ->
      d.server.pending.lookup job.urb.seqnum = some cancel ->
      Turn d ⟨d.client, { takeOut d.server front job back with ended := true }⟩
  | stop : Turn d ⟨d.client, d.server.stop⟩
  | readRet {cancel : Nat} {urb : Urb} {c : Completion} {rest : List Answer} :
      d.unread = Answer.ret cancel urb c :: rest ->
      Turn d ⟨d.client.finishSubmit (urb.reply c), d.server⟩
  | readUnlink {seqnum target : UInt32} {cancelled : Option Nat} {rest : List Answer} :
      d.unread = Answer.unlink seqnum target cancelled :: rest ->
      Turn d
        ⟨d.client.finishUnlink { seqnum := seqnum, status := unlinkStatus cancelled },
          d.server⟩
  | lateRet (ret : RetSubmit) :
      d.client.state.closed.isSome = true -> Turn d ⟨d.client.finishSubmit ret, d.server⟩
  | lateUnlink (ret : RetUnlink) :
      d.client.state.closed.isSome = true -> Turn d ⟨d.client.finishUnlink ret, d.server⟩

theorem Turn.refl (d : Dialogue) : Turn d d :=
  Turn.idle d.client.frames

theorem Dialogue.step_finish_turn {d : Dialogue} {address : UInt8} {outcome : Outcome}
    (hfits : outcomeFits d.server address outcome) :
    Turn d ⟨d.client, (d.server.finish address outcome).1⟩ := by
  rcases d.server.finish_cases address outcome with
    hsame | ⟨front, job, back, hjobs, hfind, haddress, hfront, hrest⟩
  · rw [hsame]
    exact Turn.refl d
  · rcases hrest with ⟨hnone, hfinish⟩ | ⟨cancel, hpending, hfinish⟩
    · rw [hfinish]
      exact Turn.drop hjobs (Or.inl hnone)
    · rw [hfinish]
      have hfit := hfits job hfind
      cases hout : job.outcome outcome with
      | complete c =>
          rw [hout] at hfit
          exact Turn.answer hjobs (fun other hother => haddress ▸ hfront other hother)
            hpending hfit
      | raw bytes =>
          rw [hout] at hfit
          cases hfit
      | disconnect => exact Turn.disconnect hjobs hpending

theorem Dialogue.step_turn {d : Dialogue} {m : Move} (h : d.Allowed m) :
    Turn d (d.step m) := by
  cases m with
  | submit req =>
      have hfresh := h.fresh
      simp only [Dialogue.step] at hfresh ⊢
      cases hsub : d.client.submit req with
      | none => exact Turn.idle []
      | some pair =>
          rcases pair with ⟨result, s⟩
          rw [hsub] at hfresh
          rcases Shared.submit_cases hsub with
            ⟨_, _, rfl, _⟩ | ⟨n, _, haccepted, hopen, hfirst, rfl⟩
          · exact Turn.idle []
          · apply Turn.submit haccepted hopen hfirst.free
            apply hfresh (Order.submit d.client.channels (req.command n d.client.devid))
            rw [newOrders_cons rfl]
            exact List.mem_singleton_self _
  | unlink target =>
      have hfresh := h.fresh
      simp only [Dialogue.step] at hfresh ⊢
      cases hun : d.client.unlink target with
      | none => exact Turn.idle []
      | some s =>
          rw [hun] at hfresh
          rcases Shared.unlink_cases hun with
            ⟨rfl, _⟩ | ⟨p, n, hp, hopen, hnew, hfirst, rfl⟩
          · exact Turn.idle []
          · apply Turn.unlink hp hopen hnew hfirst.free
            apply hfresh (Order.unlink p.reply
              { seqnum := n, devid := d.client.devid, unlinkSeqnum := target })
            rw [newOrders_cons rfl]
            exact List.mem_singleton_self _
  | close reason => exact Turn.close reason
  | take =>
      simp only [Dialogue.step, Dialogue.take]
      split
      · exact Turn.refl d
      · rename_i horders
        exact Turn.takeSubmit horders
      · rename_i horders
        exact Turn.takeUnlink horders
  | finish address outcome => exact Dialogue.step_finish_turn (h.fits address outcome rfl)
  | skip address =>
      simp only [Dialogue.step]
      rcases d.server.skip_cases address with hsame | ⟨front, job, back, hjobs, _, hgone, hskip⟩
      · rw [hsame]
        exact Turn.refl d
      · rw [hskip]
        exact Turn.drop hjobs (Or.inr hgone)
  | stop => exact Turn.stop
  | read =>
      simp only [Dialogue.step, Dialogue.read]
      split
      · exact Turn.refl d
      · rename_i a rest hunread
        cases a with
        | ret cancel urb c => exact Turn.readRet hunread
        | unlink seqnum target cancelled => exact Turn.readUnlink hunread
  | lateRet ret =>
      simp only [Dialogue.step]
      split
      · rename_i hclosed
        exact Turn.lateRet ret hclosed
      · exact Turn.refl d
  | lateUnlink ret =>
      simp only [Dialogue.step]
      split
      · rename_i hclosed
        exact Turn.lateUnlink ret hclosed
      · exact Turn.refl d

end Link
end UsbIp
