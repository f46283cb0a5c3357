import UsbIp.Link.Sides

/-!
# The byte streams carry the dialogue

The two programs and the connection between them refine the dialogue of
messages: every step is one of its moves or none.  What holds the two levels
together is that the bytes on their way to the server are the encodings of the
orders it has not taken, and those on their way to the client the encodings of
the answers it has not read, wherever the streams happen to be cut.
-/

namespace UsbIp
namespace Link

open Foundation
open Protocol
open Client (Shared SubmitRequest Session ExportedDevice)
open Server (Urb Urbs Answer Outcome Completion Job Connection urbOf unlinkStatus)

/-!
# Orders
-/

def Order.devid : Order -> UInt32
  | Order.submit _ cmd => cmd.devid
  | Order.unlink _ cmd => cmd.devid

/-- The server reads the command for what it is, and finds nothing wrong with it. -/
structure OrderGood (devid : UInt32) (endpoints : List (UInt8 × UInt8)) (o : Order) :
    Prop where
  devid : o.devid = devid
  framed : o.command.Framed
  polite : OrderPolite endpoints o

theorem issued_encode (s : Shared) :
    s.issued.flatMap Command.encode = (ordersOf s).flatMap Order.encode := by
  rw [issued_eq_orders, List.flatMap_map]
  rfl

theorem Turn.grows {d d' : Dialogue} (h : Turn d d') :
    ordersOf d'.client = ordersOf d.client ++ newOrders d.client d'.client := by
  have hcons : forall {e : Client.Event}, d'.client.log = e :: d.client.log ->
      ordersOf d'.client = ordersOf d.client ++ newOrders d.client d'.client := by
    intro e hlog
    rw [newOrders_cons hlog, ordersOf_cons hlog]
  have hsame : ordersOf d'.client = ordersOf d.client ->
      ordersOf d'.client = ordersOf d.client ++ newOrders d.client d'.client := by
    intro heq
    rw [newOrders_of_eq heq, heq, List.append_nil]
  cases h with
  | submit _ _ _ _ => exact hcons rfl
  | unlink _ _ _ _ _ => exact hcons rfl
  | close reason => exact hsame (close_orders _ _)
  | readRet _ => exact hcons rfl
  | readUnlink _ => exact hcons (d.client.finishUnlink_log _)
  | lateRet ret _ => exact hcons rfl
  | lateUnlink ret _ => exact hcons (d.client.finishUnlink_log _)
  | _ => exact hsame rfl

theorem LocalSection.devid {s : Session} {shared : Shared} (h : LocalSection s shared) :
    shared.devid = s.shared.devid := by
  cases h with
  | frames frames => rfl
  | submit hsub =>
      rcases Shared.submit_cases hsub with ⟨_, _, rfl, _⟩ | ⟨n, _, _, _, _, rfl⟩ <;> rfl
  | unlink hun =>
      rcases Shared.unlink_cases hun with ⟨rfl, _⟩ | ⟨p, n, _, _, _, _, rfl⟩ <;> rfl
  | close _ =>
      unfold Shared.close
      split <;> rfl
  | fail _ =>
      unfold Shared.close
      split <;> rfl

theorem LocalSection.reads {s : Session} {shared : Shared} (h : LocalSection s shared) :
    readsOf shared = readsOf s.shared := by
  cases h with
  | frames frames => rfl
  | submit hsub =>
      rcases Shared.submit_cases hsub with ⟨_, _, rfl, _⟩ | ⟨n, _, _, _, _, rfl⟩
      · rfl
      · rw [readsOf_cons (s := s.shared) rfl]
        rfl
  | unlink hun =>
      rcases Shared.unlink_cases hun with ⟨rfl, _⟩ | ⟨p, n, _, _, _, _, rfl⟩
      · rfl
      · rw [readsOf_cons (s := s.shared) rfl]
        rfl
  | close _ => exact close_reads _ _
  | fail _ => exact close_reads _ _

theorem LocalSection.good {s : Session} {shared : Shared} (h : LocalSection s shared)
    {endpoints : List (UInt8 × UInt8)} {o : Order} (ho : o ∈ newOrders s.shared shared)
    (hpolite : OrderPolite endpoints o) : OrderGood s.shared.devid endpoints o := by
  have hnone : newOrders s.shared shared = [] ->
      OrderGood s.shared.devid endpoints o := by
    intro hnil
    rw [hnil] at ho
    cases ho
  cases h with
  | frames frames => exact hnone (newOrders_of_eq rfl)
  | submit hsub =>
      rcases Shared.submit_cases hsub with ⟨_, _, rfl, _⟩ | ⟨n, _, haccepted, _, _, rfl⟩
      · exact hnone (newOrders_of_eq rfl)
      · rw [newOrders_cons rfl] at ho
        cases List.mem_singleton.mp ho
        exact ⟨rfl, haccepted.framed hpolite.packets_le _ _, hpolite⟩
  | unlink hun =>
      rcases Shared.unlink_cases hun with ⟨rfl, _⟩ | ⟨p, n, _, _, _, _, rfl⟩
      · exact hnone (newOrders_of_eq rfl)
      · rw [newOrders_cons rfl] at ho
        cases List.mem_singleton.mp ho
        exact ⟨rfl, trivial, trivial⟩
  | close _ => exact hnone (newOrders_of_eq (close_orders _ _))
  | fail _ => exact hnone (newOrders_of_eq (close_orders _ _))

/-!
# The two levels
-/

structure System.Sync (l : System) : Prop where
  ok : l.dialogue.Ok
  output : l.client.OutputOk
  devid : l.server.devid = l.client.shared.devid
  good : forall o, o ∈ ordersOf l.client.shared ->
    OrderGood l.client.shared.devid l.server.endpoints o
  upstream : Upstream l.server.phase l.dialogue.orders l.upstream
  /-- Only a writer that has stopped loses bytes. -/
  downstream : l.client.shared.state.closed = none -> exists lost,
    Downstream l.client.reader l.dialogue.unread (l.downstream ++ lost) ∧
      (l.server.writing = true -> lost = [])
  tx : l.server.writing = true -> (none ∈ l.server.tx <-> l.server.urbs.ended = true)
  clean : l.server.violations = []
  failed : l.client.shared.state.closed = none -> forall reason,
    l.client.reader = Client.ReaderPhase.failed reason -> Benign reason
  closed : forall reason, l.client.shared.state.closed = some reason -> Benign reason

theorem System.start_sync {device : ExportedDevice} (endpoints : List (UInt8 × UInt8))
    (hdevid : exportDevid device = device.devid) : (System.start device endpoints).Sync where
  ok := Dialogue.start_ok device.devid
  output := rfl
  devid := hdevid
  good := by
    intro o ho
    cases ho
  upstream := @Upstream.header []
  downstream := fun _ => ⟨[], @Downstream.header [], fun _ => rfl⟩
  tx := by simp [System.start, Connection.start, Urbs.initial]
  clean := rfl
  failed := by
    intro _ reason h
    cases h
  closed := by
    intro reason h
    cases h

/-!
# What the client writes
-/

theorem Upstream.append {phase : Server.Phase} {orders : List Order} {bytes : Bytes}
    (h : Upstream phase orders bytes) (new : List Order) :
    Upstream phase (orders ++ new) (bytes ++ new.flatMap Order.encode) := by
  cases h with
  | header =>
      rw [← List.flatMap_append]
      exact Upstream.header
  | body =>
      rw [List.append_assoc, ← List.flatMap_append]
      exact Upstream.body
  | stopped => exact Upstream.stopped

theorem clientStep_upstream {l : System} {st : Client.Step} (hout : l.client.OutputOk)
    (hgrow : ordersOf (l.client.step st).shared = ordersOf l.client.shared ++
      newOrders l.client.shared (l.client.step st).shared) :
    (l.clientStep st).upstream = l.upstream ++
      (newOrders l.client.shared (l.client.step st).shared).flatMap Order.encode := by
  have hout' := hout.step st
  rcases step_written l.client st with ⟨more, hmore⟩
  have hdrop : (l.client.step st).written.drop l.client.written.length = more := by
    rw [hmore, List.drop_left]
  unfold Session.OutputOk Session.output at hout hout'
  rw [issued_encode] at hout hout'
  rw [hgrow, List.flatMap_append, ← hout, hmore, List.append_assoc, List.append_assoc,
    List.append_cancel_left_eq] at hout'
  unfold System.upstream System.clientStep
  dsimp only
  rw [hdrop]
  simp only [List.append_assoc, List.append_cancel_left_eq]
  rw [hout']
  simp only [List.append_assoc]

theorem orders_grow {d d' : Dialogue} (hserver : d'.server = d.server) {new : List Order}
    (htaken : d.server.taken ≤ (ordersOf d.client).length)
    (hgrow : ordersOf d'.client = ordersOf d.client ++ new) :
    d'.orders = d.orders ++ new := by
  unfold Dialogue.orders
  rw [hserver, hgrow, drop_concat htaken]

theorem System.Sync.upstream_client {l : System} (hl : l.Sync) {st : Client.Step}
    (hmoved : Moved l.dialogue (l.clientStep st).dialogue) :
    Upstream (l.clientStep st).server.phase (l.clientStep st).dialogue.orders
      (l.clientStep st).upstream := by
  have hgrow := hmoved.turn.grows
  rw [clientStep_upstream hl.output hgrow,
    @orders_grow l.dialogue (l.clientStep st).dialogue rfl _ hl.ok.sound.taken_le hgrow]
  exact hl.upstream.append _

/-!
# A client that does not read
-/

theorem section_closed {s : Session} {shared : Shared} (h : LocalSection s shared)
    (hfailed : s.shared.state.closed = none -> forall reason,
      s.reader = Client.ReaderPhase.failed reason -> Benign reason)
    (hclosed : forall reason, s.shared.state.closed = some reason -> Benign reason) :
    forall reason, shared.state.closed = some reason -> Benign reason := by
  have hclose : forall given, (s.shared.state.closed = none -> Benign given) ->
      forall reason, (s.shared.close given).state.closed = some reason -> Benign reason := by
    intro given hgiven reason hreason
    unfold Shared.close at hreason
    cases hopen : s.shared.state.closed with
    | some earlier =>
        simp only [hopen] at hreason
        exact hclosed reason (hopen.trans hreason)
    | none =>
        simp only [hopen, Option.some.injEq] at hreason
        rw [← hreason]
        exact hgiven hopen
  cases h with
  | frames frames => exact hclosed
  | submit hsub =>
      rcases Shared.submit_cases hsub with ⟨_, _, rfl, _⟩ | ⟨n, _, _, _, _, rfl⟩
      · exact hclosed
      · exact hclosed
  | unlink hun =>
      rcases Shared.unlink_cases hun with ⟨rfl, _⟩ | ⟨p, n, _, _, _, _, rfl⟩
      · exact hclosed
      · exact hclosed
  | close hbenign => exact hclose _ fun _ => hbenign
  | fail hreader => exact hclose _ fun hopen => hfailed hopen _ hreader

theorem section_open {s : Session} {shared : Shared} (h : LocalSection s shared)
    (hopen : shared.state.closed = none) : s.shared.state.closed = none := by
  cases h with
  | frames frames => exact hopen
  | submit hsub =>
      rcases Shared.submit_cases hsub with ⟨_, _, rfl, _⟩ | ⟨n, _, _, _, _, rfl⟩
      · exact hopen
      · exact hopen
  | unlink hun =>
      rcases Shared.unlink_cases hun with ⟨rfl, _⟩ | ⟨p, n, _, _, _, _, rfl⟩
      · exact hopen
      · exact hopen
  | close _ => exact absurd hopen (close_closed _ _)
  | fail _ => exact absurd hopen (close_closed _ _)

theorem System.Sync.good_client {l : System} (hl : l.Sync) {st : Client.Step}
    (hmoved : Moved l.dialogue (l.clientStep st).dialogue)
    (hdevid : (l.client.step st).shared.devid = l.client.shared.devid)
    (hnew : forall o, o ∈ newOrders l.client.shared (l.client.step st).shared ->
      OrderGood l.client.shared.devid l.server.endpoints o) :
    forall o, o ∈ ordersOf (l.client.step st).shared ->
      OrderGood (l.client.step st).shared.devid l.server.endpoints o := by
  intro o ho
  rw [hdevid]
  have hgrow : ordersOf (l.client.step st).shared = _ := hmoved.turn.grows
  rw [hgrow] at ho
  rcases List.mem_append.mp ho with hold | hmem
  · exact hl.good o hold
  · exact hnew o hmem

theorem System.Sync.client_quiet {l : System} (hl : l.Sync) {st : Client.Step}
    (hown : isOwn st = true) (hreads : st.reads = false)
    (hallowed : l.Allowed (Step.client st)) :
    (l.clientStep st).Sync ∧ Moved l.dialogue (l.clientStep st).dialogue := by
  have hlocal := step_local l.client hown hreads
  have hmoved : Moved l.dialogue (l.clientStep st).dialogue :=
    hlocal.moved fun o ho => (hallowed o ho).left
  rcases l.client.step_reader hreads with ⟨hreader, hkept⟩
  have hinput := hkept fun bytes hreceive => by
    rw [hreceive] at hown
    cases hown
  have hdevid := hlocal.devid
  have hdownstream : (l.clientStep st).downstream = l.downstream := by
    unfold System.downstream System.clientStep
    dsimp only
    rw [hinput]
  have hunread : (l.clientStep st).dialogue.unread = l.dialogue.unread := by
    show l.server.urbs.answers.drop (readsOf (l.client.step st).shared) = _
    rw [hlocal.reads]
    rfl
  refine ⟨?_, hmoved⟩
  exact
    { ok := hmoved.turn.ok hl.ok
      output := hl.output.step st
      devid := hl.devid.trans hdevid.symm
      good := hl.good_client hmoved hdevid fun o ho =>
        hlocal.good ho (hallowed o ho).right
      upstream := hl.upstream_client hmoved
      downstream := by
        intro hopen
        rcases hl.downstream (section_open hlocal hopen) with ⟨lost, hdown, hlost⟩
        refine ⟨lost, ?_, hlost⟩
        rw [hdownstream, hunread]
        cases hreader with
        | same heq =>
            show Downstream (l.client.step st).reader _ _
            rw [heq]
            exact hdown
        | failed text heq =>
            show Downstream (l.client.step st).reader _ _
            rw [heq]
            exact Downstream.failed
        | stopped heq hclosed => exact absurd hopen (ne_none_of_isSome hclosed)
      tx := hl.tx
      clean := hl.clean
      failed := by
        intro hopen reason hfailed
        change (l.client.step st).reader = _ at hfailed
        cases hreader with
        | same heq =>
            exact hl.failed (section_open hlocal hopen) reason (heq ▸ hfailed)
        | failed text heq =>
            rw [heq] at hfailed
            cases hfailed
            exact Benign.reading text
        | stopped heq hclosed => exact absurd hopen (ne_none_of_isSome hclosed)
      closed := section_closed hlocal hl.failed hl.closed }

/-!
# A client that reads
-/

def System.behind (l : System) (lost : Bytes) : Bytes :=
  l.toClient ++ (if l.server.writing then queued l.server.tx else []) ++ lost

theorem System.downstream_behind (l : System) (lost : Bytes) :
    l.downstream ++ lost = l.client.input ++ l.behind lost := by
  unfold System.downstream System.behind
  simp only [List.append_assoc]

/-- What a step of the reader is about has not arrived, or is not its business. -/
def System.Starved (l : System) : Client.Step -> Prop
  | Client.Step.readHeader =>
      l.client.reader = Client.ReaderPhase.header -> l.client.input.length < urbHeaderSize
  | Client.Step.readPayload => forall header direction length cancel urb c rest,
      l.client.reader = Client.ReaderPhase.payload header direction length ->
      l.dialogue.unread = Answer.ret cancel urb c :: rest ->
      l.client.input.length < (returned (urb.reply c)).length
  | _ => True

/-- What a look at the stream can come to while the session is open. -/
inductive ReadTurn (l : System) (lost : Bytes) (st : Client.Step) : Session -> Prop where
  | waits : l.Starved st -> ReadTurn l lost st l.client
  | fails : l.client.ended = true -> ReadTurn l lost st
      { l.client with reader := Client.ReaderPhase.failed "server closed the connection" }
  | header {cancel : Nat} {urb : Urb} {c : Completion} {rest : List Answer}
      {direction : Direction} {length : UInt32} {input : Bytes} :
      l.dialogue.unread = Answer.ret cancel urb c :: rest ->
      (urb.serverSubmit c).WellFormed direction length ->
      l.client.input = (urb.serverSubmit c).header ++ input ->
      input ++ l.behind lost = returned (urb.reply c) ++ rest.flatMap Answer.encode ->
      ReadTurn l lost st
        { l.client with
          input := input
          reader := Client.ReaderPhase.payload (urb.reply c).submitHeader direction length }
  | ret {cancel : Nat} {urb : Urb} {c : Completion} {rest : List Answer}
      {header : SubmitHeader} {direction : Direction} {length : UInt32} {input : Bytes} :
      l.dialogue.unread = Answer.ret cancel urb c :: rest ->
      l.client.reader = Client.ReaderPhase.payload header direction length ->
      l.client.input = returned (urb.reply c) ++ input ->
      input ++ l.behind lost = rest.flatMap Answer.encode ->
      ReadTurn l lost st
        { l.client with
          shared := l.client.shared.finishSubmit (urb.reply c)
          input := input
          reader := Client.ReaderPhase.header }
  | unlink {u t : UInt32} {found : Option Nat} {rest : List Answer} {input : Bytes} :
      l.dialogue.unread = Answer.unlink u t found :: rest ->
      l.client.input = (Answer.unlink u t found).encode ++ input ->
      input ++ l.behind lost = rest.flatMap Answer.encode ->
      ReadTurn l lost st
        { l.client with
          shared := l.client.shared.finishUnlink { seqnum := u, status := unlinkStatus found }
          input := input
          reader := Client.ReaderPhase.header }

theorem ReadTurn.short {l : System} (lost : Bytes) {st : Client.Step} (h : l.Starved st) :
    ReadTurn l lost st (l.client.readerFails eof) := by
  rcases readerFails_eof l.client with heq | ⟨hended, heq⟩
  · rw [heq]
    exact ReadTurn.waits h
  · rw [heq]
    exact ReadTurn.fails hended

theorem Dialogue.Ok.requested {d : Dialogue} (hok : d.Ok)
    (hopen : d.client.state.closed = none) {cancel : Nat} {urb : Urb} {c : Completion}
    {rest : List Answer} (hunread : d.unread = Answer.ret cancel urb c :: rest) :
    exists direction length,
      d.client.state.request urb.seqnum = some (direction, length) ∧
        (urb.serverSubmit c).WellFormed direction length := by
  have hmem : Answer.ret cancel urb c ∈ d.unread := hunread ▸ List.mem_cons_self
  rcases hok.sound.answers_issued cancel urb c (Dialogue.mem_unread hmem) with
    ⟨⟨hin, hout, hiso⟩, cmd, hissued, rfl⟩
  rcases hok.agrees.held hopen _ cancel (Dialogue.held_unread hmem rfl) with ⟨p, hp, rfl⟩
  rcases hok.agrees.entries _ p hp with ⟨other, hother, _, hdirection, hlength⟩
  have hsame := hok.sound.replies.submitted_injective p.reply _ _ hissued hother
  subst hsame
  refine ⟨p.direction, p.length, ?_, ?_⟩
  · unfold Client.State.request
    rw [hp]
  · have hurbLength : (urbOf cmd).length = p.length := hlength
    have hisIn : (urbOf cmd).isIn = true <-> p.direction = Direction.in := by
      have hone : (urbOf cmd).isIn = true <-> cmd.direction = 1 := decide_eq_true_iff
      rw [hone, hdirection]
      cases p.direction <;> decide
    exact wellFormed_of_fits hin hout hiso hurbLength hisIn

theorem Downstream.header_eq {answers : List Answer} {bytes : Bytes}
    (h : Downstream Client.ReaderPhase.header answers bytes) :
    bytes = answers.flatMap Answer.encode := by
  cases h
  rfl

theorem Downstream.payload_eq {header : SubmitHeader} {direction : Direction}
    {length : UInt32} {answers : List Answer} {bytes : Bytes}
    (h : Downstream (Client.ReaderPhase.payload header direction length) answers bytes) :
    exists cancel urb c rest, answers = Answer.ret cancel urb c :: rest ∧
      header = (urb.reply c).submitHeader ∧
      (urb.serverSubmit c).WellFormed direction length ∧
      bytes = returned (urb.reply c) ++ rest.flatMap Answer.encode := by
  cases h with
  | payload hwf => exact ⟨_, _, _, _, rfl, rfl, hwf, rfl⟩

theorem ret_encode (cancel : Nat) (urb : Urb) (c : Completion) :
    (Answer.ret cancel urb c).encode =
      (urb.serverSubmit c).header ++ returned (urb.reply c) :=
  Server.retSubmit_eq_encode urb c

theorem System.Sync.readHeader_turn {l : System} (hl : l.Sync)
    (hopen : l.client.shared.state.closed = none) {lost : Bytes}
    (hdown : Downstream l.client.reader l.dialogue.unread (l.downstream ++ lost)) :
    ReadTurn l lost Client.Step.readHeader l.client.readHeader := by
  unfold Session.readHeader
  split
  case h_2 hother => exact ReadTurn.waits fun hreader => absurd hreader hother
  rename_i hreader
  rw [hreader, System.downstream_behind] at hdown
  have hbytes := hdown.header_eq
  by_cases hshort : l.client.input.length < urbHeaderSize
  · rw [lookupReply_short hshort]
    exact ReadTurn.short lost fun _ => hshort
  · have hlong := Nat.not_lt.mp hshort
    rcases flatMap_ne_nil hbytes (by decide) hlong with ⟨a, rest, hunread⟩
    rw [hunread, List.flatMap_cons] at hbytes
    cases a with
    | ret cancel urb c =>
        rcases hl.ok.requested hopen hunread with ⟨direction, length, hrequest, hwf⟩
        have hheader := (urb.serverSubmit c).header_length
        rw [ret_encode, List.append_assoc] at hbytes
        rcases front_of_length hbytes (Nat.le_trans (Nat.le_of_eq hheader) hlong) with
          ⟨input, hinput, htail⟩
        have hlook := Client.lookupReply_header (s := l.client.shared)
          (r := urb.serverSubmit c) hrequest hwf.packets_le input
        rw [hinput, hlook]
        exact ReadTurn.header hunread hwf hinput htail
    | unlink u t found =>
        have hencode : (Answer.unlink u t found).encode =
            (Server.serverUnlink u (unlinkStatus found)).encode :=
          Server.retUnlink_eq_encode u _
        have hlength := (Server.serverUnlink u (unlinkStatus found)).encode_length
        rw [hencode] at hbytes
        rcases front_of_length hbytes (Nat.le_trans (Nat.le_of_eq hlength) hlong) with
          ⟨input, hinput, htail⟩
        rw [hinput, Client.lookupReply_retUnlink]
        dsimp only
        rw [hreader]
        rw [← hencode] at hinput
        exact ReadTurn.unlink hunread hinput htail

theorem System.readPayload_turn {l : System} {lost : Bytes}
    (hdown : Downstream l.client.reader l.dialogue.unread (l.downstream ++ lost)) :
    ReadTurn l lost Client.Step.readPayload l.client.readPayload := by
  unfold Session.readPayload
  split
  case h_2 hother =>
    apply ReadTurn.waits
    intro header direction length _ _ _ _ hreader
    exact absurd hreader (hother header direction length)
  rename_i hreader
  rw [hreader, System.downstream_behind] at hdown
  rcases hdown.payload_eq with ⟨cancel, urb, c, rest, hunread, rfl, hwf, hbytes⟩
  have hsame : (urb.serverSubmit c).ret.submitHeader = (urb.reply c).submitHeader := rfl
  by_cases hshort : l.client.input.length < (returned (urb.reply c)).length
  · have herror := removeReply_short l.client.shared (r := urb.serverSubmit c) hwf hshort
    rw [hsame] at herror
    rw [herror]
    apply ReadTurn.short
    intro _ _ _ _ urb' c' rest' _ hunread'
    rw [hunread] at hunread'
    cases hunread'
    exact hshort
  · rcases front_of_length hbytes (Nat.not_lt.mp hshort) with ⟨input, hinput, htail⟩
    have hok := Client.removeReply_ret l.client.shared (r := urb.serverSubmit c) hwf input
    have hpayload : l.client.input = (urb.serverSubmit c).ret.data ++
        ((urb.serverSubmit c).ret.isoPackets.flatMap IsoPacketDescriptor.encode ++ input) := by
      rw [hinput, returned, List.append_assoc]
      rfl
    rw [hsame] at hok
    rw [hpayload, hok]
    exact ReadTurn.ret hunread hreader hinput htail

theorem System.Sync.read_turn {l : System} (hl : l.Sync) {st : Client.Step}
    (hreads : st.reads = true) (hopen : l.client.shared.state.closed = none) {lost : Bytes}
    (hdown : Downstream l.client.reader l.dialogue.unread (l.downstream ++ lost)) :
    ReadTurn l lost st (l.client.step st) := by
  cases st with
  | readHeader => exact hl.readHeader_turn hopen hdown
  | readPayload => exact System.readPayload_turn hdown
  | _ => cases hreads

theorem ReadTurn.moved {l : System} {lost : Bytes} {st : Client.Step} {s : Session}
    (h : ReadTurn l lost st s) :
    Moved l.dialogue ⟨sent s.shared, l.server.urbs⟩ := by
  have hread : forall {a : Answer} {rest : List Answer} {shared : Shared},
      l.dialogue.unread = a :: rest -> readAnswer l.dialogue.client a = sent shared ->
      ordersOf (sent shared) = ordersOf l.dialogue.client ->
      Moved l.dialogue ⟨sent shared, l.server.urbs⟩ := by
    intro a rest shared hunread hanswer horders
    have hsame : l.dialogue.step Move.read = ⟨sent shared, l.server.urbs⟩ := by
      simp only [Dialogue.step, Dialogue.read, hunread]
      rw [hanswer]
      rfl
    refine Or.inr ⟨Move.read, ?_, hsame.symm⟩
    apply Dialogue.allowed_of_quiet
    · rw [hsame]
      exact horders
    · intro address outcome hm
      cases hm
  cases h with
  | waits _ => exact Or.inl rfl
  | fails _ => exact Or.inl rfl
  | header _ _ _ _ => exact Or.inl rfl
  | ret hunread _ _ _ =>
      apply hread hunread rfl
      rw [ordersOf_cons (s := l.dialogue.client) rfl]
      exact List.append_nil _
  | unlink hunread _ _ =>
      apply hread hunread (sent_finishUnlink _ _)
      show ordersOf (l.client.shared.finishUnlink _) = ordersOf l.client.shared
      rw [ordersOf_cons (l.client.shared.finishUnlink_log _)]
      exact List.append_nil _

theorem ReadTurn.downstream {l : System} {lost : Bytes} {st : Client.Step} {s : Session}
    (h : ReadTurn l lost st s)
    (hdown : Downstream l.client.reader l.dialogue.unread (l.downstream ++ lost)) :
    Downstream s.reader (Dialogue.mk (sent s.shared) l.server.urbs).unread
      (s.input ++ l.behind lost) := by
  cases h with
  | waits _ =>
      rw [← System.downstream_behind]
      exact hdown
  | fails _ => exact Downstream.failed
  | header hunread hwf _ hbytes =>
      rw [hbytes]
      show Downstream _ l.dialogue.unread _
      rw [hunread]
      exact Downstream.payload hwf
  | @ret _ urb c rest _ _ _ _ hunread _ _ hbytes =>
      have hrest : (Dialogue.mk (sent (l.client.shared.finishSubmit (urb.reply c)))
          l.server.urbs).unread = rest :=
        Dialogue.unread_read (d := l.dialogue) rfl rfl hunread
      rw [hbytes]
      dsimp only
      rw [hrest]
      exact Downstream.header
  | @unlink u t found rest _ hunread _ hbytes =>
      have hrest : (Dialogue.mk (sent (l.client.shared.finishUnlink
          { seqnum := u, status := unlinkStatus found })) l.server.urbs).unread = rest :=
        Dialogue.unread_read (d := l.dialogue) (l.client.shared.finishUnlink_log _) rfl hunread
      rw [hbytes]
      dsimp only
      rw [hrest]
      exact Downstream.header

theorem ReadTurn.failed {l : System} {lost : Bytes} {st : Client.Step} {s : Session}
    (h : ReadTurn l lost st s)
    (hold : forall reason, l.client.reader = Client.ReaderPhase.failed reason ->
      Benign reason) :
    forall reason, s.reader = Client.ReaderPhase.failed reason -> Benign reason := by
  intro reason hreader
  cases h with
  | waits _ => exact hold reason hreader
  | fails _ =>
      cases hreader
      exact Benign.byServer
  | header _ _ _ _ => cases hreader
  | ret _ _ _ _ => cases hreader
  | unlink _ _ _ => cases hreader

inductive ReadSection (s : Session) : Shared -> Prop where
  | same : ReadSection s s.shared
  | ret (ret : RetSubmit) : ReadSection s (s.shared.finishSubmit ret)
  | unlink (ret : RetUnlink) : ReadSection s (s.shared.finishUnlink ret)

theorem step_reads (s : Session) {st : Client.Step} (hreads : st.reads = true) :
    ReadSection s (s.step st).shared := by
  cases st with
  | readHeader =>
      rcases s.readHeader_shared with heq | ⟨ret, heq⟩
      · show ReadSection s s.readHeader.shared
        rw [heq]
        exact ReadSection.same
      · show ReadSection s s.readHeader.shared
        rw [heq]
        exact ReadSection.unlink ret
  | readPayload =>
      rcases s.readPayload_shared with heq | ⟨ret, heq⟩
      · show ReadSection s s.readPayload.shared
        rw [heq]
        exact ReadSection.same
      · show ReadSection s s.readPayload.shared
        rw [heq]
        exact ReadSection.ret ret
  | _ => cases hreads

theorem ReadSection.orders {s : Session} {shared : Shared} (h : ReadSection s shared) :
    ordersOf shared = ordersOf s.shared := by
  cases h with
  | same => rfl
  | ret ret =>
      rw [ordersOf_cons (s := s.shared) rfl]
      exact List.append_nil _
  | unlink ret =>
      rw [ordersOf_cons (s := s.shared) (s.shared.finishUnlink_log ret)]
      exact List.append_nil _

theorem ReadSection.kept {s : Session} {shared : Shared} (h : ReadSection s shared) :
    shared.devid = s.shared.devid ∧ shared.state.closed = s.shared.state.closed := by
  cases h with
  | same => exact ⟨rfl, rfl⟩
  | ret ret => exact ⟨rfl, rfl⟩
  | unlink ret =>
      refine ⟨?_, finishUnlink_closed s.shared ret⟩
      unfold Shared.finishUnlink
      dsimp only
      split
      · rfl
      · split <;> rfl

theorem ReadSection.late {s : Session} {shared : Shared} (h : ReadSection s shared)
    (hclosed : s.shared.state.closed.isSome = true) (u : Urbs) :
    Moved ⟨sent s.shared, u⟩ ⟨sent shared, u⟩ := by
  have hsent : (sent s.shared).state.closed.isSome = true := hclosed
  have horders := h.orders
  cases h with
  | same => exact Or.inl rfl
  | ret ret =>
      have hsame : (Dialogue.mk (sent s.shared) u).step (Move.lateRet ret) =
          ⟨sent (s.shared.finishSubmit ret), u⟩ := by
        simp only [Dialogue.step, hsent, if_true]
        rfl
      refine Or.inr ⟨Move.lateRet ret, ?_, hsame.symm⟩
      apply Dialogue.allowed_of_quiet
      · rw [hsame]
        exact horders
      · intro address outcome hm
        cases hm
  | unlink ret =>
      have hsame : (Dialogue.mk (sent s.shared) u).step (Move.lateUnlink ret) =
          ⟨sent (s.shared.finishUnlink ret), u⟩ := by
        simp only [Dialogue.step, hsent, if_true, sent_finishUnlink]
      refine Or.inr ⟨Move.lateUnlink ret, ?_, hsame.symm⟩
      apply Dialogue.allowed_of_quiet
      · rw [hsame]
        exact horders
      · intro address outcome hm
        cases hm

theorem System.Sync.client_reads {l : System} (hl : l.Sync) {st : Client.Step}
    (hreads : st.reads = true) :
    (l.clientStep st).Sync ∧ Moved l.dialogue (l.clientStep st).dialogue := by
  have hsection := step_reads l.client hreads
  rcases hsection.kept with ⟨hdevid, hclosed⟩
  have hturn : l.client.shared.state.closed = none -> exists lost,
      Downstream l.client.reader l.dialogue.unread (l.downstream ++ lost) ∧
        (l.server.writing = true -> lost = []) ∧ ReadTurn l lost st (l.client.step st) := by
    intro hopen
    rcases hl.downstream hopen with ⟨lost, hdown, hlost⟩
    exact ⟨lost, hdown, hlost, hl.read_turn hreads hopen hdown⟩
  have hmoved : Moved l.dialogue (l.clientStep st).dialogue := by
    cases hopen : l.client.shared.state.closed with
    | none =>
        rcases hturn hopen with ⟨lost, _, _, hread⟩
        exact hread.moved
    | some reason =>
        apply hsection.late
        rw [hopen]
        rfl
  refine ⟨?_, hmoved⟩
  exact
    { ok := hmoved.turn.ok hl.ok
      output := hl.output.step st
      devid := hl.devid.trans hdevid.symm
      good := hl.good_client hmoved hdevid fun o ho => by
        rw [newOrders_of_eq hsection.orders] at ho
        cases ho
      upstream := hl.upstream_client hmoved
      downstream := by
        intro hopen
        rcases hturn (hclosed ▸ hopen) with ⟨lost, hdown, hlost, hread⟩
        refine ⟨lost, ?_, hlost⟩
        rw [System.downstream_behind]
        have hbehind : (l.clientStep st).behind lost = l.behind lost := rfl
        rw [hbehind]
        exact hread.downstream hdown
      tx := hl.tx
      clean := hl.clean
      failed := by
        intro hopen
        have hbefore : l.client.shared.state.closed = none := hclosed ▸ hopen
        rcases hturn hbefore with ⟨lost, _, _, hread⟩
        exact hread.failed (hl.failed hbefore)
      closed := by
        intro reason hreason
        apply hl.closed reason
        rw [← hclosed]
        exact hreason }

/-- A step of the client is a move of the dialogue, and keeps the two levels in step. -/
theorem System.Sync.client {l : System} (hl : l.Sync) {st : Client.Step}
    (hown : isOwn st = true) (hallowed : l.Allowed (Step.client st)) :
    (l.clientStep st).Sync ∧ Moved l.dialogue (l.clientStep st).dialogue := by
  cases hreads : st.reads with
  | true => exact hl.client_reads hreads
  | false => exact hl.client_quiet hown hreads hallowed

end Link
end UsbIp
