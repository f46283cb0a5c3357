import UsbIp.Link.Refinement

/-!
# The server's part of the dialogue

The loop of the server takes the orders that the client gives, one after the
other and each for what it is, and finds nothing wrong with them.  What its
loop, its workers and its writer do is a move of the dialogue or none, and
keeps the answers under way in step with the bytes.
-/

namespace UsbIp
namespace Link

open Foundation
open Protocol
open Client (Shared SubmitRequest Session ExportedDevice)
open Server (Urb Urbs Answer Outcome Completion Job Connection urbOf unlinkStatus)

/-!
# A new state of the server
-/

def System.upTo (l : System) (s : Connection) : Bytes :=
  l.client.input ++
    (l.toClient ++ s.written.drop l.server.written.length ++
      (if s.writing then queued s.tx else []))

/-- The new state of the server goes with the old state of everything else. -/
structure System.Serves (l : System) (s : Connection) : Prop where
  moved : Moved l.dialogue ⟨sent l.client.shared, s.urbs⟩
  devid : s.devid = l.server.devid
  endpoints : s.endpoints = l.server.endpoints
  upstream : Upstream s.phase (Dialogue.mk (sent l.client.shared) s.urbs).orders
    (s.input ++ (l.toServer ++ (l.client.batch ++ l.client.shared.frames.flatten)))
  downstream : l.client.shared.state.closed = none -> exists lost,
    Downstream l.client.reader (Dialogue.mk (sent l.client.shared) s.urbs).unread
      (l.upTo s ++ lost) ∧ (s.writing = true -> lost = [])
  tx : s.writing = true -> (none ∈ s.tx <-> s.urbs.ended = true)
  clean : s.violations = []

theorem System.Sync.server_of {l : System} (hl : l.Sync) {st : Server.Step}
    (h : l.Serves (l.server.step st)) :
    (l.serverStep st).Sync ∧ Moved l.dialogue (l.serverStep st).dialogue := by
  refine ⟨?_, h.moved⟩
  exact
    { ok := h.moved.turn.ok hl.ok
      output := hl.output
      devid := h.devid.trans hl.devid
      good := by
        intro o ho
        have hgood := hl.good o ho
        show OrderGood l.client.shared.devid (l.server.step st).endpoints o
        rw [h.endpoints]
        exact hgood
      upstream := h.upstream
      downstream := h.downstream
      tx := h.tx
      clean := h.clean
      failed := hl.failed
      closed := hl.closed }

/-!
# What the server queues for its writer
-/

theorem Downstream.append {reader : Client.ReaderPhase} {answers : List Answer}
    {bytes : Bytes} (h : Downstream reader answers bytes) (new : List Answer) :
    Downstream reader (answers ++ new) (bytes ++ new.flatMap Answer.encode) := by
  cases h with
  | header =>
      rw [← List.flatMap_append]
      exact Downstream.header
  | payload hwf =>
      rw [List.append_assoc, ← List.flatMap_append]
      exact Downstream.payload hwf
  | failed => exact Downstream.failed
  | stopped => exact Downstream.stopped

theorem System.Sync.queue {l : System} (hl : l.Sync) {s : Connection}
    (more : List (Option Bytes)) (new : List Answer)
    (hwritten : s.written = l.server.written) (hwriting : s.writing = l.server.writing)
    (htx : s.tx = l.server.tx ++ more)
    (hunread : l.client.shared.state.closed = none ->
      (Dialogue.mk (sent l.client.shared) s.urbs).unread = l.dialogue.unread ++ new)
    (hmore : l.server.writing = true ->
      queued (l.server.tx ++ more) = queued l.server.tx ++ new.flatMap Answer.encode) :
    l.client.shared.state.closed = none -> exists lost,
      Downstream l.client.reader (Dialogue.mk (sent l.client.shared) s.urbs).unread
        (l.upTo s ++ lost) ∧ (s.writing = true -> lost = []) := by
  intro hopen
  rcases hl.downstream hopen with ⟨lost, hdown, hlost⟩
  have hnext := hdown.append new
  have hdrop : l.server.written.drop l.server.written.length = [] := List.drop_length
  rw [hunread hopen]
  unfold System.upTo
  rw [hwritten, hwriting, htx, hdrop, List.append_nil]
  unfold System.downstream at hnext
  cases hw : l.server.writing with
  | true =>
      rw [hw] at hnext
      have hnone := hlost hw
      refine ⟨[], ?_, fun _ => rfl⟩
      rw [hnone] at hnext
      simp only [if_true, List.append_nil, List.append_assoc] at hnext ⊢
      rw [hmore hw]
      exact hnext
  | false =>
      rw [hw] at hnext
      refine ⟨lost ++ new.flatMap Answer.encode, ?_, ?_⟩
      · simp only [List.append_assoc] at hnext ⊢
        exact hnext
      · intro h
        cases h

theorem System.Sync.quiet {l : System} (hl : l.Sync) {s : Connection}
    (hwritten : s.written = l.server.written) (hwriting : s.writing = l.server.writing)
    (htx : s.tx = l.server.tx) (hanswers : s.urbs.answers = l.server.urbs.answers) :
    l.client.shared.state.closed = none -> exists lost,
      Downstream l.client.reader (Dialogue.mk (sent l.client.shared) s.urbs).unread
        (l.upTo s ++ lost) ∧ (s.writing = true -> lost = []) := by
  apply hl.queue [] [] hwritten hwriting
  · rw [htx, List.append_nil]
  · intro _
    rw [List.append_nil]
    exact Dialogue.unread_server (d := l.dialogue) hanswers
  · intro _
    rw [List.append_nil, List.flatMap_nil, List.append_nil]

theorem queued_append_end (tx : List (Option Bytes)) : queued (tx ++ [none]) = queued tx := by
  by_cases h : none ∈ tx
  · exact queued_append_ended h _
  · rw [queued_append_open h]
    exact List.append_nil _

theorem queued_append_added {u : Urbs} {tx : List (Option Bytes)}
    (h : none ∈ tx <-> u.ended = true) (a : Answer) :
    queued (tx ++ [some a.encode]) = queued tx ++ (added u a).flatMap Answer.encode := by
  unfold added
  cases hended : u.ended with
  | true =>
      rw [queued_append_ended (h.mpr hended)]
      exact (List.append_nil _).symm
  | false =>
      have hnone : none ∉ tx := fun hmem => by
        rw [h.mp hmem] at hended
        cases hended
      rw [queued_append_open hnone]
      rfl

theorem mem_append_some {tx : List (Option Bytes)} {bytes : Bytes} :
    none ∈ tx ++ [some bytes] <-> none ∈ tx := by
  simp

/-!
# The loop
-/

theorem moved_server {l : System} {m : Move} {u : Urbs}
    (hstep : l.dialogue.step m = ⟨sent l.client.shared, u⟩)
    (hfits : forall address outcome, m = Move.finish address outcome ->
      outcomeFits l.server.urbs address outcome) :
    Moved l.dialogue ⟨sent l.client.shared, u⟩ := by
  refine Or.inr ⟨m, ?_, hstep.symm⟩
  apply Dialogue.allowed_of_quiet
  · rw [hstep]
    rfl
  · exact hfits

theorem System.Sync.serves_same {l : System} (hl : l.Sync) : l.Serves l.server where
  moved := Or.inl rfl
  devid := rfl
  endpoints := rfl
  upstream := hl.upstream
  downstream := hl.quiet rfl rfl rfl rfl
  tx := hl.tx
  clean := hl.clean

theorem System.Sync.serves_stop {l : System} (hl : l.Sync) : l.Serves l.server.stop where
  moved := by
    apply moved_server (m := Move.stop) rfl
    intro address outcome hm
    cases hm
  devid := rfl
  endpoints := rfl
  upstream := Upstream.stopped
  downstream := hl.queue [none] [] rfl rfl rfl (fun _ => (List.append_nil _).symm)
    fun _ => (queued_append_end _).trans (List.append_nil _).symm
  tx := by
    intro _
    refine ⟨fun _ => rfl, fun _ => ?_⟩
    exact List.mem_append_right _ List.mem_cons_self
  clean := hl.clean

theorem Upstream.header_eq {orders : List Order} {bytes : Bytes}
    (h : Upstream Server.Phase.header orders bytes) : bytes = orders.flatMap Order.encode := by
  cases h
  rfl

theorem Upstream.body_eq {urb : Urb} {orders : List Order} {bytes : Bytes}
    (h : Upstream (Server.Phase.body urb) orders bytes) :
    exists reply cmd rest, orders = Order.submit reply cmd :: rest ∧
      urb = (urbOf cmd).bare ∧ bytes = payloadOf cmd ++ rest.flatMap Order.encode := by
  cases h with
  | body => exact ⟨_, _, _, rfl, rfl, rfl⟩

theorem System.Sync.good_head {l : System} (hl : l.Sync) {o : Order} {rest : List Order}
    (horders : l.dialogue.orders = o :: rest) :
    OrderGood l.server.devid l.server.endpoints o ∧ o.seqnum ∉ l.server.urbs.pending := by
  have hmem : o ∈ l.dialogue.orders := horders ▸ List.mem_cons_self
  refine ⟨?_, hl.ok.sound.order_not_pending hmem⟩
  rw [hl.devid]
  exact hl.good o (Dialogue.mem_orders hmem)

theorem System.Sync.serves_header {l : System} (hl : l.Sync) {reply : Nat}
    {cmd : CmdSubmit} {rest : List Order} {input : Bytes}
    (horders : l.dialogue.orders = Order.submit reply cmd :: rest)
    (hbytes : input ++ (l.toServer ++ (l.client.batch ++ l.client.shared.frames.flatten)) =
      payloadOf cmd ++ rest.flatMap Order.encode) :
    l.Serves
      { l.server with input := input, phase := Server.Phase.body (urbOf cmd).bare } where
  moved := Or.inl rfl
  devid := rfl
  endpoints := rfl
  upstream := by
    show Upstream _ l.dialogue.orders _
    rw [horders, hbytes]
    exact Upstream.body
  downstream := hl.quiet rfl rfl rfl rfl
  tx := hl.tx
  clean := hl.clean

theorem System.Sync.serves_submit {l : System} (hl : l.Sync) {reply : Nat}
    {cmd : CmdSubmit} {rest : List Order} {input : Bytes}
    (horders : l.dialogue.orders = Order.submit reply cmd :: rest)
    (hbytes : input ++ (l.toServer ++ (l.client.batch ++ l.client.shared.frames.flatten)) =
      rest.flatMap Order.encode) :
    l.Serves
      { l.server with
        input := input
        urbs := l.server.urbs.submit (urbOf cmd)
        phase := Server.Phase.header } where
  moved := by
    apply moved_server (m := Move.take)
    · simp only [Dialogue.step, Dialogue.take, horders]
      rfl
    · intro address outcome hm
      cases hm
  devid := rfl
  endpoints := rfl
  upstream := by
    have hrest : (Dialogue.mk (sent l.client.shared)
        (l.server.urbs.submit (urbOf cmd))).orders = rest :=
      Dialogue.orders_take (d := l.dialogue) (l.server.urbs.submit_taken _) horders
    dsimp only
    rw [hrest, hbytes]
    exact Upstream.header
  downstream := hl.quiet rfl rfl rfl rfl
  tx := hl.tx
  clean := hl.clean

theorem System.Sync.serves_unlink {l : System} (hl : l.Sync) {reply : Nat}
    {cmd : CmdUnlink} {rest : List Order} {input : Bytes}
    (hphase : l.server.phase = Server.Phase.header)
    (horders : l.dialogue.orders = Order.unlink reply cmd :: rest)
    (hbytes : input ++ (l.toServer ++ (l.client.batch ++ l.client.shared.frames.flatten)) =
      rest.flatMap Order.encode) :
    l.Serves
      { l.server with
        input := input
        urbs := l.server.urbs.unlink cmd.seqnum cmd.unlinkSeqnum
        tx := l.server.tx ++ [some
          (Answer.unlink cmd.seqnum cmd.unlinkSeqnum
            (l.server.urbs.pending.lookup cmd.unlinkSeqnum)).encode] } where
  moved := by
    apply moved_server (m := Move.take)
    · simp only [Dialogue.step, Dialogue.take, horders]
      rfl
    · intro address outcome hm
      cases hm
  devid := rfl
  endpoints := rfl
  upstream := by
    have hrest : (Dialogue.mk (sent l.client.shared)
        (l.server.urbs.unlink cmd.seqnum cmd.unlinkSeqnum)).orders = rest :=
      Dialogue.orders_take (d := l.dialogue) (l.server.urbs.unlink_taken _ _) horders
    dsimp only
    rw [hrest, hbytes, hphase]
    exact Upstream.header
  downstream := hl.queue [_] _ rfl rfl rfl
    (fun hopen => Dialogue.unread_unlink (d := l.dialogue) (hl.ok.sound.reads_le hopen))
    fun hwriting => queued_append_added (hl.tx hwriting) _
  tx := by
    intro hwriting
    rw [mem_append_some]
    exact (hl.tx hwriting).trans (by rw [Urbs.unlink_ended])
  clean := hl.clean

/-- What the loop can come to when it looks for its next message. -/
inductive ServeTurn (l : System) : Connection -> Prop where
  | stopped : l.server.phase = Server.Phase.stopped -> ServeTurn l l.server
  | waitsHeader : l.server.phase = Server.Phase.header ->
      l.server.input.length < urbHeaderSize -> ServeTurn l l.server
  | waitsBody {reply : Nat} {cmd : CmdSubmit} {rest : List Order} {urb : Urb} :
      l.server.phase = Server.Phase.body urb ->
      l.dialogue.orders = Order.submit reply cmd :: rest ->
      l.upstream = payloadOf cmd ++ rest.flatMap Order.encode ->
      l.server.input.length < (payloadOf cmd).length -> ServeTurn l l.server
  | header {reply : Nat} {cmd : CmdSubmit} {rest : List Order} {input : Bytes} :
      l.server.phase = Server.Phase.header ->
      l.dialogue.orders = Order.submit reply cmd :: rest ->
      l.server.input = cmd.header ++ input ->
      input ++ (l.toServer ++ (l.client.batch ++ l.client.shared.frames.flatten)) =
        payloadOf cmd ++ rest.flatMap Order.encode ->
      ServeTurn l
        { l.server with input := input, phase := Server.Phase.body (urbOf cmd).bare }
  | submit {reply : Nat} {cmd : CmdSubmit} {rest : List Order} {urb : Urb} {input : Bytes} :
      l.server.phase = Server.Phase.body urb ->
      l.dialogue.orders = Order.submit reply cmd :: rest ->
      l.server.input = payloadOf cmd ++ input ->
      input ++ (l.toServer ++ (l.client.batch ++ l.client.shared.frames.flatten)) =
        rest.flatMap Order.encode ->
      ServeTurn l
        { l.server with
          input := input
          urbs := l.server.urbs.submit (urbOf cmd)
          phase := Server.Phase.header }
  | unlink {reply : Nat} {cmd : CmdUnlink} {rest : List Order} {input : Bytes} :
      l.server.phase = Server.Phase.header ->
      l.dialogue.orders = Order.unlink reply cmd :: rest ->
      l.server.input = cmd.encode ++ input ->
      input ++ (l.toServer ++ (l.client.batch ++ l.client.shared.frames.flatten)) =
        rest.flatMap Order.encode ->
      ServeTurn l
        { l.server with
          input := input
          urbs := l.server.urbs.unlink cmd.seqnum cmd.unlinkSeqnum
          tx := l.server.tx ++ [some
            (Answer.unlink cmd.seqnum cmd.unlinkSeqnum
              (l.server.urbs.pending.lookup cmd.unlinkSeqnum)).encode] }

theorem System.Sync.serve_turn {l : System} (hl : l.Sync) : ServeTurn l l.server.read := by
  have hup := hl.upstream
  cases hphase : l.server.phase with
  | stopped =>
      have hsame : l.server.read = l.server := by
        unfold Connection.read
        rw [hphase]
      rw [hsame]
      exact ServeTurn.stopped hphase
  | header =>
      rw [hphase] at hup
      have hbytes := hup.header_eq
      unfold System.upstream at hbytes
      by_cases hshort : l.server.input.length < urbHeaderSize
      · rw [read_header_short hphase hshort]
        exact ServeTurn.waitsHeader hphase hshort
      · have hlong := Nat.not_lt.mp hshort
        rcases flatMap_ne_nil hbytes (by decide) hlong with ⟨o, rest, horders⟩
        rcases hl.good_head horders with ⟨hgood, hnew⟩
        rw [horders, List.flatMap_cons] at hbytes
        cases o with
        | submit reply cmd =>
            have hencode : (Order.submit reply cmd).encode = cmd.header ++ payloadOf cmd := rfl
            rw [hencode, List.append_assoc] at hbytes
            rcases front_of_length hbytes
              (Nat.le_trans (Nat.le_of_eq cmd.header_length) hlong) with
              ⟨input, hinput, htail⟩
            rw [Connection.read_header hphase hinput hgood.devid hnew hgood.polite]
            exact ServeTurn.header hphase horders hinput htail
        | unlink reply cmd =>
            have hencode : (Order.unlink reply cmd).encode = cmd.encode := rfl
            rw [hencode] at hbytes
            rcases front_of_length hbytes
              (Nat.le_trans (Nat.le_of_eq cmd.encode_length) hlong) with
              ⟨input, hinput, htail⟩
            rw [Connection.read_unlink hphase hinput hgood.devid hnew]
            exact ServeTurn.unlink hphase horders hinput htail
  | body urb =>
      rw [hphase] at hup
      rcases hup.body_eq with ⟨reply, cmd, rest, horders, rfl, hbytes⟩
      rcases hl.good_head horders with ⟨hgood, _⟩
      by_cases hshort : l.server.input.length < (payloadOf cmd).length
      · rw [read_body_short hphase hgood.framed hgood.polite hshort]
        exact ServeTurn.waitsBody hphase horders hbytes hshort
      · have hstream := hbytes
        unfold System.upstream at hstream
        rcases front_of_length hstream (Nat.not_lt.mp hshort) with ⟨input, hinput, htail⟩
        have hpieces := hinput
        rw [payloadOf, List.append_assoc] at hpieces
        rw [Connection.read_body hphase hpieces hgood.framed hgood.polite]
        exact ServeTurn.submit hphase horders hinput htail

theorem System.Sync.serves_read {l : System} (hl : l.Sync) : l.Serves l.server.read := by
  have hturn := hl.serve_turn
  generalize l.server.read = s at hturn
  cases hturn with
  | stopped _ => exact hl.serves_same
  | waitsHeader _ _ => exact hl.serves_same
  | waitsBody _ _ _ _ => exact hl.serves_same
  | header _ horders _ hbytes => exact hl.serves_header horders hbytes
  | submit _ horders _ hbytes => exact hl.serves_submit horders hbytes
  | unlink hphase horders _ hbytes => exact hl.serves_unlink hphase horders hbytes

/-!
# The workers
-/

theorem System.Sync.serves_worker {l : System} (hl : l.Sync) {u : Urbs}
    (more : List (Option Bytes)) (new : List Answer)
    (hmoved : Moved l.dialogue ⟨sent l.client.shared, u⟩)
    (htaken : u.taken = l.server.urbs.taken)
    (hanswers : u.answers = l.server.urbs.answers ++ new)
    (hmore : l.server.writing = true ->
      queued (l.server.tx ++ more) = queued l.server.tx ++ new.flatMap Answer.encode)
    (htx : l.server.writing = true ->
      (none ∈ l.server.tx ++ more <-> u.ended = true)) :
    l.Serves { l.server with urbs := u, tx := l.server.tx ++ more } where
  moved := hmoved
  devid := rfl
  endpoints := rfl
  upstream := by
    have hsame : (Dialogue.mk (sent l.client.shared) u).orders = l.dialogue.orders :=
      Dialogue.orders_server (d := l.dialogue) htaken
    dsimp only
    rw [hsame]
    exact hl.upstream
  downstream := by
    refine hl.queue more new rfl rfl rfl ?_ hmore
    intro hopen
    have hreads : readsOf l.client.shared ≤ l.server.urbs.answers.length :=
      hl.ok.sound.reads_le hopen
    unfold Dialogue.unread
    dsimp only
    rw [hanswers]
    exact drop_concat hreads new
  tx := htx
  clean := hl.clean

theorem System.Sync.serves_finish {l : System} (hl : l.Sync) {address : UInt8}
    {outcome : Outcome} (hfits : outcomeFits l.server.urbs address outcome) :
    l.Serves (l.server.finish address outcome) := by
  have hmoved : Moved l.dialogue
      ⟨sent l.client.shared, (l.server.urbs.finish address outcome).1⟩ := by
    apply moved_server (m := Move.finish address outcome) rfl
    intro other given hm
    cases hm
    exact hfits
  have hquiet : (l.server.urbs.finish address outcome).1.taken = l.server.urbs.taken ->
      (l.server.urbs.finish address outcome).1.answers = l.server.urbs.answers ->
      (l.server.urbs.finish address outcome).1.ended = l.server.urbs.ended ->
      (l.server.urbs.finish address outcome).2 = none ->
      l.Serves (l.server.finish address outcome) := by
    intro htaken hanswers hended hnone
    unfold Connection.finish
    rw [hnone]
    apply hl.serves_worker [] [] hmoved htaken
    · rw [hanswers, List.append_nil]
    · intro _
      rw [List.append_nil, List.flatMap_nil, List.append_nil]
    · intro hwriting
      rw [List.append_nil, hended]
      exact hl.tx hwriting
  rcases l.server.urbs.finish_cases address outcome with
    hsame | ⟨front, job, back, _, hfind, _, _, ⟨_, hfinish⟩ | ⟨cancel, _, hfinish⟩⟩
  · rw [hsame] at hquiet
    exact hquiet rfl rfl rfl rfl
  · rw [hfinish] at hquiet
    exact hquiet rfl rfl rfl rfl
  · have hfit := hfits job hfind
    unfold Connection.finish
    cases hout : job.outcome outcome with
    | raw bytes =>
        rw [hout] at hfit
        cases hfit
    | complete c =>
        rw [hout] at hfinish
        rw [hfinish] at hmoved ⊢
        apply hl.serves_worker [some (Answer.ret job.cancel job.urb c).encode] _ hmoved
        · exact (Urbs.put_taken _ _).trans (takeOut_taken _ front job back)
        · exact put_answers _ _
        · intro hwriting
          exact queued_append_added (hl.tx hwriting) _
        · intro hwriting
          rw [mem_append_some]
          exact (hl.tx hwriting).trans (by rw [Urbs.answer, Urbs.put_ended])
    | disconnect =>
        rw [hout] at hfinish
        rw [hfinish] at hmoved ⊢
        apply hl.serves_worker [none] [] hmoved
        · exact takeOut_taken _ front job back
        · exact (List.append_nil _).symm
        · intro _
          exact (queued_append_end _).trans (List.append_nil _).symm
        · intro _
          exact ⟨fun _ => rfl, fun _ => List.mem_append_right _ List.mem_cons_self⟩

theorem System.Sync.serves_skip {l : System} (hl : l.Sync) (address : UInt8) :
    l.Serves { l.server with urbs := l.server.urbs.skip address } := by
  have hmoved : Moved l.dialogue ⟨sent l.client.shared, l.server.urbs.skip address⟩ := by
    apply moved_server (m := Move.skip address) rfl
    intro other given hm
    cases hm
  have hkept : (l.server.urbs.skip address).taken = l.server.urbs.taken ∧
      (l.server.urbs.skip address).answers = l.server.urbs.answers ∧
      (l.server.urbs.skip address).ended = l.server.urbs.ended := by
    rcases l.server.urbs.skip_cases address with hsame | ⟨front, job, back, _, _, _, hskip⟩
    · rw [hsame]
      exact ⟨rfl, rfl, rfl⟩
    · rw [hskip]
      exact ⟨rfl, rfl, rfl⟩
  rcases hkept with ⟨htaken, hanswers, hended⟩
  have hserves := hl.serves_worker [] [] hmoved htaken
    (by rw [hanswers, List.append_nil])
    (fun _ => by rw [List.append_nil, List.flatMap_nil, List.append_nil])
    (fun hwriting => by rw [List.append_nil, hended]; exact hl.tx hwriting)
  rw [List.append_nil] at hserves
  exact hserves

/-!
# The writer
-/

theorem System.Sync.serves_writer {l : System} (hl : l.Sync) (tx : List (Option Bytes))
    (writing : Bool) (more lost : Bytes) (hbefore : l.server.writing = true)
    (hbytes : more ++ ((if writing then queued tx else []) ++ lost) = queued l.server.tx)
    (hlost : writing = true -> lost = [])
    (htx : writing = true -> (none ∈ tx <-> l.server.urbs.ended = true)) :
    l.Serves
      { l.server with tx := tx, writing := writing, written := l.server.written ++ more } where
  moved := Or.inl rfl
  devid := rfl
  endpoints := rfl
  upstream := hl.upstream
  downstream := by
    intro hopen
    rcases hl.downstream hopen with ⟨gone, hdown, hgone⟩
    rw [hgone hbefore, List.append_nil] at hdown
    refine ⟨lost, ?_, hlost⟩
    have hupTo : l.upTo { l.server with
        tx := tx, writing := writing, written := l.server.written ++ more } ++ lost =
        l.downstream := by
      unfold System.upTo System.downstream
      dsimp only
      rw [List.drop_left, hbefore, if_pos rfl, ← hbytes]
      simp only [List.append_assoc]
    rw [hupTo]
    exact hdown
  tx := htx
  clean := hl.clean

theorem System.Sync.serves_write {l : System} (hl : l.Sync) : l.Serves l.server.write := by
  unfold Connection.write
  split
  · rename_i frame rest hwriting htx
    have hended := hl.tx hwriting
    have hserves := hl.serves_writer rest true frame [] hwriting
      (by rw [htx]; simp [queued]) (fun _ => rfl) (fun _ => by rw [← hended, htx]; simp)
    rw [← hwriting] at hserves
    exact hserves
  · rename_i rest hwriting htx
    have hserves := hl.serves_writer rest false [] [] hwriting
      (by rw [htx]; rfl) (fun _ => rfl) (fun h => by cases h)
    rw [List.append_nil] at hserves
    exact hserves
  · exact hl.serves_same

theorem System.Sync.serves_writeFails {l : System} (hl : l.Sync) (n : Nat) :
    l.Serves (l.server.writeFails n) := by
  unfold Connection.writeFails
  split
  · rename_i frame rest hwriting htx
    have hbytes : frame.take n ++ ([] ++ (frame.drop n ++ queued rest)) =
        queued l.server.tx := by
      rw [List.nil_append, ← List.append_assoc, List.take_append_drop, htx]
      rfl
    exact hl.serves_writer rest false (frame.take n) (frame.drop n ++ queued rest) hwriting
      hbytes (fun h => by cases h) (fun h => by cases h)
  · exact hl.serves_same

/-- A step of the server is a move of the dialogue, and keeps the two levels in step. -/
theorem System.Sync.server {l : System} (hl : l.Sync) {st : Server.Step}
    (hown : isServers st = true) (hallowed : l.Allowed (Step.server st)) :
    (l.serverStep st).Sync ∧ Moved l.dialogue (l.serverStep st).dialogue := by
  apply hl.server_of
  cases st with
  | receive bytes => cases hown
  | readFails =>
      simp only [Connection.step]
      split
      · exact hl.serves_same
      · exact hl.serves_stop
  | read => exact hl.serves_read
  | finish address outcome => exact hl.serves_finish hallowed
  | skip address => exact hl.serves_skip address
  | write => exact hl.serves_write
  | writeFails n => exact hl.serves_writeFails n

end Link
end UsbIp
