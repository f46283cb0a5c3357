import UsbIp.Foundation.Progress
import UsbIp.Link.Runs

/-!
# Whatever is under way arrives

The tasks of a session, the loop of the server, its writer and the connection
between them only pass on what is there.  While both sides go on, they come to
an end with it: every command that was issued has been taken, and every answer
that was given has been read, whatever order the tasks take their turns in and
wherever the streams are cut.
-/

namespace UsbIp
namespace Link

open Foundation
open Protocol
open Client (Shared SubmitRequest Session ExportedDevice)
open Server (Urb Urbs Answer Outcome Completion Job Connection urbOf unlinkStatus)

/-!
# Tasks
-/

inductive Task where
  | takeFrame
  | sealBatch
  | writeBytes
  | toServer
  | read
  | write
  | toClient
  | readHeader
  | readPayload

/-- The steps that pass on what is there; a write or a delivery of nothing is none. -/
def taskOf : Step -> Option Task
  | Step.client Client.Step.takeFrame => some Task.takeFrame
  | Step.client Client.Step.sealBatch => some Task.sealBatch
  | Step.client (Client.Step.writeBytes (_ + 1)) => some Task.writeBytes
  | Step.toServer (_ + 1) => some Task.toServer
  | Step.server Server.Step.read => some Task.read
  | Step.server Server.Step.write => some Task.write
  | Step.toClient (_ + 1) => some Task.toClient
  | Step.client Client.Step.readHeader => some Task.readHeader
  | Step.client Client.Step.readPayload => some Task.readPayload
  | _ => none

theorem orders_of_clientTask (s : Session) {st : Client.Step} {t : Task}
    (h : taskOf (Step.client st) = some t) :
    ordersOf (s.step st).shared = ordersOf s.shared := by
  cases st with
  | takeFrame =>
      rcases s.takeFrame_shared with ⟨frames, heq⟩
      show ordersOf s.takeFrame.shared = _
      rw [heq]
      rfl
  | sealBatch =>
      simp only [Session.step]
      split <;> rfl
  | writeBytes n =>
      simp only [Session.step, Session.writeBytes]
      split <;> rfl
  | readHeader => exact (step_reads s rfl).orders
  | readPayload => exact (step_reads s rfl).orders
  | _ => cases h

theorem orders_of_task (l : System) {st : Step} {t : Task} (h : taskOf st = some t) :
    ordersOf (l.step st).client.shared = ordersOf l.client.shared := by
  cases st with
  | client st =>
      simp only [System.step]
      split
      · exact orders_of_clientTask l.client h
      · rfl
  | server st =>
      simp only [System.step]
      split <;> rfl
  | toServer n => rfl
  | toClient n =>
      simp only [System.step, Session.step]
      split <;> rfl
  | hangUp => cases h

theorem allowed_of_task {l : System} {st : Step} {t : Task} (h : taskOf st = some t) :
    l.Allowed st := by
  cases st with
  | client st =>
      intro o ho
      rw [newOrders_of_eq (orders_of_clientTask l.client h)] at ho
      cases ho
  | server st =>
      cases st with
      | finish address outcome => cases h
      | _ => exact trivial
  | _ => exact trivial

/-!
# What is left to do
-/

def writerLeft : Client.WriterPhase -> Nat
  | Client.WriterPhase.batching => 2
  | Client.WriterPhase.writing => 1
  | _ => 0

def loopLeft : Server.Phase -> Nat
  | Server.Phase.body _ => 1
  | _ => 0

def readerLeft : Client.ReaderPhase -> Nat
  | Client.ReaderPhase.payload _ _ _ => 1
  | _ => 0

/--
What is under way, counted so that every turn makes it less: a byte weighs less
the further it has come, and a command at least as much as the answer that the
loop may give to it.
-/
def System.backlog (l : System) : Nat :=
  7 * l.client.shared.frames.flatten.length + 3 * l.client.shared.frames.length +
    writerLeft l.client.writer + 6 * l.client.batch.length + 5 * l.toServer.length +
    4 * l.server.input.length + loopLeft l.server.phase +
    3 * (queued l.server.tx).length + l.server.tx.length + 2 * l.toClient.length +
    l.client.input.length + readerLeft l.client.reader

def goesOn : Client.ReaderPhase -> Bool
  | Client.ReaderPhase.header => true
  | Client.ReaderPhase.payload _ _ _ => true
  | _ => false

/-- Nobody has left: neither side has closed, failed or stopped. -/
structure System.Live (l : System) : Prop where
  opened : l.client.shared.state.closed = none
  connected : l.client.ended = false
  reading : goesOn l.client.reader = true
  sending : l.client.writer ≠ Client.WriterPhase.stopped
  looping : l.server.phase ≠ Server.Phase.stopped
  serving : l.server.urbs.ended = false
  writing : l.server.writing = true

instance (l : System) : Decidable l.Live :=
  decidable_of_iff
    (l.client.shared.state.closed = none ∧ l.client.ended = false ∧
      goesOn l.client.reader = true ∧ l.client.writer ≠ Client.WriterPhase.stopped ∧
      l.server.phase ≠ Server.Phase.stopped ∧ l.server.urbs.ended = false ∧
      l.server.writing = true)
    ⟨fun ⟨h1, h2, h3, h4, h5, h6, h7⟩ => ⟨h1, h2, h3, h4, h5, h6, h7⟩,
      fun h => ⟨h.opened, h.connected, h.reading, h.sending, h.looping, h.serving,
        h.writing⟩⟩

def BatchOk (s : Session) : Prop :=
  s.writer = Client.WriterPhase.receiving -> s.batch = []

def Idle : Task -> System -> Prop
  | Task.takeFrame, l =>
      l.client.writer = Client.WriterPhase.receiving -> l.client.shared.frames = []
  | Task.sealBatch, l => l.client.writer ≠ Client.WriterPhase.batching
  | Task.writeBytes, l => l.client.writer ≠ Client.WriterPhase.writing
  | Task.toServer, l => l.toServer = []
  | Task.read, l =>
      (l.server.phase = Server.Phase.header -> l.server.input.length < urbHeaderSize) ∧
        forall urb reply cmd rest, l.server.phase = Server.Phase.body urb ->
          l.dialogue.orders = Order.submit reply cmd :: rest ->
          l.server.input.length < (payloadOf cmd).length
  | Task.write, l => l.server.tx = []
  | Task.toClient, l => l.toClient = []
  | Task.readHeader, l => l.Starved Client.Step.readHeader
  | Task.readPayload, l => l.Starved Client.Step.readPayload

/-- What a turn of a task comes to. -/
inductive Worked (l : System) (t : Task) : System -> Prop where
  | idle : Idle t l -> Worked l t l
  | less {l' : System} : l'.Live -> BatchOk l'.client -> l'.backlog < l.backlog ->
      Worked l t l'

/-!
# The writer of the client
-/

theorem clientStep_silent {l : System} {st : Client.Step}
    (h : (l.client.step st).written = l.client.written) :
    l.clientStep st = { l with client := l.client.step st } := by
  unfold System.clientStep
  rw [h, List.drop_length, List.append_nil]

theorem worked_frame {l : System} (hlive : l.Live) {frame : Bytes} {rest : List Bytes}
    (hframes : l.client.shared.frames = frame :: rest)
    (hwriter : l.client.writer = Client.WriterPhase.receiving ∨
      l.client.writer = Client.WriterPhase.batching) :
    Worked l Task.takeFrame
      { l with
        client := { l.client with
          shared := { l.client.shared with frames := rest }
          batch := l.client.batch ++ frame
          writer := Client.WriterPhase.batching } } := by
  apply Worked.less
  · exact { hlive with sending := fun h => by cases h }
  · intro h
    cases h
  · have hrank : writerLeft l.client.writer = 0 ∨ writerLeft l.client.writer = 2 := by
      rcases hwriter with h | h
      · rw [h]
        exact Or.inl rfl
      · rw [h]
        exact Or.inr rfl
    have hnext : writerLeft Client.WriterPhase.batching = 2 := rfl
    unfold System.backlog
    dsimp only
    rw [hframes, hnext]
    simp only [List.flatten_cons, List.length_append, List.length_cons]
    omega

theorem worked_takeFrame {l : System} (hlive : l.Live) :
    Worked l Task.takeFrame (l.step (Step.client Client.Step.takeFrame)) := by
  have hstep : l.step (Step.client Client.Step.takeFrame) =
      { l with client := l.client.takeFrame } := by
    apply clientStep_silent
    simp only [Session.step, Session.takeFrame]
    split
    · rfl
    · split <;> rfl
    · rfl
  rw [hstep]
  unfold Session.takeFrame
  split
  · rename_i frame rest hwriter hframes
    exact worked_frame hlive hframes (Or.inl hwriter)
  · rename_i frame rest hwriter hframes
    split
    · have hworked := worked_frame hlive hframes (Or.inr hwriter)
      rw [← hwriter] at hworked
      exact hworked
    · apply Worked.idle
      intro h
      rw [hwriter] at h
      cases h
  · rename_i hreceiving _
    apply Worked.idle
    intro hwriter
    cases hframes : l.client.shared.frames with
    | nil => rfl
    | cons frame rest => exact absurd hframes (hreceiving frame rest hwriter)

theorem worked_sealBatch {l : System} (hlive : l.Live) :
    Worked l Task.sealBatch (l.step (Step.client Client.Step.sealBatch)) := by
  have hstep : l.step (Step.client Client.Step.sealBatch) =
      { l with client := l.client.step Client.Step.sealBatch } := by
    apply clientStep_silent
    simp only [Session.step]
    split <;> rfl
  rw [hstep]
  simp only [Session.step]
  split
  · rename_i hwriter
    apply Worked.less
    · exact { hlive with sending := fun h => by cases h }
    · intro h
      cases h
    · unfold System.backlog
      dsimp only
      rw [hwriter]
      simp only [writerLeft]
      omega
  · rename_i hwriter
    exact Worked.idle hwriter

theorem worked_writeBytes {l : System} (hlive : l.Live) (n : Nat) :
    Worked l Task.writeBytes (l.step (Step.client (Client.Step.writeBytes (n + 1)))) := by
  have hstep : l.step (Step.client (Client.Step.writeBytes (n + 1))) =
      l.clientStep (Client.Step.writeBytes (n + 1)) := rfl
  rw [hstep]
  unfold System.clientStep
  simp only [Session.step, Session.writeBytes]
  split
  · rename_i hwriter
    apply Worked.less
    · refine { hlive with sending := ?_ }
      dsimp only
      split <;> exact fun h => by cases h
    · intro hnext
      dsimp only at hnext ⊢
      split at hnext
      · rename_i hempty
        exact List.isEmpty_iff.mp hempty
      · cases hnext
    · have hcut : (l.client.batch.take (n + 1)).length + (l.client.batch.drop (n + 1)).length =
          l.client.batch.length := by
        rw [← List.length_append, List.take_append_drop]
      unfold System.backlog
      dsimp only
      rw [List.drop_left, hwriter, List.length_append]
      cases hrest : l.client.batch.drop (n + 1) with
      | nil =>
          rw [hrest] at hcut
          simp only [List.isEmpty_nil, if_true, writerLeft, List.length_nil] at hcut ⊢
          omega
      | cons b rest =>
          have hpos : (l.client.batch.take (n + 1)).length = n + 1 := by
            rw [List.length_take]
            apply Nat.min_eq_left
            apply Nat.le_of_not_lt
            intro hshort
            rw [List.drop_eq_nil_of_le (Nat.le_of_lt hshort)] at hrest
            cases hrest
          rw [hrest] at hcut
          simp only [List.isEmpty_cons, Bool.false_eq_true, if_false, writerLeft]
          omega
  · rename_i hwriter
    rw [List.drop_length, List.append_nil]
    exact Worked.idle hwriter

/-!
# The connection
-/

theorem take_length_pos {bytes : Bytes} (h : bytes ≠ []) (n : Nat) :
    0 < (bytes.take (n + 1)).length ∧
      (bytes.take (n + 1)).length + (bytes.drop (n + 1)).length = bytes.length := by
  constructor
  · cases bytes with
    | nil => exact absurd rfl h
    | cons b rest =>
        rw [List.take_succ_cons]
        exact Nat.succ_pos _
  · rw [← List.length_append, List.take_append_drop]

theorem worked_toServer {l : System} (hlive : l.Live) (hbatch : BatchOk l.client) (n : Nat) :
    Worked l Task.toServer (l.step (Step.toServer (n + 1))) := by
  by_cases hnone : l.toServer = []
  · have hsame : l.step (Step.toServer (n + 1)) = l := by
      simp only [System.step, Connection.step, hnone, List.take_nil, List.drop_nil,
        List.append_nil]
      rw [← hnone]
    rw [hsame]
    exact Worked.idle hnone
  · rcases take_length_pos hnone n with ⟨hpos, hcut⟩
    apply Worked.less
    · exact { hlive with }
    · exact hbatch
    · simp only [System.backlog, System.step, Connection.step, List.length_append]
      omega

theorem worked_toClient {l : System} (hlive : l.Live) (hbatch : BatchOk l.client) (n : Nat) :
    Worked l Task.toClient (l.step (Step.toClient (n + 1))) := by
  have hended : ¬ l.client.ended = true := by
    rw [hlive.connected]
    exact Bool.false_ne_true
  simp only [System.step, Session.step, if_neg hended]
  by_cases hnone : l.toClient = []
  · have hsame : System.mk
        { l.client with input := l.client.input ++ l.toClient.take (n + 1) } l.server
        l.toServer (l.toClient.drop (n + 1)) = l := by
      rw [hnone, List.take_nil, List.drop_nil, List.append_nil, ← hnone]
    rw [hsame]
    exact Worked.idle hnone
  · rcases take_length_pos hnone n with ⟨hpos, hcut⟩
    apply Worked.less
    · exact { hlive with }
    · exact hbatch
    · simp only [System.backlog, List.length_append]
      omega

/-!
# The server
-/

theorem System.Sync.tx_open {l : System} (hl : l.Sync) (hlive : l.Live) :
    none ∉ l.server.tx := by
  intro hmem
  have hended := (hl.tx hlive.writing).mp hmem
  rw [hlive.serving] at hended
  cases hended

theorem worked_read {l : System} (hl : l.Sync) (hlive : l.Live) (hbatch : BatchOk l.client) :
    Worked l Task.read (l.step (Step.server Server.Step.read)) := by
  have hturn := hl.serve_turn
  have hstep : l.step (Step.server Server.Step.read) = l.serverStep Server.Step.read := rfl
  rw [hstep]
  unfold System.serverStep
  simp only [Connection.step]
  generalize l.server.read = s at hturn
  cases hturn with
  | stopped hphase => exact absurd hphase hlive.looping
  | waitsHeader hphase hshort =>
      rw [List.drop_length, List.append_nil]
      refine Worked.idle ⟨fun _ => hshort, ?_⟩
      intro urb reply cmd rest hbody
      rw [hphase] at hbody
      cases hbody
  | @waitsBody reply cmd rest urb hphase horders _ hshort =>
      rw [List.drop_length, List.append_nil]
      refine Worked.idle ⟨?_, ?_⟩
      · intro hheader
        rw [hphase] at hheader
        cases hheader
      · intro urb' reply' cmd' rest' _ horders'
        rw [horders] at horders'
        cases horders'
        exact hshort
  | @header reply cmd rest input hphase horders hinput _ =>
      apply Worked.less
      · exact { hlive with looping := fun h => by cases h }
      · exact hbatch
      · have hlength : l.server.input.length = 48 + input.length := by
          rw [hinput, List.length_append, cmd.header_length]
          rfl
        unfold System.backlog
        dsimp only
        rw [List.drop_length, List.append_nil, hphase]
        simp only [loopLeft]
        omega
  | @submit reply cmd rest urb input hphase horders hinput _ =>
      apply Worked.less
      · exact { hlive with looping := fun h => by cases h }
      · exact hbatch
      · unfold System.backlog
        dsimp only
        rw [List.drop_length, List.append_nil, hinput, List.length_append, hphase]
        simp only [loopLeft]
        omega
  | @unlink reply cmd rest input hphase horders hinput _ =>
      apply Worked.less
      · exact { hlive with serving := (Urbs.unlink_ended _ _ _).trans hlive.serving }
      · exact hbatch
      · have hlength : l.server.input.length = 48 + input.length := by
          rw [hinput, List.length_append, cmd.encode_length]
          rfl
        have hreply : (Answer.unlink cmd.seqnum cmd.unlinkSeqnum
            (l.server.urbs.pending.lookup cmd.unlinkSeqnum)).encode.length = 48 :=
          rfl
        unfold System.backlog
        dsimp only
        rw [List.drop_length, List.append_nil, queued_append_open (hl.tx_open hlive),
          List.length_append, List.length_append]
        simp only [queued, List.append_nil, hreply, List.length_singleton]
        omega

theorem worked_write {l : System} (hl : l.Sync) (hlive : l.Live) (hbatch : BatchOk l.client) :
    Worked l Task.write (l.step (Step.server Server.Step.write)) := by
  have hstep : l.step (Step.server Server.Step.write) = l.serverStep Server.Step.write := rfl
  rw [hstep]
  unfold System.serverStep
  simp only [Connection.step]
  cases htx : l.server.tx with
  | nil =>
      have hwrite : l.server.write = l.server := by
        simp only [Connection.write, htx, hlive.writing]
      rw [hwrite, List.drop_length, List.append_nil]
      exact Worked.idle htx
  | cons frame rest =>
      cases frame with
      | none =>
          refine absurd ?_ (hl.tx_open hlive)
          rw [htx]
          exact List.mem_cons_self
      | some bytes =>
          have hwrite : l.server.write =
              { l.server with tx := rest, written := l.server.written ++ bytes } := by
            simp only [Connection.write, htx, hlive.writing]
          rw [hwrite]
          apply Worked.less
          · exact { hlive with }
          · exact hbatch
          · unfold System.backlog
            dsimp only
            rw [htx, List.drop_left]
            simp only [queued, List.length_append, List.length_cons]
            omega

/-!
# The reader of the client
-/

theorem finishUnlink_frames (s : Shared) (ret : RetUnlink) :
    (s.finishUnlink ret).frames = s.frames := by
  unfold Shared.finishUnlink
  dsimp only
  split
  · rfl
  · split <;> rfl

theorem ReadTurn.worked {l : System} {lost : Bytes} {st : Client.Step} {s : Session}
    (h : ReadTurn l lost st s) (hlive : l.Live) (hbatch : BatchOk l.client) {t : Task}
    (hidle : l.Starved st -> Idle t l) :
    Worked l t { l with client := s } := by
  cases h with
  | waits hstarved => exact Worked.idle (hidle hstarved)
  | fails hended =>
      rw [hlive.connected] at hended
      cases hended
  | @header cancel urb c rest direction length input hunread _ hinput _ =>
      apply Worked.less
      · exact { hlive with reading := rfl }
      · exact hbatch
      · have hlength : l.client.input.length = 48 + input.length := by
          rw [hinput, List.length_append, (urb.serverSubmit c).header_length]
          rfl
        unfold System.backlog
        simp only [readerLeft]
        omega
  | @ret cancel urb c rest header direction length input hunread hreader hinput _ =>
      apply Worked.less
      · exact { hlive with reading := rfl }
      · exact hbatch
      · unfold System.backlog
        dsimp only
        rw [hinput, List.length_append, hreader]
        simp only [readerLeft, Shared.finishSubmit]
        omega
  | @unlink u t found rest input hunread hinput _ =>
      apply Worked.less
      · exact
          { hlive with
            opened := (finishUnlink_closed _ _).trans hlive.opened
            reading := rfl }
      · exact hbatch
      · have hlength : l.client.input.length = 48 + input.length := by
          rw [hinput, List.length_append]
          rfl
        unfold System.backlog
        rw [finishUnlink_frames]
        simp only [readerLeft]
        omega

theorem worked_reader {l : System} (hl : l.Sync) (hlive : l.Live) (hbatch : BatchOk l.client)
    {st : Client.Step} (hreads : st.reads = true) {t : Task}
    (hidle : l.Starved st -> Idle t l) : Worked l t (l.step (Step.client st)) := by
  rcases hl.downstream hlive.opened with ⟨lost, hdown, _⟩
  have hturn := hl.read_turn hreads hlive.opened hdown
  have hwritten : (l.client.step st).written = l.client.written := by
    generalize l.client.step st = s at hturn
    cases hturn <;> rfl
  have hstep : l.step (Step.client st) = { l with client := l.client.step st } := by
    have hown : isOwn st = true := by
      cases st with
      | readHeader => rfl
      | readPayload => rfl
      | _ => cases hreads
    simp only [System.step, hown, if_true]
    exact clientStep_silent hwritten
  rw [hstep]
  exact hturn.worked hlive hbatch hidle

/-!
# All tasks
-/

theorem worked_of_task {l : System} (hl : l.Sync) (hlive : l.Live) (hbatch : BatchOk l.client)
    {st : Step} {t : Task} (h : taskOf st = some t) : Worked l t (l.step st) := by
  unfold taskOf at h
  split at h
  · cases h
    exact worked_takeFrame hlive
  · cases h
    exact worked_sealBatch hlive
  · cases h
    exact worked_writeBytes hlive _
  · cases h
    exact worked_toServer hlive hbatch _
  · cases h
    exact worked_read hl hlive hbatch
  · cases h
    exact worked_write hl hlive hbatch
  · cases h
    exact worked_toClient hlive hbatch _
  · cases h
    exact worked_reader hl hlive hbatch rfl id
  · cases h
    exact worked_reader hl hlive hbatch rfl id
  · cases h

theorem Order.encode_length_ge (o : Order) : urbHeaderSize ≤ o.encode.length := by
  cases o with
  | submit reply cmd =>
      have hencode : (Order.submit reply cmd).encode = cmd.header ++ payloadOf cmd := rfl
      rw [hencode, List.length_append, cmd.header_length]
      exact Nat.le_add_right _ _
  | unlink reply cmd => exact Nat.le_of_eq cmd.encode_length.symm

theorem answer_encode_length_ge (a : Answer) : urbHeaderSize ≤ a.encode.length := by
  cases a with
  | ret cancel urb c =>
      rw [ret_encode, List.length_append, (urb.serverSubmit c).header_length]
      exact Nat.le_add_right _ _
  | unlink u t found => exact Nat.le_refl 48

theorem none_of_short {α : Type} {f : α -> Bytes} (hf : forall x, urbHeaderSize ≤ (f x).length)
    {xs : List α} {bytes : Bytes} (h : bytes = xs.flatMap f)
    (hshort : bytes.length < urbHeaderSize) : xs = [] := by
  cases xs with
  | nil => rfl
  | cons x rest =>
      rw [h, List.flatMap_cons, List.length_append] at hshort
      have hlong := hf x
      omega

theorem System.Sync.idle_upstream {l : System} (hl : l.Sync) (hlive : l.Live)
    (hup : l.upstream = l.server.input) (hidle : Idle Task.read l) :
    l.server.phase = Server.Phase.header ∧ l.dialogue.orders = [] ∧ l.server.input = [] := by
  have hstream := hl.upstream
  rw [hup] at hstream
  cases hphase : l.server.phase with
  | stopped => exact absurd hphase hlive.looping
  | header =>
      rw [hphase] at hstream
      have hbytes := hstream.header_eq
      have hnone := none_of_short Order.encode_length_ge hbytes (hidle.left hphase)
      rw [hnone] at hbytes
      exact ⟨rfl, hnone, hbytes⟩
  | body urb =>
      rw [hphase] at hstream
      rcases hstream.body_eq with ⟨reply, cmd, rest, horders, _, hbytes⟩
      have hshort := hidle.right urb reply cmd rest hphase horders
      rw [hbytes, List.length_append] at hshort
      omega

theorem System.Sync.idle_downstream {l : System} (hl : l.Sync) (hlive : l.Live)
    (hdown : l.downstream = l.client.input) (hheader : Idle Task.readHeader l)
    (hpayload : Idle Task.readPayload l) :
    l.client.reader = Client.ReaderPhase.header ∧ l.dialogue.unread = [] ∧
      l.client.input = [] := by
  rcases hl.downstream hlive.opened with ⟨lost, hstream, hlost⟩
  rw [hlost hlive.writing, List.append_nil, hdown] at hstream
  have hreading := hlive.reading
  cases hreader : l.client.reader with
  | header =>
      rw [hreader] at hstream
      have hbytes := hstream.header_eq
      have hnone := none_of_short answer_encode_length_ge hbytes (hheader hreader)
      rw [hnone] at hbytes
      exact ⟨rfl, hnone, hbytes⟩
  | payload header direction length =>
      rw [hreader] at hstream
      rcases hstream.payload_eq with ⟨cancel, urb, c, rest, hunread, _, _, hbytes⟩
      have hshort := hpayload header direction length cancel urb c rest hreader hunread
      rw [hbytes, List.length_append] at hshort
      omega
  | failed reason =>
      rw [hreader] at hreading
      cases hreading
  | stopped =>
      rw [hreader] at hreading
      cases hreading

theorem System.Sync.idle_of_tasks {l : System} (hl : l.Sync) (hlive : l.Live)
    (hbatch : BatchOk l.client) (hidle : forall t, Idle t l) : l.backlog = 0 := by
  have hwriter : l.client.writer = Client.WriterPhase.receiving := by
    have hbatching := hidle Task.sealBatch
    have hwriting := hidle Task.writeBytes
    have hsending := hlive.sending
    cases hw : l.client.writer with
    | receiving => rfl
    | batching => exact absurd hw hbatching
    | writing => exact absurd hw hwriting
    | stopped => exact absurd hw hsending
  have hframes : l.client.shared.frames = [] := hidle Task.takeFrame hwriter
  have hto : l.toServer = [] := hidle Task.toServer
  have htx : l.server.tx = [] := hidle Task.write
  have hfrom : l.toClient = [] := hidle Task.toClient
  have hup : l.upstream = l.server.input := by
    unfold System.upstream
    rw [hto, hbatch hwriter, hframes]
    exact List.append_nil _
  have hdown : l.downstream = l.client.input := by
    unfold System.downstream
    rw [hfrom, htx, hlive.writing]
    exact List.append_nil _
  rcases hl.idle_upstream hlive hup (hidle Task.read) with ⟨hphase, _, hinput⟩
  rcases hl.idle_downstream hlive hdown (hidle Task.readHeader) (hidle Task.readPayload) with
    ⟨hreader, _, hread⟩
  unfold System.backlog
  rw [hframes, hwriter, hbatch hwriter, hto, hinput, hphase, htx, hfrom, hread, hreader]
  rfl

/-- Tasks get everything done. -/
theorem tasks_descent :
    Descent System.step taskOf (fun l => l.Sync ∧ l.Live ∧ BatchOk l.client) Idle
      System.backlog where
  kept := by
    intro l st t h htask
    rcases h with ⟨hl, hlive, hbatch⟩
    refine ⟨(hl.step (allowed_of_task htask)).left, ?_⟩
    have hworked := worked_of_task hl hlive hbatch htask
    generalize l.step st = l' at hworked
    cases hworked with
    | idle _ => exact ⟨hlive, hbatch⟩
    | less hlive' hbatch' _ => exact ⟨hlive', hbatch'⟩
  lowers := by
    intro l st t h htask
    have hworked := worked_of_task h.left h.right.left h.right.right htask
    generalize l.step st = l' at hworked
    cases hworked with
    | idle hidle => exact Or.inl ⟨rfl, hidle⟩
    | less _ _ hless => exact Or.inr hless
  done := by
    intro l h hidle
    exact h.left.idle_of_tasks h.right.left h.right.right hidle

/-!
# Nothing is left
-/

/-- The server has taken every order, and the client has read every answer. -/
theorem System.Sync.nothing_left {l : System} (hl : l.Sync) (hlive : l.Live)
    (hzero : l.backlog = 0) : l.dialogue.orders = [] ∧ l.dialogue.unread = [] := by
  unfold System.backlog at hzero
  have hempty : forall {xs : Bytes}, xs.length = 0 -> xs = [] := List.eq_nil_of_length_eq_zero
  have hframes : l.client.shared.frames.flatten = [] := hempty (by omega)
  have hbatch : l.client.batch = [] := hempty (by omega)
  have hto : l.toServer = [] := hempty (by omega)
  have hinput : l.server.input = [] := hempty (by omega)
  have hqueued : queued l.server.tx = [] := hempty (by omega)
  have hfrom : l.toClient = [] := hempty (by omega)
  have hread : l.client.input = [] := hempty (by omega)
  have hup : l.upstream = l.server.input := by
    unfold System.upstream
    rw [hto, hbatch, hframes]
    exact List.append_nil _
  have hdown : l.downstream = l.client.input := by
    unfold System.downstream
    rw [hfrom, hqueued, hlive.writing]
    exact List.append_nil _
  have hloop : loopLeft l.server.phase = 0 := by omega
  have hreader : readerLeft l.client.reader = 0 := by omega
  have hidle : Idle Task.read l := by
    refine ⟨fun _ => ?_, ?_⟩
    · rw [hinput]
      exact Nat.succ_pos _
    · intro urb reply cmd rest hphase
      rw [hphase] at hloop
      cases hloop
  have hpayload : Idle Task.readPayload l := by
    intro header direction length cancel urb c rest hphase
    rw [hphase] at hreader
    cases hreader
  have hheader : Idle Task.readHeader l := by
    intro _
    rw [hread]
    exact Nat.succ_pos _
  exact ⟨(hl.idle_upstream hlive hup hidle).right.left,
    (hl.idle_downstream hlive hdown hheader hpayload).right.left⟩

end Link
end UsbIp
