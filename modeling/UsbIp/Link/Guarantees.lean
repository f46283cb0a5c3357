import UsbIp.Link.Detaching

/-!
# What a session and its server guarantee

The results about every allowed run (`System.Run`) of a session and its server,
from the import on, for a device whose number fits into its field: the client may
issue any accepted requests that the server has nothing to complain about, under
numbers that nothing under way has, unlink and close at any time, the device may
come to any fitting outcome, but sends no raw replies, and the connection may cut
the streams anywhere and break at any time.
-/

namespace UsbIp
namespace Link

open Foundation
open Protocol
open Client (Shared SubmitRequest TransferResult TransferError Session ExportedDevice)
open Server (Urb Urbs Answer Outcome Completion Job Connection urbOf unlinkStatus)

/-!
# A run
-/

def sampleDevice : ExportedDevice where
  path := "/sys/devices/1-1"
  busid := "1-1"
  busnum := 1
  devnum := 2
  speed := Speed.high
  idVendor := 0x1d6b
  idProduct := 0x0104
  bcdDevice := 0x0100
  deviceClass := 0
  deviceSubclass := 0
  deviceProtocol := 0
  configurationValue := 1
  numConfigurations := 1
  numInterfaces := 0
  interfaces := []

def sampleEndpoints : List (UInt8 × UInt8) := [(0x81, 2), (0x02, 2)]

def bulkIn : SubmitRequest := SubmitRequest.new 0x81 Direction.in 4

/--
Four reads of an endpoint: the first completes while the second is unlinked, the
third completes, and the last stays with the server.  The streams are cut
inside of headers and of payloads.
-/
def sampleSteps : List Step :=
  [Step.client (Client.Step.submit bulkIn), Step.client (Client.Step.submit bulkIn),
    Step.client (Client.Step.unlink 2), Step.client Client.Step.takeFrame,
    Step.client Client.Step.takeFrame, Step.client Client.Step.takeFrame,
    Step.client Client.Step.sealBatch, Step.client (Client.Step.writeBytes 144),
    Step.toServer 100, Step.server Server.Step.read, Step.server Server.Step.read,
    Step.server Server.Step.read, Step.server Server.Step.read, Step.toServer 44,
    Step.server (Server.Step.finish 0x81 (Outcome.complete (Completion.ok [1, 2, 3, 4]))),
    Step.server Server.Step.read, Step.server (Server.Step.skip 0x81),
    Step.server Server.Step.write, Step.server Server.Step.write, Step.toClient 50,
    Step.client Client.Step.readHeader, Step.client Client.Step.readPayload,
    Step.toClient 50, Step.client Client.Step.readPayload,
    Step.client Client.Step.readHeader, Step.client (Client.Step.submit bulkIn),
    Step.client (Client.Step.submit bulkIn), Step.client Client.Step.takeFrame,
    Step.client Client.Step.takeFrame, Step.client Client.Step.sealBatch,
    Step.client (Client.Step.writeBytes 96), Step.toServer 96, Step.server Server.Step.read,
    Step.server Server.Step.read, Step.server Server.Step.read, Step.server Server.Step.read,
    Step.server (Server.Step.finish 0x81 (Outcome.complete (Completion.ok [5]))),
    Step.server Server.Step.write, Step.toClient 49, Step.client Client.Step.readHeader,
    Step.client Client.Step.readPayload]

theorem sampleRun : System.Run sampleDevice sampleEndpoints sampleSteps := by
  decide +kernel

/-!
# The two levels
-/

/--
The bytes carry messages: in an allowed run a session and its server do what two
parties do that exchange commands and answers, with nothing lost, added or
reordered.
-/
theorem run_is_dialogue (device : ExportedDevice) (endpoints : List (UInt8 × UInt8))
    (steps : List Step) (h : System.Run device endpoints steps)
    (hdevnum : device.devnum.toNat < 65536) :
    exists moves,
      Guarded Dialogue.step Dialogue.Allowed (Dialogue.start device.devid) moves ∧
        (System.after device endpoints steps).dialogue =
          moves.foldl Dialogue.step (Dialogue.start device.devid) :=
  h.dialogue hdevnum

theorem run_is_dialogue_sample :
    exists moves,
      Guarded Dialogue.step Dialogue.Allowed (Dialogue.start sampleDevice.devid) moves ∧
        (System.after sampleDevice sampleEndpoints sampleSteps).dialogue =
          moves.foldl Dialogue.step (Dialogue.start sampleDevice.devid) :=
  run_is_dialogue sampleDevice sampleEndpoints sampleSteps sampleRun (by decide)

/--
In an allowed run neither side takes the other's bytes for something they are
not: the server has nothing to complain about, and the client does not close for
a bad reply.
-/
theorem nothing_is_misread (device : ExportedDevice) (endpoints : List (UInt8 × UInt8))
    (steps : List Step) (h : System.Run device endpoints steps)
    (hdevnum : device.devnum.toNat < 65536) :
    (System.after device endpoints steps).server.violations = [] ∧
      forall reason,
        (System.after device endpoints steps).client.shared.state.closed = some reason ->
        Benign reason := by
  have hsync := h.sync hdevnum
  exact ⟨hsync.clean, hsync.closed⟩

theorem nothing_is_misread_sample :
    (System.after sampleDevice sampleEndpoints sampleSteps).server.violations = [] ∧
      forall reason,
        (System.after sampleDevice sampleEndpoints sampleSteps).client.shared.state.closed =
          some reason ->
        Benign reason :=
  nothing_is_misread sampleDevice sampleEndpoints sampleSteps sampleRun (by decide)

/-!
# Numbers
-/

/--
Before the counter wraps a client that is polite to the server need not look at
what is under way: its commands are numbered from 1 on, and no number ever
belongs to something else, so that its run is an allowed one.
-/
theorem numbers_need_no_care (device : ExportedDevice) (endpoints : List (UInt8 × UInt8))
    (steps : List Step)
    (h : Guarded System.step System.Few (System.start device endpoints) steps)
    (hdevnum : device.devnum.toNat < 65536) :
    System.Run device endpoints steps ∧
      (ordersOf (System.after device endpoints steps).client.shared).map
          (fun o => o.seqnum.toNat) =
        List.range' 1
          (ordersOf (System.after device endpoints steps).client.shared).length :=
  ⟨run_of_few hdevnum h, (counted_of_few hdevnum h).client.numbers⟩

theorem numbers_need_no_care_sample :
    System.Run sampleDevice sampleEndpoints sampleSteps ∧
      (ordersOf (System.after sampleDevice sampleEndpoints sampleSteps).client.shared).map
          (fun o => o.seqnum.toNat) =
        List.range' 1
          (ordersOf
            (System.after sampleDevice sampleEndpoints sampleSteps).client.shared).length :=
  numbers_need_no_care sampleDevice sampleEndpoints sampleSteps (by decide +kernel)
    (by decide)

/-!
# Commands
-/

/--
In an allowed run the server takes the commands of the client in order, unchanged
and once.
-/
theorem commands_arrive_in_order (device : ExportedDevice)
    (endpoints : List (UInt8 × UInt8)) (steps : List Step)
    (h : System.Run device endpoints steps) (hdevnum : device.devnum.toNat < 65536) :
    takenOf (System.after device endpoints steps).server.urbs <+:
      (ordersOf (System.after device endpoints steps).client.shared).map Order.taken := by
  have harrived := (h.delivered hdevnum).arrived
  unfold Dialogue.Arrived at harrived
  have hserver : takenOf (System.after device endpoints steps).server.urbs =
      ((ordersOf (System.after device endpoints steps).client.shared).take _).map Order.taken :=
    harrived
  rw [hserver, List.map_take]
  exact List.take_prefix _ _

theorem commands_arrive_in_order_sample :
    takenOf (System.after sampleDevice sampleEndpoints sampleSteps).server.urbs <+:
      (ordersOf (System.after sampleDevice sampleEndpoints sampleSteps).client.shared).map
        Order.taken :=
  commands_arrive_in_order sampleDevice sampleEndpoints sampleSteps sampleRun (by decide)

/-!
# Transfers
-/

/--
In an allowed run, while the session is open and the server goes on, the transfers
that callers wait for are those on their way, each in one place: in a command that
the server has not taken, in its table, or in an answer that the client has not
read.
-/
theorem transfers_conserved (device : ExportedDevice) (endpoints : List (UInt8 × UInt8))
    (steps : List Step) (h : System.Run device endpoints steps)
    (hdevnum : device.devnum.toNat < 65536)
    (hopen : (System.after device endpoints steps).client.shared.state.closed = none)
    (hserving : (System.after device endpoints steps).server.urbs.ended = false) :
    (System.after device endpoints steps).dialogue.holders.Perm
      (awaited (System.after device endpoints steps).client.shared) :=
  (h.sync hdevnum).ok.conserved hopen hserving

theorem transfers_conserved_sample :
    (System.after sampleDevice sampleEndpoints sampleSteps).dialogue.holders.Perm
      (awaited (System.after sampleDevice sampleEndpoints sampleSteps).client.shared) :=
  transfers_conserved sampleDevice sampleEndpoints sampleSteps sampleRun (by decide)
    (by decide +kernel) (by decide +kernel)

/--
In an allowed run in which nobody has left, when both readers are in front of a
header and no byte is on its way, the tables of the two sides are about the same
transfers, and no unlink is left.
-/
theorem tables_agree_when_quiet (device : ExportedDevice) (endpoints : List (UInt8 × UInt8))
    (steps : List Step) (h : System.Run device endpoints steps)
    (hdevnum : device.devnum.toNat < 65536)
    (hopen : (System.after device endpoints steps).client.shared.state.closed = none)
    (hserving : (System.after device endpoints steps).server.urbs.ended = false)
    (hwriting : (System.after device endpoints steps).server.writing = true)
    (hreader : (System.after device endpoints steps).client.reader =
      Client.ReaderPhase.header)
    (hphase : (System.after device endpoints steps).server.phase = Server.Phase.header)
    (hupstream : (System.after device endpoints steps).upstream = [])
    (hdownstream : (System.after device endpoints steps).downstream = []) :
    ((System.after device endpoints steps).server.urbs.pending.entries.map
        fun e => (e.1, e.2)).Perm
      (awaited (System.after device endpoints steps).client.shared) ∧
      (System.after device endpoints steps).client.shared.state.unlinks = ∅ := by
  have hsync := h.sync hdevnum
  have hup := hsync.upstream
  rw [hphase, hupstream] at hup
  rcases hsync.downstream hopen with ⟨lost, hdown, hlost⟩
  rw [hreader, hdownstream, hlost hwriting] at hdown
  have horders := none_of_short Order.encode_length_ge hup.header_eq (by decide)
  have hunread := none_of_short answer_encode_length_ge hdown.header_eq (by decide)
  exact hsync.ok.settled hopen hserving horders hunread

theorem tables_agree_when_quiet_sample :
    ((System.after sampleDevice sampleEndpoints sampleSteps).server.urbs.pending.entries.map
        fun e => (e.1, e.2)).Perm
      (awaited (System.after sampleDevice sampleEndpoints sampleSteps).client.shared) ∧
      (System.after sampleDevice sampleEndpoints sampleSteps).client.shared.state.unlinks = ∅ :=
  tables_agree_when_quiet sampleDevice sampleEndpoints sampleSteps sampleRun (by decide)
    (by decide +kernel) (by decide +kernel) (by decide +kernel) (by decide +kernel)
    (by decide +kernel) (by decide +kernel) (by decide +kernel)

/-!
# Results
-/

/--
In an allowed run a caller gets a result for its own transfer only: what the
device came to for the very command, or that the server cancelled it, and then
the device has answered nothing for it, or that the session has ended.
-/
theorem results_are_answers (device : ExportedDevice) (endpoints : List (UInt8 × UInt8))
    (steps : List Step) (h : System.Run device endpoints steps)
    (hdevnum : device.devnum.toNat < 65536) (reply : Nat) (result : TransferResult)
    (hsent : (reply, result) ∈ (System.after device endpoints steps).client.shared.sent) :
    (System.after device endpoints steps).Answered reply result :=
  System.answered (h.delivered hdevnum) hsent

theorem results_are_answers_sample :
    (System.after sampleDevice sampleEndpoints sampleSteps).Answered 1
      (.error (.unlinked (-104))) :=
  results_are_answers sampleDevice sampleEndpoints sampleSteps sampleRun (by decide) 1
    (.error (.unlinked (-104))) (by decide +kernel)

/--
In an allowed run the completions of one endpoint reach their callers in the order
in which the transfers were submitted.
-/
theorem completions_in_order (device : ExportedDevice) (endpoints : List (UInt8 × UInt8))
    (steps : List Step) (h : System.Run device endpoints steps)
    (hdevnum : device.devnum.toNat < 65536) :
    (delivered (System.after device endpoints steps).client.shared).Pairwise
      (ChannelsInTurn (System.after device endpoints steps).client.shared) := by
  have hdelivered := h.delivered hdevnum
  exact hdelivered.ok.in_turn hdelivered.turns hdelivered.delivers

theorem completions_in_order_sample :
    (delivered (System.after sampleDevice sampleEndpoints sampleSteps).client.shared).Pairwise
      (ChannelsInTurn
        (System.after sampleDevice sampleEndpoints sampleSteps).client.shared) :=
  completions_in_order sampleDevice sampleEndpoints sampleSteps sampleRun (by decide)

/-!
# Rest
-/

/--
Whatever is under way in an allowed run arrives: while both sides go on, rounds in
which every task gets a turn, in any order and for any number of bytes, bring the
two sides to rest after as many rounds as the backlog says.
-/
theorem everything_arrives (device : ExportedDevice) (endpoints : List (UInt8 × UInt8))
    (steps : List Step) (rounds : List (List Step))
    (h : System.Run device endpoints steps) (hdevnum : device.devnum.toNat < 65536)
    (hlive : (System.after device endpoints steps).Live)
    (hrounds : forall round, round ∈ rounds -> Round taskOf round)
    (hmany : (System.after device endpoints steps).backlog ≤ rounds.length) :
    System.Run device endpoints (steps ++ rounds.flatten) ∧
      (System.after device endpoints (steps ++ rounds.flatten)).Live ∧
      (System.after device endpoints (steps ++ rounds.flatten)).Settled := by
  rcases h.rests hdevnum hlive hrounds hmany with ⟨hrun, hend, _, hsettled⟩
  exact ⟨hrun, hend, hsettled⟩

theorem everything_arrives_sample :
    System.Run sampleDevice sampleEndpoints
        (sampleSteps.take 8 ++ (List.replicate 2000 (oneRound 6)).flatten) ∧
      (System.after sampleDevice sampleEndpoints
        (sampleSteps.take 8 ++ (List.replicate 2000 (oneRound 6)).flatten)).Live ∧
      (System.after sampleDevice sampleEndpoints
        (sampleSteps.take 8 ++ (List.replicate 2000 (oneRound 6)).flatten)).Settled :=
  everything_arrives sampleDevice sampleEndpoints (sampleSteps.take 8)
    (List.replicate 2000 (oneRound 6)) (by decide +kernel) (by decide) (by decide +kernel)
    (replicate_rounds 6 2000) (by rw [List.length_replicate]; decide +kernel)

/--
No allowed run gets stuck: from every state in which both sides go on, the tasks
and the device alone can come to a state in which every caller has its one result.
-/
theorem transfers_can_finish (device : ExportedDevice) (endpoints : List (UInt8 × UInt8))
    (steps : List Step) (h : System.Run device endpoints steps)
    (hdevnum : device.devnum.toNat < 65536)
    (hlive : (System.after device endpoints steps).Live) :
    exists more, (forall st, st ∈ more -> Waiting st) ∧
      System.Run device endpoints (steps ++ more) ∧
      forall reply cmd, Client.Event.submitted reply cmd ∈
          (System.after device endpoints (steps ++ more)).client.shared.log ->
        exists result,
          (System.after device endpoints (steps ++ more)).client.shared.answers reply =
            [result] := by
  rcases h.can_finish hdevnum hlive with ⟨more, hmore, hrun, hempty⟩
  refine ⟨more, hmore, hrun, ?_⟩
  intro reply cmd hcmd
  exact answered_of_empty (repliesOk_of_sent (hrun.sync hdevnum).ok.sound.replies) hempty hcmd

theorem transfers_can_finish_sample :
    exists more, (forall st, st ∈ more -> Waiting st) ∧
      System.Run sampleDevice sampleEndpoints (sampleSteps ++ more) ∧
      forall reply cmd, Client.Event.submitted reply cmd ∈
          (System.after sampleDevice sampleEndpoints (sampleSteps ++ more)).client.shared.log ->
        exists result,
          (System.after sampleDevice sampleEndpoints
            (sampleSteps ++ more)).client.shared.answers reply = [result] :=
  transfers_can_finish sampleDevice sampleEndpoints sampleSteps sampleRun (by decide)
    (by decide +kernel)

/--
Detaching does not depend on the device: once a thread has come to the end of
its `unlink_all`, nobody has submitted anything behind its snapshot and both sides
still go on, the tasks alone empty the table that `detach` waits for, whatever
else has happened before the counter wraps.
-/
theorem detach_needs_no_device (device : ExportedDevice) (endpoints : List (UInt8 × UInt8))
    (before during steps : List Step) (targets : List UInt32) (rounds : List (List Step))
    (hsteps : steps = before ++ Step.client (Client.Step.unlinkAll targets) :: during)
    (h : Guarded System.step System.Few (System.start device endpoints) steps)
    (hdevnum : device.devnum.toNat < 65536)
    (htargets : targets.isPerm
      (System.after device endpoints before).client.shared.state.submits.keys = true)
    (hquiet : forall req, Step.client (Client.Step.submit req) ∉ during)
    (hdone : (System.after device endpoints steps).client.threads[
      (System.after device endpoints before).client.threads.length]? = some [])
    (hlive : (System.after device endpoints steps).Live)
    (hrounds : forall round, round ∈ rounds -> Round taskOf round)
    (hmany : (System.after device endpoints steps).backlog ≤ rounds.length) :
    (System.after device endpoints
      (steps ++ rounds.flatten)).client.shared.state.submits = ∅ := by
  have hrun := run_of_few hdevnum h
  have hunlinking : Unlinking (System.after device endpoints steps).client.shared [] := by
    have hcovered : Covered (System.after device endpoints before).client.threads.length
        (System.after device endpoints steps).client := by
      subst hsteps
      rcases guarded_append h with ⟨hbefore, hguard, hduring⟩
      have hstart := And.intro ((run_of_few hdevnum hbefore).sync hdevnum)
        (counted_of_few hdevnum hbefore)
      rcases few_step hguard hstart with ⟨_, hsync, hcounted⟩
      rcases snapshot_covered htargets with ⟨hcovered, hlt⟩
      rw [System.after_append, List.foldl_cons]
      exact covered_run hsync hcounted hcovered hlt hduring hquiet
    unfold Covered remaining at hcovered
    rw [hdone] at hcovered
    exact hcovered
  have hkept := unlinking_of_tasks hunlinking (rounds_only hrounds)
  rcases hrun.rests hdevnum hlive hrounds hmany with ⟨_, _, _, hsettled⟩
  rw [← System.after_append] at hkept
  exact hsettled.nothing_pending hkept

theorem detach_needs_no_device_sample :
    (System.after sampleDevice sampleEndpoints
      ([Step.client (Client.Step.submit bulkIn), Step.client (Client.Step.submit bulkIn),
        Step.client (Client.Step.unlinkAll [2, 1]), Step.client (Client.Step.unlinkNext 0),
        Step.client (Client.Step.unlinkNext 0)] ++
        (List.replicate 2000 (oneRound 6)).flatten)).client.shared.state.submits = ∅ :=
  detach_needs_no_device sampleDevice sampleEndpoints
    [Step.client (Client.Step.submit bulkIn), Step.client (Client.Step.submit bulkIn)]
    [Step.client (Client.Step.unlinkNext 0), Step.client (Client.Step.unlinkNext 0)]
    [Step.client (Client.Step.submit bulkIn), Step.client (Client.Step.submit bulkIn),
      Step.client (Client.Step.unlinkAll [2, 1]), Step.client (Client.Step.unlinkNext 0),
      Step.client (Client.Step.unlinkNext 0)]
    [2, 1] (List.replicate 2000 (oneRound 6)) rfl (by decide +kernel) (by decide)
    (by decide +kernel) (by simp) (by decide +kernel) (by decide +kernel)
    (replicate_rounds 6 2000) (by rw [List.length_replicate]; decide +kernel)

end Link
end UsbIp
