import UsbIp.Link.Delivery
import UsbIp.Link.Numbering
import UsbIp.Link.Progress

/-!
# Runs that come to rest

What holds once the tasks have passed on everything: the two sides agree.  From
there the device can finish every transfer, and a client that detaches need not
even wait for the device.
-/

namespace UsbIp
namespace Link

open Foundation
open Protocol
open Client (Shared SubmitRequest Session ExportedDevice)
open Server (Urb Urbs Answer Outcome Completion Job Connection urbOf unlinkStatus)

/-!
# Batches
-/

theorem BatchOk.of_same {s s' : Session} (h : BatchOk s) (hwriter : s'.writer = s.writer)
    (hbatch : s'.batch = s.batch) : BatchOk s' := by
  intro hreceiving
  rw [hbatch]
  apply h
  rw [← hwriter]
  exact hreceiving

theorem BatchOk.withShared {s : Session} (h : BatchOk s) (shared : Option Shared) :
    BatchOk (s.withShared shared) := by
  unfold Session.withShared
  split <;> exact h

theorem BatchOk.readerFails {s : Session} (h : BatchOk s) (e : ProtocolError) :
    BatchOk (s.readerFails e) := by
  unfold Session.readerFails
  split
  · split <;> exact h
  · exact h

theorem BatchOk.step {s : Session} (h : BatchOk s) (st : Client.Step) : BatchOk (s.step st) := by
  cases st with
  | submit req => exact h.withShared _
  | unlink target => exact h.withShared _
  | unlinkAll targets =>
      simp only [Session.step]
      split <;> exact h
  | unlinkNext thread =>
      simp only [Session.step, Session.unlinkNext]
      split
      · exact (h.withShared _).of_same rfl rfl
      · exact h
  | close => exact h
  | receive bytes =>
      simp only [Session.step]
      split <;> exact h
  | hangUp => exact h
  | readError text =>
      simp only [Session.step]
      split <;> exact h
  | readHeader =>
      simp only [Session.step, Session.readHeader]
      split
      · split
        · exact h
        · exact h
        · exact h.readerFails _
      · exact h
  | readPayload =>
      simp only [Session.step, Session.readPayload]
      split
      · split
        · exact h
        · exact h.readerFails _
      · exact h
  | readerCloses =>
      simp only [Session.step, Session.readerCloses]
      split <;> exact h
  | readerStops =>
      simp only [Session.step]
      split <;> exact h
  | takeFrame =>
      simp only [Session.step, Session.takeFrame]
      split
      · intro hreceiving
        cases hreceiving
      · rename_i hwriter _
        split
        · intro hreceiving
          dsimp only at hreceiving
          rw [hwriter] at hreceiving
          cases hreceiving
        · exact h
      · exact h
  | sealBatch =>
      simp only [Session.step]
      split
      · intro hreceiving
        cases hreceiving
      · exact h
  | writeBytes n =>
      simp only [Session.step, Session.writeBytes]
      split
      · intro hreceiving
        dsimp only at hreceiving ⊢
        split at hreceiving
        · rename_i hempty
          exact List.isEmpty_iff.mp hempty
        · cases hreceiving
      · exact h
  | writerFails text =>
      simp only [Session.step, Session.writerFails]
      split
      · intro hreceiving
        cases hreceiving
      · exact h
  | writerStops =>
      simp only [Session.step]
      split
      · split
        · intro hreceiving
          cases hreceiving
        · exact h
      · exact h

theorem System.step_client (l : System) (st : Step) :
    (l.step st).client = l.client ∨
      exists own, (l.step st).client = l.client.step own ∧
        (forall req, own = Client.Step.submit req ->
          st = Step.client (Client.Step.submit req)) := by
  cases st with
  | client st =>
      simp only [System.step]
      split
      · refine Or.inr ⟨st, rfl, ?_⟩
        rintro req rfl
        rfl
      · exact Or.inl rfl
  | server st =>
      simp only [System.step]
      split <;> exact Or.inl rfl
  | toServer n => exact Or.inl rfl
  | toClient n =>
      simp only [System.step]
      split
      · exact Or.inl rfl
      · refine Or.inr ⟨Client.Step.receive (l.toClient.take n), rfl, ?_⟩
        intro req h
        cases h
  | hangUp =>
      simp only [System.step]
      split
      · refine Or.inr ⟨Client.Step.hangUp, rfl, ?_⟩
        intro req h
        cases h
      · exact Or.inl rfl

theorem System.batch_step {l : System} (h : BatchOk l.client) (st : Step) :
    BatchOk (l.step st).client := by
  rcases l.step_client st with hsame | ⟨own, hown, _⟩
  · rw [hsame]
    exact h
  · rw [hown]
    exact h.step own

theorem System.after_batch (device : ExportedDevice) (endpoints : List (UInt8 × UInt8))
    (steps : List Step) : BatchOk (System.after device endpoints steps).client :=
  invariant_of_step (I := fun l : System => BatchOk l.client)
    (fun _ st h => System.batch_step h st) steps (fun _ => rfl)

/-!
# At rest
-/

/-- The two sides agree, and neither is waiting for the other. -/
structure System.Settled (l : System) : Prop where
  taken : takenOf l.server.urbs = (ordersOf l.client.shared).map Order.taken
  read : readsOf l.client.shared = l.server.urbs.answers.length
  pending : (l.server.urbs.pending.entries.map fun e => (e.1, e.2)).Perm
    (awaited l.client.shared)
  unlinks : l.client.shared.state.unlinks = ∅

theorem Dialogue.Delivered.settled {l : System} (h : l.dialogue.Delivered) (hlive : l.Live)
    (horders : l.dialogue.orders = []) (hunread : l.dialogue.unread = []) : l.Settled := by
  rcases h.ok.settled hlive.opened hlive.serving horders hunread with ⟨hpending, hunlinks⟩
  have htaken := List.drop_eq_nil_iff.mp horders
  refine ⟨?_, ?_, hpending, hunlinks⟩
  · have harrived := h.arrived
    unfold Dialogue.Arrived at harrived
    rw [List.take_of_length_le htaken] at harrived
    exact harrived
  · exact Nat.le_antisymm (h.ok.sound.reads_le hlive.opened) (List.drop_eq_nil_iff.mp hunread)

theorem System.after_append (device : ExportedDevice) (endpoints : List (UInt8 × UInt8))
    (steps more : List Step) :
    System.after device endpoints (steps ++ more) =
      more.foldl System.step (System.after device endpoints steps) :=
  List.foldl_append

theorem System.Run.append {device : ExportedDevice} {endpoints : List (UInt8 × UInt8)}
    {steps more : List Step} (h : System.Run device endpoints steps)
    (hmore : Guarded System.step System.Allowed (System.after device endpoints steps) more) :
    System.Run device endpoints (steps ++ more) :=
  Guarded.append h hmore

theorem guarded_of_tasks {more : List Step}
    (honly : forall st, st ∈ more -> exists t, taskOf st = some t) (l : System) :
    Guarded System.step System.Allowed l more := by
  apply guarded_of_forall
  intro st hst s
  rcases honly st hst with ⟨t, ht⟩
  exact allowed_of_task ht

/-- As many rounds as there is work bring the two sides to rest. -/
theorem System.Run.rests {device : ExportedDevice} {endpoints : List (UInt8 × UInt8)}
    {steps : List Step} {rounds : List (List Step)} (h : System.Run device endpoints steps)
    (hdevnum : device.devnum.toNat < 65536)
    (hlive : (System.after device endpoints steps).Live)
    (hrounds : forall round, round ∈ rounds -> Round taskOf round)
    (hmany : (System.after device endpoints steps).backlog ≤ rounds.length) :
    System.Run device endpoints (steps ++ rounds.flatten) ∧
      (System.after device endpoints (steps ++ rounds.flatten)).Live ∧
      (System.after device endpoints (steps ++ rounds.flatten)).dialogue.orders = [] ∧
      (System.after device endpoints (steps ++ rounds.flatten)).Settled := by
  have honly := rounds_only hrounds
  have hrun := h.append (guarded_of_tasks honly _)
  have hstart := And.intro (h.sync hdevnum)
    (And.intro hlive (System.after_batch device endpoints steps))
  have hkept := tasks_descent.kept_run honly hstart
  have hzero := tasks_descent.rounds hrounds hstart hmany
  rw [← System.after_append] at hkept hzero
  rcases hkept.left.nothing_left hkept.right.left hzero with ⟨horders, hunread⟩
  exact ⟨hrun, hkept.right.left, horders,
    (hrun.delivered hdevnum).settled hkept.right.left horders hunread⟩

/-!
# The device finishes
-/

/-- What a step may be while callers only wait. -/
def Waiting (st : Step) : Prop :=
  (exists t, taskOf st = some t) ∨
    exists address outcome, st = Step.server (Server.Step.finish address outcome)

def finishJob (job : Job) : Step :=
  Step.server (Server.Step.finish job.urb.address (Outcome.complete (Completion.written 0)))

theorem System.Sync.job_packets {l : System} (hl : l.Sync) {job : Job}
    (hjob : job ∈ l.server.urbs.jobs) : job.urb.iso.length ≤ 1024 := by
  rcases hl.ok.sound.jobs_issued job hjob with ⟨cmd, hcmd, hurb⟩
  have hgood := hl.good _ (mem_ordersOf_submit.mpr hcmd)
  rw [hurb]
  exact hgood.polite.packets_le

theorem job_outcome_written (job : Job) :
    job.outcome (Outcome.complete (Completion.written 0)) =
      Outcome.complete (Completion.written 0) := by
  unfold Job.outcome
  split <;> rfl

theorem fits_written {urb : Urb} (hiso : urb.iso.length ≤ 1024) :
    Fits urb (Outcome.complete (Completion.written 0)) := by
  refine ⟨fun _ => Nat.zero_le _, fun _ => ?_, hiso⟩
  exact UInt32.le_iff_toNat_le.mpr (Nat.zero_le _)

theorem finishJob_allowed {l : System} (hl : l.Sync) (job : Job) :
    l.Allowed (finishJob job) := by
  intro found hfound
  have hmem : found ∈ l.server.urbs.jobs := List.mem_of_find?_eq_some hfound
  rw [job_outcome_written]
  exact fits_written (hl.job_packets hmem)

theorem finishJob_live {l : System} (hlive : l.Live) {job : Job} {rest : List Job}
    (hjobs : l.server.urbs.jobs = job :: rest) :
    (l.step (finishJob job)).Live ∧ (l.step (finishJob job)).client = l.client ∧
      (l.step (finishJob job)).server.urbs.jobs = rest ∧
      (l.step (finishJob job)).server.urbs.taken = l.server.urbs.taken := by
  have hat : Job.at job.urb.address job = true := by
    unfold Job.at
    exact decide_eq_true rfl
  have hfind : l.server.urbs.jobs.find? (Job.at job.urb.address) = some job := by
    rw [hjobs, List.find?_cons_of_pos hat]
  have herase : l.server.urbs.jobs.eraseP (Job.at job.urb.address) = rest := by
    rw [hjobs, List.eraseP_cons_of_pos hat]
  have hurbs : (l.server.urbs.finish job.urb.address
        (Outcome.complete (Completion.written 0))).1.ended = l.server.urbs.ended ∧
      (l.server.urbs.finish job.urb.address
        (Outcome.complete (Completion.written 0))).1.jobs = rest ∧
      (l.server.urbs.finish job.urb.address
        (Outcome.complete (Completion.written 0))).1.taken = l.server.urbs.taken := by
    unfold Urbs.finish
    rw [hfind]
    dsimp only
    rw [herase]
    cases hpending : l.server.urbs.pending.lookup job.urb.seqnum with
    | none => exact ⟨rfl, rfl, rfl⟩
    | some cancel =>
        rw [job_outcome_written]
        refine ⟨Urbs.put_ended _ _, Urbs.put_jobs _ _, ?_⟩
        refine (Urbs.put_taken _ _).trans ?_
        simp [Urbs.taken, Server.Event.isCommand]
  have hstep : l.step (finishJob job) = l.serverStep (Server.Step.finish job.urb.address
      (Outcome.complete (Completion.written 0))) := rfl
  rw [hstep]
  refine ⟨?_, rfl, hurbs.right.left, hurbs.right.right⟩
  exact { hlive with serving := hurbs.left.trans hlive.serving }

theorem jobs_finish (jobs : List Job) {l : System} (hl : l.Sync) (hlive : l.Live)
    (hjobs : l.server.urbs.jobs = jobs) :
    exists more, (forall st, st ∈ more -> Waiting st) ∧
      Guarded System.step System.Allowed l more ∧ (more.foldl System.step l).Live ∧
      (more.foldl System.step l).client = l.client ∧
      (more.foldl System.step l).server.urbs.jobs = [] ∧
      (more.foldl System.step l).server.urbs.taken = l.server.urbs.taken := by
  induction jobs generalizing l with
  | nil =>
      refine ⟨[], ?_, trivial, hlive, rfl, hjobs, rfl⟩
      intro st hst
      cases hst
  | cons job rest ih =>
      have hallowed := finishJob_allowed hl job
      rcases finishJob_live hlive hjobs with ⟨hnext, hclient, hrest, htaken⟩
      rcases ih (hl.step hallowed).left hnext hrest with
        ⟨more, hmore, hguarded, hend, hsame, hnone, hcount⟩
      refine ⟨finishJob job :: more, ?_, ⟨hallowed, hguarded⟩, hend, hsame.trans hclient,
        hnone, hcount.trans htaken⟩
      intro st hst
      rcases List.mem_cons.mp hst with rfl | hmem
      · exact Or.inr ⟨_, _, rfl⟩
      · exact hmore st hmem

theorem jobs_of_task {l : System} (hl : l.Sync) (horders : l.dialogue.orders = [])
    {st : Step} {t : Task} (htask : taskOf st = some t) :
    (l.step st).server.urbs = l.server.urbs := by
  cases st with
  | client st =>
      simp only [System.step]
      split <;> rfl
  | server st =>
      have hstep : (l.step (Step.server st)).server.urbs = (l.server.step st).urbs ∨
          (l.step (Step.server st)).server.urbs = l.server.urbs := by
        simp only [System.step]
        split
        · exact Or.inl rfl
        · exact Or.inr rfl
      rcases hstep with heq | heq
      · rw [heq]
        cases st with
        | read =>
            have hturn := hl.serve_turn
            show l.server.read.urbs = _
            generalize l.server.read = s at hturn
            cases hturn with
            | submit _ hsome _ _ =>
                rw [horders] at hsome
                cases hsome
            | unlink _ hsome _ _ =>
                rw [horders] at hsome
                cases hsome
            | _ => rfl
        | write =>
            simp only [Connection.step, Connection.write]
            split <;> rfl
        | _ => cases htask
      · exact heq
  | toServer n => rfl
  | toClient n =>
      simp only [System.step]
      split <;> rfl
  | hangUp => cases htask

theorem urbs_of_tasks {l : System} (hl : l.Sync) (horders : l.dialogue.orders = [])
    {more : List Step} (honly : forall st, st ∈ more -> exists t, taskOf st = some t) :
    (more.foldl System.step l).server.urbs = l.server.urbs := by
  induction more generalizing l with
  | nil => rfl
  | cons st rest ih =>
      rcases honly st List.mem_cons_self with ⟨t, htask⟩
      have hsame := jobs_of_task hl horders htask
      have hnext : (l.step st).dialogue.orders = [] := by
        show (ordersOf (l.step st).client.shared).drop (l.step st).server.urbs.taken = []
        rw [orders_of_task l htask, hsame]
        exact horders
      exact (ih (hl.step (allowed_of_task htask)).left hnext
        fun k hk => honly k (List.mem_cons_of_mem st hk)).trans hsame

theorem System.Settled.nobody_waits {l : System} (h : l.Settled) (hl : l.Sync)
    (hjobs : l.server.urbs.jobs = []) : l.client.shared.state.submits = ∅ := by
  have hpending : l.server.urbs.pending.entries = [] := by
    apply List.eq_nil_iff_forall_not_mem.mpr
    rintro ⟨n, c⟩ hmem
    rcases hl.ok.sound.pending_job n c (Table.mem_entries_iff.mp hmem) with ⟨job, hjob, _⟩
    have hnone : job ∈ l.server.urbs.jobs := hjob
    rw [hjobs] at hnone
    cases hnone
  have hperm := h.pending
  rw [hpending] at hperm
  have hawaited := List.map_eq_nil_iff.mp (List.nil_perm.mp hperm)
  exact AList.ext hawaited

theorem answered_of_empty {s : Shared} (hok : s.RepliesOk) (hempty : s.state.submits = ∅)
    {reply : Nat} {cmd : CmdSubmit} (hcmd : Client.Event.submitted reply cmd ∈ s.log) :
    exists result, s.answers reply = [result] := by
  rcases hok.outcome reply cmd hcmd with hpending | hresolved
  · rcases hpending.left with ⟨p, hp, _⟩
    rw [hempty] at hp
    cases hp
  · rcases hresolved.right with ⟨result, hresult, _⟩
    exact ⟨result, hresult⟩

def oneRound (n : Nat) : List Step :=
  [Step.client Client.Step.takeFrame, Step.client Client.Step.sealBatch,
    Step.client (Client.Step.writeBytes (n + 1)), Step.toServer (n + 1),
    Step.server Server.Step.read, Step.server Server.Step.write, Step.toClient (n + 1),
    Step.client Client.Step.readHeader, Step.client Client.Step.readPayload]

theorem oneRound_round (n : Nat) : Round taskOf (oneRound n) where
  only := by
    intro st hst
    have htasks : (oneRound n).map taskOf =
        [some Task.takeFrame, some Task.sealBatch, some Task.writeBytes, some Task.toServer,
          some Task.read, some Task.write, some Task.toClient, some Task.readHeader,
          some Task.readPayload] := rfl
    have hmem := List.mem_map_of_mem (f := taskOf) hst
    rw [htasks] at hmem
    cases htask : taskOf st with
    | some t => exact ⟨t, rfl⟩
    | none =>
        rw [htask] at hmem
        simp at hmem
  every := by
    intro t
    cases t <;> simp [oneRound, taskOf]

theorem replicate_rounds (n k : Nat) :
    forall round, round ∈ List.replicate k (oneRound n) -> Round taskOf round := by
  intro round hround
  rw [List.eq_of_mem_replicate hround]
  exact oneRound_round n

theorem System.Run.can_rest {device : ExportedDevice} {endpoints : List (UInt8 × UInt8)}
    {steps : List Step} (h : System.Run device endpoints steps)
    (hdevnum : device.devnum.toNat < 65536)
    (hlive : (System.after device endpoints steps).Live) :
    exists more, (forall st, st ∈ more -> exists t, taskOf st = some t) ∧
      System.Run device endpoints (steps ++ more) ∧
      (System.after device endpoints (steps ++ more)).Live ∧
      (System.after device endpoints (steps ++ more)).dialogue.orders = [] ∧
      (System.after device endpoints (steps ++ more)).Settled :=
  ⟨_, rounds_only (replicate_rounds 0 _),
    h.rests hdevnum hlive (replicate_rounds 0 _) (Nat.le_of_eq List.length_replicate.symm)⟩

/-- From every live state there is a way to the end of all transfers. -/
theorem System.Run.can_finish {device : ExportedDevice} {endpoints : List (UInt8 × UInt8)}
    {steps : List Step} (h : System.Run device endpoints steps)
    (hdevnum : device.devnum.toNat < 65536)
    (hlive : (System.after device endpoints steps).Live) :
    exists more, (forall st, st ∈ more -> Waiting st) ∧
      System.Run device endpoints (steps ++ more) ∧
      (System.after device endpoints (steps ++ more)).client.shared.state.submits = ∅ := by
  -- First the orders, so that the server knows every job; then the jobs, then the answers.
  rcases h.can_rest hdevnum hlive with ⟨first, hfirst, hrun, hlive, horders, _⟩
  rcases jobs_finish _ (hrun.sync hdevnum) hlive rfl with
    ⟨outcomes, houtcomes, hguarded, hlive, hclient, hjobs, htaken⟩
  rw [← System.after_append] at hlive hclient hjobs htaken
  have hfinished := hrun.append hguarded
  have horders : (System.after device endpoints
      (steps ++ first ++ outcomes)).dialogue.orders = [] := by
    show (ordersOf (System.after device endpoints _).client.shared).drop
      (System.after device endpoints _).server.urbs.taken = []
    rw [htaken, hclient]
    exact horders
  rcases hfinished.can_rest hdevnum hlive with ⟨last, hlast, hend, _, _, hsettled⟩
  have hurbs := urbs_of_tasks (hfinished.sync hdevnum) horders hlast
  rw [← System.after_append] at hurbs
  have hassoc : steps ++ (first ++ (outcomes ++ last)) = steps ++ first ++ outcomes ++ last := by
    simp only [List.append_assoc]
  refine ⟨first ++ (outcomes ++ last), ?_, ?_⟩
  · intro st hst
    rcases List.mem_append.mp hst with hmem | hst
    · exact Or.inl (hfirst st hmem)
    · rcases List.mem_append.mp hst with hmem | hmem
      · exact houtcomes st hmem
      · exact Or.inl (hlast st hmem)
  · rw [hassoc]
    refine ⟨hend, hsettled.nobody_waits (hend.sync hdevnum) ?_⟩
    rw [hurbs]
    exact hjobs

end Link
end UsbIp
