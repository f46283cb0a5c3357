import UsbIp.Client.Tables
import UsbIp.Foundation.History

/-!
# The byte stream to the server

The writer task takes frames from its channel, joins them into batches and
writes the batches.  What has been written, what is left of the batch and what
waits in the channel are always, in this order, the encodings of the commands
that were issued.  The reference parser therefore recovers the commands from
the stream, and an unlink never overtakes the submit it targets.
-/

namespace UsbIp
namespace Client

open Foundation
open Protocol

/-!
# The writer
-/

/-- Frames that were written, are in the batch or wait in the channel. -/
def Session.output (s : Session) : Bytes :=
  s.written ++ (s.batch ++ s.shared.frames.flatten)

def Session.OutputOk (s : Session) : Prop :=
  s.output = s.shared.issued.flatMap Command.encode

theorem Section.frames {request : Option SubmitRequest} {s s' : Shared}
    (hstep : Section request s s') :
    (s'.frames = s.frames ∧ s'.issued = s.issued) ∨
      exists c, s'.frames = s.frames ++ [c.encode] ∧ s'.issued = s.issued ++ [c] := by
  cases hstep with
  | submit h =>
      rcases Shared.submit_cases h with ⟨_, _, rfl, _⟩ | ⟨seqnum, _, _, _, _, rfl⟩
      · exact Or.inl ⟨rfl, rfl⟩
      · exact Or.inr ⟨Command.submit _, rfl, s.register_issued _ _ _⟩
  | unlink h =>
      rcases Shared.unlink_cases h with ⟨rfl, _⟩ | ⟨p, seqnum, _, _, _, _, rfl⟩
      · exact Or.inl ⟨rfl, rfl⟩
      · exact Or.inr ⟨Command.unlink _, rfl, s.registerUnlink_issued _ _ _ _⟩
  | close reason =>
      refine Or.inl ⟨?_, s.close_issued reason⟩
      unfold Shared.close
      split <;> rfl
  | finishSubmit ret => exact Or.inl ⟨rfl, s.finishSubmit_issued ret⟩
  | finishUnlink ret =>
      refine Or.inl ⟨?_, s.finishUnlink_issued ret⟩
      unfold Shared.finishUnlink
      dsimp only
      split
      · rfl
      · split <;> rfl

theorem Session.readerFails_writer (s : Session) (e : ProtocolError) :
    (s.readerFails e).written = s.written ∧ (s.readerFails e).batch = s.batch := by
  unfold Session.readerFails
  split
  · split <;> exact ⟨rfl, rfl⟩
  · exact ⟨rfl, rfl⟩

theorem Session.withShared_writer (s : Session) (shared : Option Shared) :
    (s.withShared shared).written = s.written ∧ (s.withShared shared).batch = s.batch := by
  unfold Session.withShared
  split <;> exact ⟨rfl, rfl⟩

theorem Session.step_writer (s : Session) (st : Step) (hst : st ≠ Step.takeFrame) :
    (s.step st).written ++ (s.step st).batch = s.written ++ s.batch := by
  have hsame : forall t : Session, t.written = s.written ∧ t.batch = s.batch ->
      t.written ++ t.batch = s.written ++ s.batch := by
    intro t ht
    rw [ht.left, ht.right]
  cases st with
  | submit req => exact hsame _ (s.withShared_writer _)
  | unlink target => exact hsame _ (s.withShared_writer _)
  | unlinkAll targets =>
      simp only [Session.step]
      split <;> rfl
  | unlinkNext thread =>
      simp only [Session.step, Session.unlinkNext]
      split
      · exact hsame _ (s.withShared_writer _)
      · rfl
  | close => rfl
  | receive bytes =>
      simp only [Session.step]
      split <;> rfl
  | hangUp => rfl
  | readError text =>
      simp only [Session.step]
      split <;> rfl
  | readHeader =>
      simp only [Session.step, Session.readHeader]
      split
      · split
        · rfl
        · rfl
        · exact hsame _ (s.readerFails_writer _)
      · rfl
  | readPayload =>
      simp only [Session.step, Session.readPayload]
      split
      · split
        · rfl
        · exact hsame _ (s.readerFails_writer _)
      · rfl
  | readerCloses =>
      simp only [Session.step, Session.readerCloses]
      split <;> rfl
  | readerStops =>
      simp only [Session.step]
      split <;> rfl
  | takeFrame => exact absurd rfl hst
  | sealBatch =>
      simp only [Session.step]
      split <;> rfl
  | writeBytes n =>
      simp only [Session.step, Session.writeBytes]
      split
      · simp
      · rfl
  | writerFails text =>
      simp only [Session.step, Session.writerFails]
      split <;> rfl
  | writerStops =>
      simp only [Session.step]
      split
      · split <;> rfl
      · rfl

theorem Session.takeFrame_output (s : Session) : s.takeFrame.output = s.output := by
  unfold Session.takeFrame
  split
  · rename_i hframes
    simp [Session.output, hframes]
  · rename_i hframes
    split
    · simp [Session.output, hframes]
    · rfl
  · rfl

theorem Session.takeFrame_issued (s : Session) :
    s.takeFrame.shared.issued = s.shared.issued := by
  rcases s.takeFrame_shared with ⟨frames, heq⟩
  rw [heq]
  rfl

theorem Session.OutputOk.step {s : Session} (hok : s.OutputOk) (st : Step) :
    (s.step st).OutputOk := by
  by_cases hst : st = Step.takeFrame
  · subst hst
    change s.takeFrame.output = s.takeFrame.shared.issued.flatMap Command.encode
    rw [s.takeFrame_output, s.takeFrame_issued]
    exact hok
  · have hwriter := s.step_writer st hst
    unfold Session.OutputOk Session.output at hok ⊢
    rw [← List.append_assoc, hwriter]
    rw [← List.append_assoc] at hok
    rcases s.step_section st hst with heq | hsection
    · rw [heq]
      exact hok
    · rcases hsection.frames with ⟨hframes, hissued⟩ | ⟨c, hframes, hissued⟩
      · rw [hframes, hissued]
        exact hok
      · rw [hframes, hissued, List.flatMap_append, ← hok]
        simp

theorem Session.outputOk {s : Session} (h : s.Reachable) : s.OutputOk :=
  Session.reachable_of_invariant (I := Session.OutputOk) (fun _ => rfl)
    (fun _ st hok => hok.step st) h

/-!
# Commands that frame themselves
-/

theorem Direction.toU32_eq_zero_iff (d : Direction) :
    d.toU32 = 0 <-> d = Direction.out := by
  cases d <;> decide

theorem SubmitRequest.Accepted.framed {req : SubmitRequest} (h : req.Accepted)
    (hiso : req.isoPackets.length ≤ 1024) (seqnum devid : UInt32) :
    (Command.submit (req.command seqnum devid)).Framed := by
  refine ⟨?_, ?_, hiso⟩
  · intro hdir
    exact h.left ((Direction.toU32_eq_zero_iff _).mp hdir)
  · intro hdir
    apply h.right
    cases hreq : req.direction with
    | out => exact absurd ((Direction.toU32_eq_zero_iff _).mpr hreq) hdir
    | «in» => rfl

def Shared.FramedOk (s : Shared) : Prop :=
  forall c, c ∈ s.issued -> c.Framed

theorem Section.framedOk {request : Option SubmitRequest} {s s' : Shared}
    (hstep : Section request s s') (hok : s.FramedOk)
    (hiso : forall req, request = some req -> req.isoPackets.length ≤ 1024) :
    s'.FramedOk := by
  have hadd : forall {c : Command}, s'.issued = s.issued ++ [c] -> c.Framed ->
      s'.FramedOk := by
    intro c hissued hc d hd
    rw [hissued] at hd
    rcases List.mem_append.mp hd with hold | hnew
    · exact hok d hold
    · rw [List.mem_singleton.mp hnew]
      exact hc
  have hkeep : s'.issued = s.issued -> s'.FramedOk := by
    intro hissued d hd
    exact hok d (hissued ▸ hd)
  cases hstep with
  | submit h =>
      rcases Shared.submit_cases h with ⟨_, _, rfl, _⟩ | ⟨seqnum, _, haccepted, _, _, rfl⟩
      · exact hok
      · exact hadd (s.register_issued _ _ _)
          (haccepted.framed (hiso _ rfl) seqnum s.devid)
  | unlink h =>
      rcases Shared.unlink_cases h with ⟨rfl, _⟩ | ⟨p, seqnum, _, _, _, _, rfl⟩
      · exact hok
      · exact hadd (s.registerUnlink_issued _ _ _ _) trivial
  | close reason => exact hkeep (s.close_issued reason)
  | finishSubmit ret => exact hkeep (s.finishSubmit_issued ret)
  | finishUnlink ret => exact hkeep (s.finishUnlink_issued ret)

/-!
# Unlinks follow their submits
-/

def LastIsSubmit (n : UInt32) (cs : List Command) : Prop :=
  Since (fun c => exists cmd, c = Command.submit cmd ∧ cmd.seqnum = n)
    (fun c => c.seqnum = n) cs.reverse

/--
Every unlink stands behind the submit it targets. Numbers are used again, so that
is the last command with this number.
-/
def UnlinksFollow (cs : List Command) : Prop :=
  forall front u back, cs = front ++ Command.unlink u :: back ->
    LastIsSubmit u.unlinkSeqnum front

theorem LastIsSubmit.here (cs : List Command) (cmd : CmdSubmit) :
    LastIsSubmit cmd.seqnum (cs ++ [Command.submit cmd]) := by
  unfold LastIsSubmit
  rw [List.reverse_concat]
  exact Since.here ⟨cmd, rfl, rfl⟩

theorem LastIsSubmit.later {n : UInt32} {cs : List Command} (h : LastIsSubmit n cs)
    {c : Command} (hc : c.seqnum ≠ n) : LastIsSubmit n (cs ++ [c]) := by
  unfold LastIsSubmit
  rw [List.reverse_concat]
  exact Since.later hc h

theorem UnlinksFollow.append {cs : List Command} (h : UnlinksFollow cs) {c : Command}
    (hc : forall u, c = Command.unlink u -> LastIsSubmit u.unlinkSeqnum cs) :
    UnlinksFollow (cs ++ [c]) := by
  intro front u back hsplit
  rcases List.eq_nil_or_concat back with rfl | ⟨init, last, rfl⟩
  · rcases List.append_inj' hsplit rfl with ⟨hfront, hlast⟩
    rw [← hfront]
    exact hc u (List.cons.inj hlast).left
  · rw [List.concat_eq_append, ← List.cons_append, ← List.append_assoc] at hsplit
    rcases List.append_inj' hsplit rfl with ⟨hfront, _⟩
    exact h front u init hfront

/-- Pending transfers own the last command with their number. -/
structure Shared.Ordered (s : Shared) : Prop where
  pending : forall n, n ∈ s.state.submits -> LastIsSubmit n s.issued
  follow : UnlinksFollow s.issued

theorem Shared.Ordered.shrink {s s' : Shared} (hok : s.Ordered)
    (hissued : s'.issued = s.issued)
    (hsubmits : forall n, n ∈ s'.state.submits -> n ∈ s.state.submits) : s'.Ordered := by
  constructor
  · intro n hn
    rw [hissued]
    exact hok.pending n (hsubmits n hn)
  · rw [hissued]
    exact hok.follow

theorem Shared.Ordered.register {s : Shared} (hok : s.Ordered) (req : SubmitRequest)
    {seqnum : UInt32} (hfree : s.state.Free seqnum) :
    (s.register req seqnum { s.state with nextSeqnum := seqnum }).Ordered := by
  constructor
  · intro n hn
    rw [s.register_issued]
    rcases (AList.mem_insert _).mp hn with rfl | hold
    · exact LastIsSubmit.here s.issued (req.command n s.devid)
    · apply (hok.pending n hold).later
      rintro rfl
      exact hfree.right.left hold
  · rw [s.register_issued]
    apply hok.follow.append
    intro u hu
    cases hu

theorem Shared.Ordered.registerUnlink {s : Shared} (hok : s.Ordered) {target : UInt32}
    (htarget : target ∈ s.state.submits) (reply : Nat) {seqnum : UInt32}
    (hfree : s.state.Free seqnum) :
    (s.registerUnlink target reply seqnum { s.state with nextSeqnum := seqnum }).Ordered := by
  constructor
  · intro n hn
    rw [s.registerUnlink_issued]
    apply (hok.pending n hn).later
    rintro rfl
    exact hfree.right.left hn
  · rw [s.registerUnlink_issued]
    apply hok.follow.append
    intro u hu
    cases hu
    exact hok.pending target htarget

theorem Section.ordered {request : Option SubmitRequest} {s s' : Shared}
    (hstep : Section request s s') (hok : s.Ordered) : s'.Ordered := by
  cases hstep with
  | submit h =>
      rcases Shared.submit_cases h with ⟨_, _, rfl, _⟩ | ⟨seqnum, _, _, _, hfree, rfl⟩
      · exact hok
      · exact hok.register _ hfree.free
  | unlink h =>
      rcases Shared.unlink_cases h with ⟨rfl, _⟩ | ⟨p, seqnum, hp, _, _, hfree, rfl⟩
      · exact hok
      · exact hok.registerUnlink (Table.mem_iff_lookup.mpr ⟨p, hp⟩) p.reply hfree.free
  | close reason =>
      apply hok.shrink (s.close_issued reason)
      intro n hn
      unfold Shared.close at hn
      split at hn
      · exact hn
      · exact absurd hn (AList.notMem_empty n)
  | finishSubmit ret =>
      apply hok.shrink (s.finishSubmit_issued ret)
      intro n hn
      exact (AList.mem_erase.mp hn).right
  | finishUnlink ret =>
      apply hok.shrink (s.finishUnlink_issued ret)
      intro n hn
      unfold Shared.finishUnlink at hn
      dsimp only at hn
      split at hn
      · exact hn
      · split at hn
        · exact hn
        · exact (AList.mem_erase.mp hn).right

theorem Session.ordered {s : Session} (h : s.Reachable) : s.shared.Ordered := by
  refine Session.shared_invariant ?_ ?_ (fun _ _ _ hstep hok => hstep.ordered hok) h
  · intro devid
    constructor
    · intro n hn
      exact absurd hn (AList.notMem_empty n)
    · intro front u back hsplit
      cases front <;> cases hsplit
  · intro s frames hok
    exact ⟨hok.pending, hok.follow⟩

/-!
# The wire
-/

/-- The requests of a step have at most as many packets as a URB may have. -/
def Step.PacketsOk (st : Step) : Prop :=
  forall req, st = Step.submit req -> req.isoPackets.length ≤ 1024

theorem Session.framedOk_step {s : Session} {st : Step} (hst : st.PacketsOk)
    (hok : s.shared.FramedOk) : (s.step st).shared.FramedOk := by
  rcases s.step_shared st with ⟨frames, heq⟩ | hsection
  · rw [heq]
    exact hok
  · apply hsection.framedOk hok
    intro req hreq
    cases st with
    | submit r =>
        cases hreq
        exact hst _ rfl
    | _ => cases hreq

/--
In every state of every run whose requests have at most 1024 packets, the bytes
written so far are a prefix of the issued commands' encodings, the reference
parser recovers the issued commands from all of these bytes, and every unlink
stands behind the submit it targets.
-/
theorem written_parses_as_issued (device : ExportedDevice) (steps : List Step)
    (hpackets : forall req, Step.submit req ∈ steps -> req.isoPackets.length ≤ 1024) :
    let s := List.foldl Session.step (Session.start device) steps
    s.written <+: s.shared.issued.flatMap Command.encode ∧
      parseCommands (s.shared.issued.flatMap Command.encode) = some s.shared.issued ∧
      UnlinksFollow s.shared.issued := by
  intro s
  have hreach : s.Reachable := ⟨device, steps, rfl⟩
  refine ⟨⟨_, Session.outputOk hreach⟩, ?_, (Session.ordered hreach).follow⟩
  apply parseCommands_flatMap_encode
  have hguard : Guarded Session.step (fun _ st => st.PacketsOk)
      (Session.start device) steps := by
    apply guarded_of_forall
    intro st hst _ req hreq
    exact hpackets req (hreq ▸ hst)
  refine invariant_of_guarded (I := fun s : Session => s.shared.FramedOk)
    (fun s st hst hok => Session.framedOk_step hst hok) hguard ?_
  intro c hc
  cases hc

theorem written_parses_as_issued_out :
    let req := { SubmitRequest.new 1 Direction.out 2 with data := [7, 9] }
    let device : ExportedDevice :=
      { path := "", busid := "1-1", busnum := 1, devnum := 2, speed := Speed.high,
        idVendor := 0, idProduct := 0, bcdDevice := 0, deviceClass := 0,
        deviceSubclass := 0, deviceProtocol := 0, configurationValue := 0,
        numConfigurations := 1, numInterfaces := 0, interfaces := [] }
    let s := List.foldl Session.step (Session.start device)
      [Step.submit req, Step.unlink 1, Step.takeFrame, Step.takeFrame, Step.sealBatch,
        Step.writeBytes 49]
    s.written.length = 49 ∧
      s.shared.issued =
        [Command.submit (req.command 1 0x10002),
          Command.unlink { seqnum := 2, devid := 0x10002, unlinkSeqnum := 1 }] ∧
      s.written <+: s.shared.issued.flatMap Command.encode ∧
      parseCommands (s.shared.issued.flatMap Command.encode) = some s.shared.issued ∧
      UnlinksFollow s.shared.issued := by
  refine ⟨by decide +kernel, by decide +kernel, written_parses_as_issued _ _ ?_⟩
  intro req hreq
  simp only [List.mem_cons, Step.submit.injEq, reduceCtorEq, List.not_mem_nil, or_false] at hreq
  rw [hreq]
  decide

end Client
end UsbIp
