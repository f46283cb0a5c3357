import UsbIp.Client.Tables
import UsbIp.Protocol.Replies

/-!
# The reader stays in step with the stream

A reply header does not say whether data follows; that depends on what was
asked for under its number, which submits, unlinks and earlier replies keep
changing.  Here a script of well-formed replies and local calls is played
against a session: every reply is read to its last byte and no further, and is
answered with exactly what was sent.
-/

namespace UsbIp
namespace Client

open Foundation
open Protocol

/-!
# The other steps
-/

def Step.reads : Step -> Bool
  | Step.readHeader => true
  | Step.readPayload => true
  | _ => false

inductive Session.ReaderKept (s s' : Session) : Prop where
  | same : s'.reader = s.reader -> ReaderKept s s'
  | failed (text : String) :
      s'.reader = ReaderPhase.failed ("i/o error: " ++ text) -> ReaderKept s s'
  | stopped : s'.reader = ReaderPhase.stopped ->
      s'.shared.state.closed.isSome = true -> ReaderKept s s'

theorem Session.withShared_reader (s : Session) (shared : Option Shared) :
    (s.withShared shared).reader = s.reader ∧ (s.withShared shared).input = s.input := by
  unfold Session.withShared
  split <;> exact ⟨rfl, rfl⟩

theorem Session.step_reader (s : Session) {st : Step} (hreads : st.reads = false) :
    s.ReaderKept (s.step st) ∧
      ((forall bytes, st ≠ Step.receive bytes) -> (s.step st).input = s.input) := by
  have hsame : forall t : Session, t.reader = s.reader ∧ t.input = s.input ->
      s.ReaderKept t ∧ ((forall bytes, st ≠ Step.receive bytes) -> t.input = s.input) :=
    fun t h => ⟨ReaderKept.same h.left, fun _ => h.right⟩
  cases st with
  | submit req => exact hsame _ (s.withShared_reader _)
  | unlink target => exact hsame _ (s.withShared_reader _)
  | unlinkAll targets =>
      simp only [Session.step]
      split <;> exact hsame _ ⟨rfl, rfl⟩
  | unlinkNext thread =>
      simp only [Session.step, Session.unlinkNext]
      split
      · exact hsame _ (s.withShared_reader _)
      · exact hsame _ ⟨rfl, rfl⟩
  | close => exact hsame _ ⟨rfl, rfl⟩
  | receive bytes =>
      refine ⟨ReaderKept.same ?_, fun hother => absurd rfl (hother bytes)⟩
      simp only [Session.step]
      split <;> rfl
  | hangUp => exact hsame _ ⟨rfl, rfl⟩
  | readError text =>
      simp only [Session.step]
      split
      · exact ⟨ReaderKept.failed text rfl, fun _ => rfl⟩
      · exact ⟨ReaderKept.failed text rfl, fun _ => rfl⟩
      · exact hsame _ ⟨rfl, rfl⟩
  | readHeader => cases hreads
  | readPayload => cases hreads
  | readerCloses =>
      simp only [Session.step, Session.readerCloses]
      split
      · exact ⟨ReaderKept.stopped rfl (Shared.close_closed _ _), fun _ => rfl⟩
      · exact hsame _ ⟨rfl, rfl⟩
  | readerStops =>
      simp only [Session.step]
      split
      · rename_i hclosed
        exact ⟨ReaderKept.stopped rfl hclosed, fun _ => rfl⟩
      · exact hsame _ ⟨rfl, rfl⟩
  | takeFrame =>
      simp only [Session.step, Session.takeFrame]
      split
      · exact hsame _ ⟨rfl, rfl⟩
      · split <;> exact hsame _ ⟨rfl, rfl⟩
      · exact hsame _ ⟨rfl, rfl⟩
  | sealBatch =>
      simp only [Session.step]
      split <;> exact hsame _ ⟨rfl, rfl⟩
  | writeBytes n =>
      simp only [Session.step, Session.writeBytes]
      split <;> exact hsame _ ⟨rfl, rfl⟩
  | writerFails text =>
      simp only [Session.step, Session.writerFails]
      split <;> exact hsame _ ⟨rfl, rfl⟩
  | writerStops =>
      simp only [Session.step]
      split
      · split <;> exact hsame _ ⟨rfl, rfl⟩
      · exact hsame _ ⟨rfl, rfl⟩

/-!
# Scripts
-/

/-- What happens between two calls of `read_one`, or what one of them reads. -/
inductive Item where
  | ret (r : ServerSubmit)
  | retUnlink (r : ServerUnlink)
  | submit (req : SubmitRequest)
  | unlink (target : UInt32)

def Item.bytes : Item -> Bytes
  | Item.ret r => r.encode
  | Item.retUnlink r => r.encode
  | Item.submit _ => []
  | Item.unlink _ => []

/-- The state behind an item. A local call that does not return changes nothing. -/
def Item.next (s : Shared) : Item -> Shared
  | Item.ret r => s.finishSubmit r.ret
  | Item.retUnlink r => s.finishUnlink r.ret
  | Item.submit req => ((s.submit req).map Prod.snd).getD s
  | Item.unlink target => (s.unlink target).getD s

/--
A RET_SUBMIT is for a transfer that is pending or remembered as unlinked when
it arrives, and fits it. A RET_UNLINK may have any number.
-/
def Item.WellFormed (s : Shared) : Item -> Prop
  | Item.ret r =>
      exists direction length, s.state.request r.ret.seqnum = some (direction, length) ∧
        r.WellFormed direction length
  | _ => True

/-- Plays a script: replies are read from the stream, calls are made in between. -/
def play (s : Shared) : List Item -> Bytes -> Except ProtocolError (Shared × Bytes)
  | [], bytes => .ok (s, bytes)
  | Item.ret _ :: items, bytes => do
      let (s, bytes) ← readOne s bytes
      play s items bytes
  | Item.retUnlink _ :: items, bytes => do
      let (s, bytes) ← readOne s bytes
      play s items bytes
  | Item.submit req :: items, bytes => play (Item.next s (Item.submit req)) items bytes
  | Item.unlink target :: items, bytes => play (Item.next s (Item.unlink target)) items bytes

/-!
# One reply
-/

theorem lookupReply_header {s : Shared} {r : ServerSubmit} {direction : Direction}
    {length : UInt32} (hrequest : s.state.request r.ret.seqnum = some (direction, length))
    (hpackets : r.ret.isoPackets.length ≤ 1024) (rest : Bytes) :
    lookupReply s (r.header ++ rest) =
      .ok (Looked.payload r.ret.submitHeader direction length, rest) := by
  have hseqnum : r.ret.submitHeader.seqnum = r.ret.seqnum := rfl
  unfold lookupReply
  rw [readReplyHeader_submit hpackets rest]
  simp only [bind, Except.bind, hseqnum, hrequest]
  rfl

theorem lookupReply_ret {s : Shared} {r : ServerSubmit} {direction : Direction}
    {length : UInt32} (hrequest : s.state.request r.ret.seqnum = some (direction, length))
    (hwf : r.WellFormed direction length) (rest : Bytes) :
    lookupReply s (r.encode ++ rest) =
      .ok (Looked.payload r.ret.submitHeader direction length,
        r.ret.data ++ (r.ret.isoPackets.flatMap IsoPacketDescriptor.encode ++ rest)) := by
  rw [ServerSubmit.encode, List.append_assoc, List.append_assoc]
  exact lookupReply_header hrequest hwf.packets_le _

theorem removeReply_ret (s : Shared) {r : ServerSubmit} {direction : Direction}
    {length : UInt32} (hwf : r.WellFormed direction length) (rest : Bytes) :
    removeReply s r.ret.submitHeader direction length
        (r.ret.data ++ (r.ret.isoPackets.flatMap IsoPacketDescriptor.encode ++ rest)) =
      .ok (s.finishSubmit r.ret, rest) := by
  unfold removeReply
  rw [readSubmitPayload_encode hwf rest]
  rfl

theorem lookupReply_retUnlink (s : Shared) (r : ServerUnlink) (rest : Bytes) :
    lookupReply s (r.encode ++ rest) = .ok (Looked.done (s.finishUnlink r.ret), rest) := by
  unfold lookupReply
  rw [readReplyHeader_unlink r rest]
  rfl

theorem readOne_ret {s : Shared} {r : ServerSubmit}
    (h : (Item.ret r).WellFormed s) (rest : Bytes) :
    readOne s (r.encode ++ rest) = .ok (s.finishSubmit r.ret, rest) := by
  rcases h with ⟨direction, length, hrequest, hwf⟩
  unfold readOne
  rw [lookupReply_ret hrequest hwf rest]
  exact removeReply_ret s hwf rest

theorem readOne_retUnlink (s : Shared) (r : ServerUnlink) (rest : Bytes) :
    readOne s (r.encode ++ rest) = .ok (s.finishUnlink r.ret, rest) := by
  unfold readOne
  rw [lookupReply_retUnlink s r rest]
  rfl

theorem Item.next_tablesOk {s : Shared} (hok : s.state.TablesOk) (item : Item) :
    (Item.next s item).state.TablesOk := by
  cases item with
  | ret r => exact hok.forget r.ret.seqnum
  | retUnlink r => exact hok.finishUnlink r.ret
  | submit req =>
      simp only [Item.next]
      cases hsub : s.submit req with
      | none => exact hok
      | some pair => exact hok.section (Section.submit hsub)
  | unlink target =>
      simp only [Item.next]
      cases hun : s.unlink target with
      | none => exact hok
      | some shared =>
          have hsection : Section none s shared := Section.unlink hun
          exact hok.section hsection

/-!
# Whole scripts
-/

def scriptBytes (items : List Item) : Bytes :=
  items.flatMap Item.bytes

theorem play_script {s : Shared} {items : List Item}
    (h : Guarded Item.next Item.WellFormed s items) (rest : Bytes) :
    play s items (scriptBytes items ++ rest) = .ok (items.foldl Item.next s, rest) := by
  induction items generalizing s with
  | nil => rfl
  | cons item items ih =>
      rcases h with ⟨hitem, hitems⟩
      have hrest := ih hitems
      have hbytes : scriptBytes (item :: items) ++ rest =
          item.bytes ++ (scriptBytes items ++ rest) := by
        simp [scriptBytes]
      rw [hbytes]
      cases item with
      | ret r =>
          unfold play
          rw [Item.bytes, readOne_ret hitem]
          exact hrest
      | retUnlink r =>
          unfold play
          rw [Item.bytes, readOne_retUnlink]
          exact hrest
      | submit req => exact hrest
      | unlink target => exact hrest

/-!
# What a reply does to the tables
-/

/--
The transfer that a RET_SUBMIT belongs to is answered with the reply as sent.
If it is not pending any more, nothing is answered and nothing but its own
remembered entries goes away.
-/
structure Answered (s s' : Shared) (r : ServerSubmit) : Prop where
  pending : forall p, s.state.submits.lookup r.ret.seqnum = some p ->
    s'.sent = (p.reply, .ok r.ret) :: s.sent ∧
      s'.state.submits = s.state.submits.erase r.ret.seqnum
  late : r.ret.seqnum ∉ s.state.submits ->
    s'.sent = s.sent ∧
      s'.state =
        { s.state with unlinked := s.state.unlinked.filter fun u => u.1 ≠ r.ret.seqnum }

/-- A RET_UNLINK answers the transfer its unlink targets, or nothing. -/
structure Confirmed (s s' : Shared) (r : ServerUnlink) : Prop where
  known : forall target, s.state.unlinks.lookup r.ret.seqnum = some target ->
    exists p, s.state.submits.lookup target = some p ∧
      s'.sent = (p.reply, .error (.unlinked r.ret.status)) :: s.sent ∧
      s'.state.submits = s.state.submits.erase target ∧
      s'.state.unlinks = s.state.unlinks.erase r.ret.seqnum
  unknown : r.ret.seqnum ∉ s.state.unlinks -> s'.sent = s.sent ∧ s'.state = s.state

theorem finishSubmit_answered {s : Shared} (hok : s.state.TablesOk) (r : ServerSubmit) :
    Answered s (s.finishSubmit r.ret) r where
  pending := by
    intro p hp
    simp [Shared.finishSubmit, State.forget, hp]
  late := by
    intro hlate
    have hnone : s.state.submits.lookup r.ret.seqnum = none :=
      AList.lookup_eq_none.mpr hlate
    have hunlinks : Table.retain (fun _ t => t ≠ r.ret.seqnum) s.state.unlinks =
        s.state.unlinks := by
      apply Table.retain_of_forall
      intro u t hu
      have hne : t ≠ r.ret.seqnum := by
        intro hsame
        exact hlate (hsame ▸ hok.target_pending u t hu)
      simpa using hne
    constructor
    · simp [Shared.finishSubmit, hnone]
    · simp only [Shared.finishSubmit, State.forget, hunlinks, Table.erase_of_notMem hlate]

theorem finishUnlink_confirmed {s : Shared} (hok : s.state.TablesOk) (r : ServerUnlink) :
    Confirmed s (s.finishUnlink r.ret) r where
  known := by
    intro target htarget
    rcases Table.mem_iff_lookup.mp (hok.target_pending _ target htarget) with ⟨p, hp⟩
    refine ⟨p, hp, ?_⟩
    simp [Shared.finishUnlink, htarget, hp]
  unknown := by
    intro hnone
    simp [Shared.finishUnlink, AList.lookup_eq_none.mpr hnone]

/-!
# The reader
-/

/--
From every reachable session, a script of well-formed replies and local calls
is read to the last byte without an error; each reply in turn is read by one
`readOne`, from the state the script has reached, and leaves exactly the bytes
of the later replies; and it answers what was sent.
-/
theorem reader_stays_in_step (device : ExportedDevice) (steps : List Step)
    (items : List Item) (rest : Bytes)
    (hitems : Guarded Item.next Item.WellFormed
      (List.foldl Session.step (Session.start device) steps).shared items) :
    let s := (List.foldl Session.step (Session.start device) steps).shared
    play s items (scriptBytes items ++ rest) = .ok (items.foldl Item.next s, rest) ∧
      forall front item back, items = front ++ item :: back ->
        let t := front.foldl Item.next s
        let t' := Item.next t item
        play s front (scriptBytes items ++ rest) =
          .ok (t, item.bytes ++ (scriptBytes back ++ rest)) ∧
        (forall r, item = Item.ret r ->
          readOne t (r.encode ++ (scriptBytes back ++ rest)) =
            .ok (t', scriptBytes back ++ rest) ∧ Answered t t' r) ∧
        (forall r, item = Item.retUnlink r ->
          readOne t (r.encode ++ (scriptBytes back ++ rest)) =
            .ok (t', scriptBytes back ++ rest) ∧ Confirmed t t' r) := by
  intro s
  constructor
  · exact play_script hitems rest
  · intro front item back hsplit t t'
    have htables : t.state.TablesOk :=
      invariant_of_step (I := fun s : Shared => s.state.TablesOk)
        (fun _ item hok => Item.next_tablesOk hok item) front
        (Session.tablesOk ⟨device, steps, rfl⟩)
    rw [hsplit] at hitems
    rcases guarded_append hitems with ⟨hfront, hitem, _⟩
    refine ⟨?_, ?_, ?_⟩
    · have hbytes : scriptBytes items ++ rest =
          scriptBytes front ++ (item.bytes ++ (scriptBytes back ++ rest)) := by
        rw [hsplit]
        simp [scriptBytes]
      rw [hbytes]
      exact play_script hfront _
    · intro r hr
      subst hr
      exact ⟨readOne_ret hitem _, finishSubmit_answered htables r⟩
    · intro r hr
      subst hr
      exact ⟨readOne_retUnlink t r _, finishUnlink_confirmed htables r⟩

theorem reader_stays_in_step_late :
    let device : ExportedDevice :=
      { path := "", busid := "1-1", busnum := 1, devnum := 2, speed := Speed.high,
        idVendor := 0, idProduct := 0, bcdDevice := 0, deviceClass := 0,
        deviceSubclass := 0, deviceProtocol := 0, configurationValue := 0,
        numConfigurations := 1, numInterfaces := 0, interfaces := [] }
    let steps := [Step.submit (SubmitRequest.new 0x81 Direction.in 4),
      Step.submit { (SubmitRequest.new 2 Direction.out 1) with data := [5] }]
    let read : RetSubmit :=
      { seqnum := 1, status := 0, actualLength := 2, startFrame := 0, errorCount := 0,
        data := [8, 9], isoPackets := [] }
    let wrote : RetSubmit :=
      { seqnum := 2, status := -104, actualLength := 1, startFrame := 0, errorCount := 0,
        data := [], isoPackets := [] }
    let items :=
      [Item.unlink 2,
        Item.ret
          { ret := read, unused := Vector.replicate 12 0,
            padding := Vector.replicate 8 0, noCount := true },
        Item.retUnlink
          { ret := { seqnum := 3, status := -104 }, unused := Vector.replicate 12 0,
            padding := Vector.replicate 24 0 },
        Item.ret
          { ret := wrote, unused := Vector.replicate 12 0,
            padding := Vector.replicate 8 0, noCount := false }]
    let s := (List.foldl Session.step (Session.start device) steps).shared
    play s items (scriptBytes items) = .ok (items.foldl Item.next s, []) ∧
      (items.foldl Item.next s).sent =
        [(1, .error (.unlinked (-104))), (0, .ok read)] := by
  intro device steps read wrote items s
  constructor
  · have hplay := (reader_stays_in_step device steps items [] ?_).left
    · rw [List.append_nil] at hplay
      exact hplay
    · refine ⟨trivial, ⟨Direction.in, 4, by decide +kernel, ?_⟩, trivial,
        ⟨Direction.out, 1, by decide +kernel, ?_⟩, trivial⟩
      · exact ⟨by decide, fun _ => rfl, by simp, by decide⟩
      · exact ⟨by decide, by simp, fun _ => rfl, by decide⟩
  · decide +kernel

end Client
end UsbIp
