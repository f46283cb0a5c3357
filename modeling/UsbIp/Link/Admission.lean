import UsbIp.Link.Handshake
import UsbIp.Server.Imports

/-!
# Programs get what they ask for

What holds of a program and its connection at every moment of every allowed run,
with any number of programs and of others that keep to no rules: the list is the
list of the exports, the device is the first that matches, the session is for
that device, and a program that fails has been told why.
-/

namespace UsbIp
namespace Link

open Foundation
open Protocol
open Client (Text Selector Session ExportedDevice Short encodeDevlistRequest
  encodeImportRequest encodeBusid readDevlistReply readImportReply)
open Server (Connection Export Line LineStep Listener ListenerStep Stage findExport grantReply
  refusal)

/-!
# What holds of a connection
-/

/-- The reasons for which a program can fail. -/
inductive Excused (text : Text) (exports : List Export) : Failure -> Prop where
  | noMatch {selector : Selector} : selector.find (devicesOf exports) = none ->
      Excused text exports (Failure.noMatch selector)
  | lost (kind : IoErrorKind) (reason : String) :
      Excused text exports (Failure.protocol (.io kind reason))
  | refused : Excused text exports (Failure.protocol (.status 1))
  | busid {selector : Selector} {device : ExportedDevice} {e : ProtocolError} :
      selector.find (devicesOf exports) = some device ->
      encodeBusid text device.busid = .error e -> Excused text exports (Failure.protocol e)

def Wire.Sound (text : Text) (exports : List Export) (w : Wire) : Prop :=
  match w.caller with
  | Caller.stranger => True
  | Caller.listing _ input =>
      Listing exports w.line.task (w.line.input ++ w.toServer) (input ++ w.toClient)
  | Caller.listed devices => devices = devicesOf exports
  | Caller.chosen selector device => selector.find (devicesOf exports) = some device
  | Caller.left => True
  | Caller.importing selector device input =>
      selector.find (devicesOf exports) = some device ∧
        (exists field, encodeBusid text device.busid = .ok field) ∧
        Importing exports device.busid w.line.task (w.line.input ++ w.toServer)
          (input ++ w.toClient)
  | Caller.attached selector session =>
      exists device e, selector.find (devicesOf exports) = some device ∧
        findExport exports device.busid = some e ∧
        Serving e session w.toServer w.toClient w.line.task
  | Caller.failed reason => Excused text exports reason

theorem Excused.of_short {text : Text} {exports : List Export} {e : ProtocolError}
    (h : Short e) : Excused text exports (Failure.protocol e) := by
  cases e with
  | io kind reason => exact Excused.lost kind reason
  | _ => cases h

/-!
# Reading
-/

theorem Listing.reads {text : Text} {exports : List Export} (hex : Exportable text exports)
    {task : Stage} {up input back : Bytes} (h : Listing exports task up (input ++ back)) :
    (exists rest, readDevlistReply text input = .ok (devicesOf exports, rest)) ∨
      exists e, Short e ∧ readDevlistReply text input = .error e := by
  have hfront : input ++ back <+: listReply exports := by
    generalize input ++ back = down at h
    cases h with
    | ended hdown => exact hdown
    | _ => exact List.nil_prefix
  rcases hfront with ⟨behind, hbehind⟩
  rw [List.append_assoc, ← List.append_nil (listReply exports)] at hbehind
  rcases (Client.readDevlistReply_settled text).of_stream (Client.readDevlistReply_extends text)
    hex.list hbehind with ⟨more, _, hread⟩ | hshort
  · exact Or.inl ⟨more, hread⟩
  · exact Or.inr hshort

theorem reads_refusal (text : Text) {input back : Bytes} (h : input ++ back <+: refusal) :
    exists e, (Short e ∨ e = .status 1) ∧ readImportReply text input = .error e := by
  rcases h with ⟨behind, hbehind⟩
  rw [List.append_assoc] at hbehind
  have hrefusal := readImportReply_refusal text
  rw [← hbehind] at hrefusal
  cases hread : readImportReply text input with
  | ok found =>
      rcases found with ⟨device, rest⟩
      rw [Client.readImportReply_extends text input device rest _ hread] at hrefusal
      cases hrefusal
  | error e =>
      refine ⟨e, ?_, rfl⟩
      by_cases hshort : Short e
      · exact Or.inl hshort
      · rw [Client.readImportReply_settled text input e _ hread hshort] at hrefusal
        cases hrefusal
        exact Or.inr rfl

theorem Importing.reads {text : Text} {exports : List Export} (hex : Exportable text exports)
    {busid : String} {task : Stage} {up input back : Bytes}
    (h : Importing exports busid task up (input ++ back)) :
    (exists e more, findExport exports busid = some e ∧ up = [] ∧
      readImportReply text input = .ok (seenDevice e, more) ∧
      Serving e { Session.start (seenDevice e) with input := more } [] back task) ∨
    exists e, (Short e ∨ e = .status 1) ∧ readImportReply text input = .error e := by
  -- A session that starts with bytes has received them.
  have hreceived : forall {e : Export} {c : Connection} {more : Bytes},
      Began e ⟨Session.start (seenDevice e), c, [], more ++ back⟩ ->
      Began e ⟨{ Session.start (seenDevice e) with input := more }, c, [], back⟩ := by
    intro e c more hbegan
    have hnext := hbegan.step (Step.toClient more.length) trivial
    have hclosed : (Session.start (seenDevice e)).ended = false := rfl
    simp only [System.step, hclosed, Bool.false_eq_true, if_false, List.take_left,
      List.drop_left, Session.step] at hnext
    exact hnext
  generalize hdown : input ++ back = down at h
  have hextends := Client.readImportReply_extends text
  have hsettled := Client.readImportReply_settled text
  cases h with
  | @cut e up down rest hfind hcut hrest =>
      rw [← hdown, List.append_assoc, ← List.append_nil (grantReply e)] at hcut
      rcases hsettled.of_stream hextends (hex.grant hfind) hcut with ⟨more, hmore, _⟩ | hshort
      · rw [hmore, List.append_assoc] at hcut
        have hnil := List.append_cancel_left hcut
        exact absurd (List.append_eq_nil_iff.mp (List.append_eq_nil_iff.mp hnil).right).right hrest
      · rcases hshort with ⟨e, hshort, hread⟩
        exact Or.inr ⟨e, Or.inl hshort, hread⟩
  | @begun e task extra hfind hserving =>
      rcases hsettled.of_stream hextends (hex.grant hfind) hdown with
        ⟨more, hmore, hread⟩ | hshort
      · rw [hmore, List.append_assoc] at hdown
        rw [← List.append_cancel_left hdown] at hserving
        exact Or.inl ⟨e, more, hfind, rfl, hread, hserving.moves fun c hbegan => hreceived hbegan⟩
      · rcases hshort with ⟨e, hshort, hread⟩
        exact Or.inr ⟨e, Or.inl hshort, hread⟩
  | ended hfront =>
      rw [← hdown] at hfront
      exact Or.inr (reads_refusal text hfront)
  | _ => exact Or.inr (reads_refusal text (hdown ▸ List.nil_prefix))

theorem Caller.chooses_sound {text : Text} {exports : List Export} (w : Wire)
    (selector : Option Selector) :
    Wire.Sound text exports
      { w with caller := Caller.chooses selector (devicesOf exports) } := by
  cases selector with
  | none => exact rfl
  | some selector =>
      cases hfind : selector.find (devicesOf exports) with
      | none =>
          simp only [Caller.chooses, hfind]
          exact Excused.noMatch hfind
      | some device =>
          simp only [Caller.chooses, hfind]
          exact hfind

theorem Wire.Sound.meets {text : Text} {exports : List Export} {w : Wire}
    (h : w.Sound text exports) (ended : Bool) {e : ProtocolError}
    (he : Short e ∨ e = .status 1) :
    Wire.Sound text exports { w with caller := w.caller.meets ended e } := by
  unfold Caller.meets
  split
  · exact h
  · rcases he with hshort | rfl
    · exact Excused.of_short hshort
    · exact Excused.refused

theorem Wire.Sound.reads {text : Text} {exports : List Export} (hex : Exportable text exports)
    {w : Wire} (h : w.Sound text exports) (ended : Bool) :
    Wire.Sound text exports { w with caller := w.caller.reads text ended } := by
  rcases w with ⟨caller, toServer, toClient, line⟩
  cases caller with
  | listing selector input =>
      rcases Listing.reads hex h with ⟨rest, hread⟩ | ⟨e, hshort, hread⟩
      · simp only [Caller.reads, hread]
        exact Caller.chooses_sound ⟨Caller.left, toServer, toClient, line⟩ selector
      · simp only [Caller.reads, hread]
        exact h.meets ended (Or.inl hshort)
  | importing selector device input =>
      rcases h with ⟨hfind, hfield, himporting⟩
      rcases Importing.reads hex himporting with
        ⟨e, more, hexport, hup, hread, hserving⟩ | ⟨e, he, hread⟩
      · have hsame : ¬ (seenDevice e).busid ≠ device.busid :=
          not_not_intro (Server.findExport_busid hexport)
        simp only [Caller.reads, hread, Caller.imports, if_neg hsame]
        refine ⟨device, e, hfind, hexport, ?_⟩
        have hnil : toServer = [] := (List.append_eq_nil_iff.mp hup).right
        dsimp only
        rw [hnil]
        exact hserving
      · simp only [Caller.reads, hread]
        exact Wire.Sound.meets (w := ⟨Caller.importing selector device input, toServer,
          toClient, line⟩) ⟨hfind, hfield, himporting⟩ ended he
  | _ => exact h

/-!
# The other steps
-/

theorem Line.receive_nil (l : Line) : l.receive [] = l := by
  have hnone : forall c : Connection, c.step (Server.Step.receive []) = c := by
    intro c
    simp only [Connection.step, List.append_nil]
  rcases l with ⟨task, input, written, log, violations⟩
  cases task with
  | urbs e c => simp only [Line.receive, hnone]
  | returned e c => simp only [Line.receive, hnone]
  | _ => simp only [Line.receive, List.append_nil]

theorem Line.receive_up {l : Line} {toServer : Bytes} (n : Nat)
    (h : (forall e c, l.task ≠ Stage.urbs e c ∧ l.task ≠ Stage.returned e c) ∨
      toServer = []) :
    (l.receive (toServer.take n)).task = l.task ∧
      (l.receive (toServer.take n)).input ++ toServer.drop n = l.input ++ toServer := by
  rcases h with hplain | rfl
  · have hreceive : l.receive (toServer.take n) =
        { l with input := l.input ++ toServer.take n } := by
      unfold Line.receive
      split
      · rename_i e c htask
        exact absurd htask (hplain e c).left
      · rename_i e c htask
        exact absurd htask (hplain e c).right
      · rfl
    rw [hreceive]
    refine ⟨rfl, ?_⟩
    dsimp only
    rw [List.append_assoc, List.take_append_drop]
  · rw [List.take_nil, List.drop_nil, Line.receive_nil]
    exact ⟨rfl, rfl⟩

theorem Listing.plain {exports : List Export} {task : Stage} {up down : Bytes}
    (h : Listing exports task up down) (e : Export) (c : Connection) :
    task ≠ Stage.urbs e c ∧ task ≠ Stage.returned e c := by
  cases h with
  | _ =>
      constructor
      · intro hsame
        cases hsame
      · intro hsame
        cases hsame

theorem Importing.plain {exports : List Export} {busid : String} {task : Stage} {up down : Bytes}
    (h : Importing exports busid task up down) :
    (forall e c, task ≠ Stage.urbs e c ∧ task ≠ Stage.returned e c) ∨ up = [] := by
  cases h with
  | begun _ _ => exact Or.inr rfl
  | _ =>
      refine Or.inl ?_
      intro e c
      constructor
      · intro hsame
        cases hsame
      · intro hsame
        cases hsame

theorem Wire.Sound.toServer {text : Text} {exports : List Export} {w : Wire}
    (h : w.Sound text exports) (n : Nat) :
    Wire.Sound text exports
      { w with line := w.line.receive (w.toServer.take n), toServer := w.toServer.drop n } := by
  rcases w with ⟨caller, toServer, toClient, line⟩
  cases caller with
  | listing selector input =>
      have hlisting : Listing exports line.task (line.input ++ toServer) (input ++ toClient) := h
      rcases Line.receive_up (l := line) n (Or.inl hlisting.plain) with ⟨htask, hup⟩
      show Listing exports (line.receive (toServer.take n)).task
        ((line.receive (toServer.take n)).input ++ toServer.drop n) (input ++ toClient)
      rw [htask, hup]
      exact hlisting
  | importing selector device input =>
      rcases h with ⟨hfind, hfield, himporting⟩
      have hplain := himporting.plain
      have hwhere :
          (forall e c, line.task ≠ Stage.urbs e c ∧ line.task ≠ Stage.returned e c) ∨
            toServer = [] := by
        rcases hplain with hplain | hnil
        · exact Or.inl hplain
        · exact Or.inr (List.append_eq_nil_iff.mp hnil).right
      rcases Line.receive_up (l := line) n hwhere with ⟨htask, hup⟩
      refine ⟨hfind, hfield, ?_⟩
      show Importing exports device.busid (line.receive (toServer.take n)).task
        ((line.receive (toServer.take n)).input ++ toServer.drop n) (input ++ toClient)
      rw [htask, hup]
      exact himporting
  | attached selector session =>
      rcases h with ⟨device, e, hfind, hexport, hserving⟩
      refine ⟨device, e, hfind, hexport, ?_⟩
      rcases line with ⟨task, input, written, log, violations⟩
      have hserving' : Serving e session toServer toClient task := hserving
      cases hserving' with
      | urbs hbegan => exact Serving.urbs (hbegan.step (Step.toServer n) trivial)
      | returned hclosed hbegan =>
          exact Serving.returned hclosed (hbegan.step (Step.toServer n) trivial)
  | _ => exact h

theorem Wire.Sound.toClient {text : Text} {exports : List Export} {w : Wire}
    (h : w.Sound text exports) (n : Nat) (hdeaf : w.caller.deaf = false) :
    Wire.Sound text exports
      { w with
        caller := w.caller.receive (w.toClient.take n), toClient := w.toClient.drop n } := by
  rcases w with ⟨caller, toServer, toClient, line⟩
  have hcut : forall input : Bytes,
      input ++ toClient.take n ++ toClient.drop n = input ++ toClient := by
    intro input
    rw [List.append_assoc, List.take_append_drop]
  cases caller with
  | listing selector input =>
      show Listing exports line.task _ (input ++ toClient.take n ++ toClient.drop n)
      rw [hcut]
      exact h
  | importing selector device input =>
      rcases h with ⟨hfind, hfield, himporting⟩
      refine ⟨hfind, hfield, ?_⟩
      show Importing exports device.busid line.task _
        (input ++ toClient.take n ++ toClient.drop n)
      rw [hcut]
      exact himporting
  | attached selector session =>
      rcases h with ⟨device, e, hfind, hexport, hserving⟩
      refine ⟨device, e, hfind, hexport, ?_⟩
      have hmove : forall c : Connection, Began e ⟨session, c, toServer, toClient⟩ ->
          Began e ⟨session.step (Client.Step.receive (toClient.take n)), c, toServer,
            toClient.drop n⟩ := by
        intro c hbegan
        have hopen : session.ended = false := hdeaf
        have hnext := hbegan.step (Step.toClient n) trivial
        simp only [System.step, hopen, Bool.false_eq_true, if_false] at hnext
        exact hnext
      exact Serving.moves hserving hmove
  | _ => exact h

theorem Wire.Sound.hangUp {text : Text} {exports : List Export} (hex : Exportable text exports)
    {w : Wire} (h : w.Sound text exports) : (w.hangUp text).Sound text exports := by
  unfold Wire.hangUp
  split
  · rename_i hgone
    rcases hgone with ⟨hclosed, hclient⟩
    split
    · rename_i selector session hcaller
      unfold Wire.Sound at h
      rw [hcaller] at h
      rcases h with ⟨device, e, hfind, hexport, hserving⟩
      refine ⟨device, e, hfind, hexport, ?_⟩
      have hmove : forall c : Connection, c.writing = false ->
          Began e ⟨session, c, w.toServer, w.toClient⟩ ->
          Began e ⟨session.step Client.Step.hangUp, c, w.toServer, w.toClient⟩ := by
        intro c hwriting hbegan
        have hnext := hbegan.step Step.hangUp trivial
        simp only [System.step, hwriting, hclient, and_self, if_true] at hnext
        rw [hclient]
        exact hnext
      rcases w with ⟨caller, toServer, toClient, line⟩
      rcases line with ⟨task, input, written, log, violations⟩
      have hserving' : Serving e session toServer toClient task := hserving
      cases hserving' with
      | urbs hbegan => exact Serving.urbs (hmove _ (of_decide_eq_true hclosed) hbegan)
      | returned hwriting hbegan =>
          exact Serving.returned hwriting (hmove _ hwriting hbegan)
    · exact h.reads hex true
  · exact h

theorem Wire.Sound.fails {text : Text} {exports : List Export} {w : Wire}
    (h : w.Sound text exports) (reason : String) :
    Wire.Sound text exports { w with caller := w.caller.fails reason } := by
  rcases w with ⟨caller, toServer, toClient, line⟩
  cases caller with
  | listing selector input => exact Excused.lost IoErrorKind.other reason
  | chosen selector device => exact Excused.lost IoErrorKind.other reason
  | importing selector device input => exact Excused.lost IoErrorKind.other reason
  | _ => exact h

theorem Wire.Sound.client {text : Text} {exports : List Export} {w : Wire}
    (h : w.Sound text exports) {st : Client.Step} (hallowed : w.Allowed (WireStep.client st)) :
    (w.clientStep st).Sound text exports := by
  unfold Wire.clientStep
  split
  · rename_i selector session hcaller
    split
    · rename_i hown
      unfold Wire.Sound at h
      rw [hcaller] at h
      rcases h with ⟨device, e, hfind, hexport, hserving⟩
      refine ⟨device, e, hfind, hexport, ?_⟩
      have hmove : forall c : Connection,
          w.system = some ⟨session, c, w.toServer, w.toClient⟩ ->
          Began e ⟨session, c, w.toServer, w.toClient⟩ ->
          Began e ⟨session.step st, c,
            w.toServer ++ (session.step st).written.drop session.written.length,
            w.toClient⟩ := by
        intro c hsystem hbegan
        have hnext := hbegan.step (Step.client st) (hallowed _ hsystem)
        simp only [System.step, if_pos hown] at hnext
        exact hnext
      rcases w with ⟨caller, toServer, toClient, line⟩
      rcases line with ⟨task, input, written, log, violations⟩
      have hattached : caller = Caller.attached selector session := hcaller
      rw [hattached] at hmove
      have hserving' : Serving e session toServer toClient task := hserving
      cases hserving' with
      | urbs hbegan => exact Serving.urbs (hmove _ rfl hbegan)
      | returned hwriting hbegan => exact Serving.returned hwriting (hmove _ rfl hbegan)
    · exact h
  · exact h

theorem Wire.Sound.server {text : Text} {exports : List Export} (hex : Exportable text exports)
    {w : Wire} (h : w.Sound text exports) (imported : List String) {st : LineStep}
    (hst : isTasks st = true) (hallowed : w.Allowed (WireStep.server st)) :
    (w.serverStep text exports imported st).2.Sound text exports := by
  have hfits : forall e c address outcome, w.line.task = Stage.urbs e c ->
      st = LineStep.serve (Server.Step.finish address outcome) ->
      outcomeFits c.urbs address outcome := by
    rintro e c address outcome htask rfl
    exact hallowed e c htask
  rcases w with ⟨caller, toServer, toClient, line⟩
  cases caller with
  | listing selector input =>
      have hlisting := Listing.task h text imported hst
      rw [List.append_assoc] at hlisting
      exact hlisting
  | importing selector device input =>
      rcases h with ⟨hfind, ⟨field, hfield⟩, himporting⟩
      have hnext := Importing.task hex.lossless hfield himporting imported hst hfits
      rw [List.append_assoc] at hnext
      exact ⟨hfind, ⟨field, hfield⟩, hnext⟩
  | attached selector session =>
      rcases h with ⟨device, e, hfind, hexport, hserving⟩
      exact ⟨device, e, hfind, hexport, (hserving.task imported hst hfits).left⟩
  | _ => exact h

/-- Every step of a connection keeps what is known of it. -/
theorem Wire.Sound.step {text : Text} {exports : List Export} (hex : Exportable text exports)
    {w : Wire} (h : w.Sound text exports) (imported : List String) {st : WireStep}
    (hallowed : w.Allowed st) : (w.step text exports imported st).2.Sound text exports := by
  cases st with
  | writes bytes =>
      simp only [Wire.step]
      split
      · rename_i hcaller
        unfold Wire.Sound
        dsimp only
        rw [hcaller]
        exact trivial
      · exact h
  | toServer n => exact h.toServer n
  | toClient n =>
      simp only [Wire.step]
      split
      · exact h
      · rename_i hdeaf
        exact h.toClient n (Bool.not_eq_true _ ▸ hdeaf)
  | hangUp => exact h.hangUp hex
  | reads => exact h.reads hex false
  | fails reason => exact h.fails reason
  | client st => exact h.client hallowed
  | server st =>
      simp only [Wire.step]
      split
      · rename_i hst
        exact h.server hex imported hst hallowed
      · exact h

/-!
# Runs
-/

theorem Network.step_exports (text : Text) (n : Network) (st : NetworkStep) :
    (n.step text st).exports = n.exports := by
  cases st with
  | dial selector => rfl
  | stranger => rfl
  | redial i =>
      simp only [Network.step]
      split
      · split <;> rfl
      · rfl
  | wire i st =>
      simp only [Network.step]
      split <;> rfl

structure Network.Sound (text : Text) (exports : List Export) (n : Network) : Prop where
  served : n.exports = exports
  wires : forall w, w ∈ n.wires -> w.Sound text exports

theorem Wire.import_sound {text : Text} {exports : List Export} {selector : Selector}
    {device : ExportedDevice} (hfind : selector.find (devicesOf exports) = some device) :
    (Wire.import text selector device).Sound text exports := by
  unfold Wire.import
  cases hfield : encodeBusid text device.busid with
  | error e =>
      have hrequest : encodeImportRequest text device.busid = .error e := by
        unfold encodeImportRequest
        rw [hfield]
        rfl
      rw [hrequest]
      exact Excused.busid hfind hfield
  | ok field =>
      rw [Client.encodeImportRequest_ok hfield]
      rcases Client.encodeBusid_ok hfield with ⟨hpadded, _, _⟩
      refine ⟨hfind, ⟨field, hfield⟩, ?_⟩
      rw [hpadded]
      exact Importing.header

theorem Network.Sound.step {text : Text} {exports : List Export} (hex : Exportable text exports)
    {n : Network} (h : n.Sound text exports) {st : NetworkStep} (hallowed : n.Allowed st) :
    (n.step text st).Sound text exports where
  served := (n.step_exports text st).trans h.served
  wires := by
    intro w hw
    cases Network.step_yields hw with
    | kept hmem => exact h.wires w hmem
    | dialled selector => exact Listing.header
    | stranger => exact trivial
    | left hmem hcaller => exact trivial
    | redialled hmem hcaller =>
        have hsound := h.wires _ hmem
        unfold Wire.Sound at hsound
        rw [hcaller] at hsound
        exact Wire.import_sound hsound
    | @moved i v st hv =>
        rw [h.served]
        exact (h.wires v (List.mem_of_getElem? hv)).step hex n.imported (hallowed v hv)

theorem Network.start_sound (text : Text) (exports : List Export) :
    (Network.start exports).Sound text exports where
  served := rfl
  wires := by
    intro w hw
    cases hw

theorem Network.Run.sound {text : Text} {exports : List Export} (hex : Exportable text exports)
    {steps : List NetworkStep} (h : Network.Run text exports steps) :
    (Network.after text exports steps).Sound text exports :=
  invariant_of_guarded (fun _ _ hl hinv => hinv.step hex hl) h (Network.start_sound text exports)

/-!
# The server of a network
-/

def Network.listener (n : Network) : Listener where
  exports := n.exports
  imported := n.imported
  lines := n.wires.map Wire.line

theorem Wire.step_line (text : Text) (exports : List Export) (imported : List String) (w : Wire)
    (st : WireStep) :
    ((w.step text exports imported st).1 = imported ∧
      (w.step text exports imported st).2.line = w.line) ∨
    exists m, w.line.step text exports imported m =
      ((w.step text exports imported st).1, (w.step text exports imported st).2.line) := by
  cases st with
  | writes bytes =>
      simp only [Wire.step]
      split <;> exact Or.inl ⟨rfl, rfl⟩
  | toServer n => exact Or.inr ⟨LineStep.receive (w.toServer.take n), rfl⟩
  | toClient n =>
      simp only [Wire.step]
      split <;> exact Or.inl ⟨rfl, rfl⟩
  | hangUp =>
      refine Or.inl ⟨rfl, ?_⟩
      simp only [Wire.step, Wire.hangUp]
      split
      · split <;> rfl
      · rfl
  | reads => exact Or.inl ⟨rfl, rfl⟩
  | fails reason => exact Or.inl ⟨rfl, rfl⟩
  | client st =>
      refine Or.inl ⟨rfl, ?_⟩
      simp only [Wire.step, Wire.clientStep]
      split
      · split <;> rfl
      · rfl
  | server st =>
      simp only [Wire.step]
      split
      · exact Or.inr ⟨st, rfl⟩
      · exact Or.inl ⟨rfl, rfl⟩

theorem Network.step_listener (text : Text) (n : Network) (st : NetworkStep) :
    (n.step text st).listener = n.listener ∨
      exists m, (n.step text st).listener = n.listener.step text m := by
  cases st with
  | dial selector =>
      refine Or.inr ⟨ListenerStep.accept, ?_⟩
      simp only [Network.step, Network.listener, Listener.step, List.map_append, List.map_cons,
        List.map_nil]
      rfl
  | stranger =>
      refine Or.inr ⟨ListenerStep.accept, ?_⟩
      simp only [Network.step, Network.listener, Listener.step, List.map_append, List.map_cons,
        List.map_nil]
      rfl
  | redial i =>
      simp only [Network.step]
      split
      · rename_i w hw
        split
        · rename_i selector device hcaller
          refine Or.inr ⟨ListenerStep.accept, ?_⟩
          have hline : (n.wires.map Wire.line)[i]? = some w.line := by
            rw [List.getElem?_map, hw, Option.map_some]
          have hnew : (Wire.import text selector device).line = Line.start := by
            unfold Wire.import
            split <;> rfl
          simp only [Network.listener, Listener.step, List.map_append, List.map_set,
            List.map_cons, List.map_nil, set_same_index hline, hnew]
        · exact Or.inl rfl
      · exact Or.inl rfl
  | wire i st =>
      simp only [Network.step]
      split
      · rename_i w hw
        have hline : (n.wires.map Wire.line)[i]? = some w.line := by
          rw [List.getElem?_map, hw, Option.map_some]
        rcases w.step_line text n.exports n.imported st with ⟨hsame, hkept⟩ | ⟨m, hm⟩
        · refine Or.inl ?_
          simp only [Network.listener, List.map_set, hsame, hkept, set_same_index hline]
        · refine Or.inr ⟨ListenerStep.line i m, ?_⟩
          simp only [Network.listener, Listener.step, hline, hm, List.map_set]
      · exact Or.inl rfl

theorem Network.after_good (text : Text) (exports : List Export) (steps : List NetworkStep) :
    (Network.after text exports steps).listener.Good exports := by
  refine invariant_of_step (I := fun n : Network => n.listener.Good exports) ?_ steps
    (Listener.start_good exports)
  intro n st h
  rcases n.step_listener text st with hsame | ⟨m, hm⟩
  · rw [hsame]
    exact h
  · rw [hm]
    exact h.step text m

end Link
end UsbIp
