import UsbIp.Link.Admission

/-!
# What a program can rely on

The results about every allowed run (`Network.Run`) of programs and a server whose
exports fit into the messages about them (`Exportable`): an attached program has
the device it asked for, has it alone, and its session and the server's task are
a run of a system of their own; a program that fails has a reason that is true;
and a device that nobody has can be attached.
-/

namespace UsbIp
namespace Link

open Foundation
open Protocol
open Client (Text Selector Session ExportedDevice utf8 padded encodeDevlistRequest
  encodeImportRequest encodeBusid readDevlistReply readImportReply opHeader usbipVersion
  opReqImport opHeaderSize busidSize deviceSize)
open Server (Connection Export Line LineStep Listener ListenerStep Stage findExport grantReply)

/-!
# The device
-/

theorem device_of_find {exports : List Export} {selector : Selector} {device : ExportedDevice}
    (h : selector.find (devicesOf exports) = some device) :
    exists e, e ∈ exports ∧ e.device = device :=
  List.mem_map.mp (List.mem_of_find?_eq_some h)

theorem device_of_export {exports : List Export} {selector : Selector} {device : ExportedDevice}
    {e : Export} (hfind : selector.find (devicesOf exports) = some device)
    (hexport : findExport exports device.busid = some e)
    (hnodup : (exports.map fun e => e.busid).Nodup) : e.device = device := by
  rcases device_of_find hfind with ⟨e', he', rfl⟩
  have hbusid : e.busid = e'.busid := Server.findExport_busid hexport
  have hsame : e = e' :=
    List.inj_on_of_nodup_map hnodup (findExport_mem hexport) he' hbusid
  rw [hsame]

theorem Network.holds_alone {text : Text} {exports : List Export} {steps : List NetworkStep}
    {i j : Nat} {w v : Wire} (hw : (Network.after text exports steps).wires[i]? = some w)
    (hv : (Network.after text exports steps).wires[j]? = some v) {busid : String}
    (hholds : w.line.holds = some busid) (hholds' : v.line.holds = some busid) : i = j := by
  have hexclusive := (Network.after_good text exports steps).exclusive
  have hat : forall {i : Nat} {w : Wire},
      (Network.after text exports steps).wires[i]? = some w ->
      (Network.after text exports steps).listener.lines[i]? = some w.line := by
    intro i w hw
    simp only [Network.listener, List.getElem?_map, hw, Option.map_some]
  exact hexclusive.unique (Listener.holds_at (hat hw) hholds) (Listener.holds_at (hat hv) hholds')

/-!
# A run that attaches
-/

def Wire.steps (text : Text) (exports : List Export) (before : List String × Wire)
    (sts : List WireStep) : List String × Wire :=
  sts.foldl (fun p st => p.2.step text exports p.1 st) before

theorem Network.steps_wire (text : Text) {n : Network} {i : Nat} {w : Wire}
    (hw : n.wires[i]? = some w) (sts : List WireStep) :
    (sts.map (NetworkStep.wire i)).foldl (Network.step text) n =
      { n with
        imported := (Wire.steps text n.exports (n.imported, w) sts).1
        wires := n.wires.set i (Wire.steps text n.exports (n.imported, w) sts).2 } := by
  induction sts generalizing n w with
  | nil =>
      show n = { n with imported := n.imported, wires := n.wires.set i w }
      rw [set_same_index hw]
  | cons st sts ih =>
      have hstep : n.step text (NetworkStep.wire i st) =
          { n with
            imported := (w.step text n.exports n.imported st).1
            wires := n.wires.set i (w.step text n.exports n.imported st).2 } := by
        simp only [Network.step, hw]
      have hnext := getElem?_set_index hw (w.step text n.exports n.imported st).2
      rw [List.map_cons, List.foldl_cons, hstep, ih hnext]
      dsimp only
      rw [List.set_set]
      rfl

theorem Network.steps_last (text : Text) (exports : List Export) (ws : List Wire)
    (sts : List WireStep) (imported : List String) (w : Wire) :
    (sts.map (NetworkStep.wire ws.length)).foldl (Network.step text)
        ⟨exports, imported, ws ++ [w]⟩ =
      ⟨exports, (Wire.steps text exports (imported, w) sts).1,
        ws ++ [(Wire.steps text exports (imported, w) sts).2]⟩ := by
  have hlast : (ws ++ [w])[ws.length]? = some w := List.getElem?_concat_length
  rw [Network.steps_wire text (n := ⟨exports, imported, ws ++ [w]⟩) hlast]
  dsimp only
  rw [set_at_index]

def listSteps (exports : List Export) : List WireStep :=
  [WireStep.toServer opHeaderSize, WireStep.server LineStep.read,
    WireStep.server LineStep.write, WireStep.toClient (listReply exports).length,
    WireStep.reads]

def importSteps : List WireStep :=
  [WireStep.toServer (opHeaderSize + busidSize), WireStep.server LineStep.read,
    WireStep.server LineStep.read, WireStep.server LineStep.write,
    WireStep.toClient (opHeaderSize + deviceSize), WireStep.reads]

def attachSteps (exports : List Export) (selector : Selector) (k : Nat) : List NetworkStep :=
  NetworkStep.dial (some selector) :: ((listSteps exports).map (NetworkStep.wire k) ++
    NetworkStep.redial k :: importSteps.map (NetworkStep.wire (k + 1)))

/-- A step of a program that lists on connection `k` and imports on the next one. -/
inductive OfProgram (selector : Selector) (k : Nat) : NetworkStep -> Prop where
  | dial : OfProgram selector k (NetworkStep.dial (some selector))
  | listing (st : WireStep) : OfProgram selector k (NetworkStep.wire k st)
  | redial : OfProgram selector k (NetworkStep.redial k)
  | importing (st : WireStep) : OfProgram selector k (NetworkStep.wire (k + 1) st)

theorem attachSteps_ofProgram (exports : List Export) (selector : Selector) (k : Nat) :
    forall st, st ∈ attachSteps exports selector k -> OfProgram selector k st := by
  intro st hst
  rcases List.mem_cons.mp hst with rfl | hst
  · exact OfProgram.dial
  · rcases List.mem_append.mp hst with hlist | hst
    · rcases List.mem_map.mp hlist with ⟨st, _, rfl⟩
      exact OfProgram.listing st
    · rcases List.mem_cons.mp hst with rfl | himport
      · exact OfProgram.redial
      · rcases List.mem_map.mp himport with ⟨st, _, rfl⟩
        exact OfProgram.importing st

/--
There are two connections more and nothing else has changed about connections:
the one of the list, which the program has left, and the one of a new session.
-/
def Attaches (exports : List Export) (selector : Selector) (device : ExportedDevice)
    (before behind : Network) : Prop :=
  exists e v w, findExport exports device.busid = some e ∧
    behind.wires = before.wires ++ [v, w] ∧ v.caller = Caller.left ∧
    w.caller = Caller.attached selector (Session.start (seenDevice e)) ∧
    w.line.task = Stage.urbs e (Connection.start e.devid e.endpoints)

theorem Caller.reads_list {text : Text} {input rest : Bytes} {devices : List ExportedDevice}
    (h : readDevlistReply text input = .ok (devices, rest)) (selector : Option Selector) :
    (Caller.listing selector input).reads text false = Caller.chooses selector devices := by
  simp only [Caller.reads, h]

theorem Caller.chooses_found {selector : Selector} {devices : List ExportedDevice}
    {device : ExportedDevice} (h : selector.find devices = some device) :
    Caller.chooses (some selector) devices = Caller.chosen selector device := by
  simp only [Caller.chooses, h]

theorem Caller.reads_import {text : Text} {input rest : Bytes} {device found : ExportedDevice}
    (h : readImportReply text input = .ok (found, rest)) (hsame : found.busid = device.busid)
    (selector : Selector) :
    (Caller.importing selector device input).reads text false =
      Caller.attached selector { Session.start found with input := rest } := by
  simp only [Caller.reads, h, Caller.imports, hsame, ne_eq, not_true_eq_false, if_false]

theorem list_steps {text : Text} {exports : List Export} (hex : Exportable text exports)
    {selector : Selector} {device : ExportedDevice}
    (hfind : selector.find (devicesOf exports) = some device) (imported : List String) :
    exists line, Wire.steps text exports (imported, Wire.list (some selector))
        (listSteps exports) =
      (imported, ⟨Caller.chosen selector device, [], [], line⟩) ∧ line.holds = none := by
  let asked : Line :=
    { Line.start with task := Stage.devlist, log := [Server.Request.devList] }
  let told : Line := { asked with task := Stage.ended, written := [] ++ listReply exports }
  have hrequest : takeExact opHeaderSize encodeDevlistRequest =
      some (encodeDevlistRequest, []) := rfl
  have hsent : Wire.step text exports imported (Wire.list (some selector))
      (WireStep.toServer opHeaderSize) =
      (imported, ⟨Caller.listing (some selector) [], [], [],
        { Line.start with input := encodeDevlistRequest }⟩) := rfl
  have hread : Line.step text exports imported
      { Line.start with input := encodeDevlistRequest } LineStep.read = (imported, asked) := by
    simp only [Line.step, Line.read, Line.start, hrequest]
    rfl
  have hquiet : newBytes { Line.start with input := encodeDevlistRequest } asked = [] := rfl
  have hasked : Wire.step text exports imported ⟨Caller.listing (some selector) [], [], [],
      { Line.start with input := encodeDevlistRequest }⟩ (WireStep.server LineStep.read) =
      (imported, ⟨Caller.listing (some selector) [], [], [], asked⟩) := by
    simp only [Wire.step, isTasks, if_true, Wire.serverStep, hread, hquiet, List.append_nil]
  have hnew : newBytes asked told = listReply exports :=
    newBytes_of_written rfl (by
      intro e c hsame
      cases hsame)
  have htold : Wire.step text exports imported
      ⟨Caller.listing (some selector) [], [], [], asked⟩ (WireStep.server LineStep.write) =
      (imported, ⟨Caller.listing (some selector) [], [], listReply exports, told⟩) := by
    have hwrite : Line.step text exports imported asked LineStep.write = (imported, told) := rfl
    simp only [Wire.step, isTasks, if_true, Wire.serverStep, hwrite, hnew, List.nil_append]
  have harrived : Wire.step text exports imported
      ⟨Caller.listing (some selector) [], [], listReply exports, told⟩
      (WireStep.toClient (listReply exports).length) =
      (imported, ⟨Caller.listing (some selector) (listReply exports), [], [], told⟩) := by
    simp only [Wire.step, Caller.deaf, Bool.false_eq_true, if_false, Caller.receive,
      List.take_length, List.drop_length, List.nil_append]
  have hchosen : Wire.step text exports imported
      ⟨Caller.listing (some selector) (listReply exports), [], [], told⟩ WireStep.reads =
      (imported, ⟨Caller.chosen selector device, [], [], told⟩) := by
    have hreads := (Caller.reads_list hex.list (some selector)).trans
      (Caller.chooses_found hfind)
    simp only [Wire.step, hreads]
  refine ⟨told, ?_, rfl⟩
  simp only [Wire.steps, listSteps, List.foldl_cons, List.foldl_nil, hsent, hasked, htold,
    harrived, hchosen]

theorem grantReply_length {e : Export} (h : e.Encodable) :
    (grantReply e).length = opHeaderSize + deviceSize := by
  have hencode : e.encode false = e.record := by
    unfold Client.Export.encode
    rw [if_neg (by decide), List.append_nil]
  unfold grantReply
  rw [List.length_append, Client.opHeader_length, hencode, Client.Export.record_length h]

def importLine (busid : String) (task : Stage) (written : Bytes) : Line where
  task := task
  input := []
  written := written
  log := [Server.Request.import busid]
  violations := []

theorem toServer_all (text : Text) (exports : List Export) (imported : List String)
    (caller : Caller) {request : Bytes} {n : Nat} (h : request.length = n) :
    Wire.step text exports imported (Wire.connect caller request) (WireStep.toServer n) =
      (imported, ⟨caller, [], [], { Line.start with input := request }⟩) := by
  have htake : request.take n = request := List.take_of_length_le (Nat.le_of_eq h)
  have hdrop : request.drop n = [] := List.drop_eq_nil_of_le (Nat.le_of_eq h)
  simp only [Wire.step, Wire.connect, htake, hdrop]
  rfl

theorem serverStep_of_step {text : Text} {exports : List Export} {imported imported' : List String}
    {caller : Caller} {line line' : Line} {st : LineStep} {out : Bytes}
    (hst : isTasks st = true) (h : line.step text exports imported st = (imported', line'))
    (hout : newBytes line line' = out) :
    Wire.step text exports imported ⟨caller, [], [], line⟩ (WireStep.server st) =
      (imported', ⟨caller, [], out, line'⟩) := by
  simp only [Wire.step, hst, if_true, Wire.serverStep, h, hout, List.nil_append]

theorem toClient_all (text : Text) (exports : List Export) (imported : List String)
    (selector : Selector) (device : ExportedDevice) (line : Line) {reply : Bytes} {n : Nat}
    (h : reply.length = n) :
    Wire.step text exports imported ⟨Caller.importing selector device [], [], reply, line⟩
      (WireStep.toClient n) =
      (imported, ⟨Caller.importing selector device reply, [], [], line⟩) := by
  have htake : reply.take n = reply := List.take_of_length_le (Nat.le_of_eq h)
  have hdrop : reply.drop n = [] := List.drop_eq_nil_of_le (Nat.le_of_eq h)
  simp only [Wire.step, Caller.deaf, Bool.false_eq_true, if_false, Caller.receive, htake, hdrop,
    List.nil_append]

theorem read_field {text : Text} (hlossless : text.Lossless) {exports : List Export}
    {imported : List String} {busid : String} {field : Bytes} {e : Export}
    (hfield : encodeBusid text busid = .ok field) (hexport : findExport exports busid = some e)
    (hfree : busid ∉ imported) :
    Line.step text exports imported { Line.start with task := Stage.busid, input := field }
        LineStep.read =
      (imported ++ [busid], importLine busid (Stage.granted e) []) := by
  have hbusid := Client.cString_encodeBusid hlossless hfield
  rcases Client.encodeBusid_ok hfield with ⟨rfl, hshort, _⟩
  have htake := takeExact_append (Client.padded_length (Nat.le_of_lt hshort)) []
  rw [List.append_nil] at htake
  simp only [Line.step, Line.read, htake, hbusid, Line.import, hexport, if_neg hfree]
  rfl

theorem import_steps {text : Text} {exports : List Export} (hex : Exportable text exports)
    (selector : Selector) {device : ExportedDevice} {e : Export} {field : Bytes}
    {imported : List String} (hfield : encodeBusid text device.busid = .ok field)
    (hexport : findExport exports device.busid = some e) (hfree : device.busid ∉ imported) :
    Wire.steps text exports (imported, Wire.import text selector device) importSteps =
      (imported ++ [device.busid],
        ⟨Caller.attached selector (Session.start (seenDevice e)), [], [],
          importLine device.busid (Stage.urbs e (Connection.start e.devid e.endpoints))
            (grantReply e)⟩) := by
  have hconnect : Wire.import text selector device =
      Wire.connect (Caller.importing selector device [])
        (opHeader usbipVersion opReqImport 0 ++ field) := by
    unfold Wire.import
    rw [Client.encodeImportRequest_ok hfield]
  have hlength : (opHeader usbipVersion opReqImport 0 ++ field).length =
      opHeaderSize + busidSize := by
    rcases Client.encodeBusid_ok hfield with ⟨rfl, hshort, _⟩
    rw [List.length_append, Client.opHeader_length,
      Client.padded_length (Nat.le_of_lt hshort)]
  have hheader : Line.step text exports imported
      { Line.start with input := opHeader usbipVersion opReqImport 0 ++ field } LineStep.read =
      (imported, { Line.start with task := Stage.busid, input := field }) := by
    have htake := takeExact_append (Client.opHeader_length usbipVersion opReqImport 0) field
    simp only [Line.step, Line.read, Line.start, htake, request_import]
  have hwrite : Line.step text exports (imported ++ [device.busid])
      (importLine device.busid (Stage.granted e) []) LineStep.write =
      (imported ++ [device.busid],
        importLine device.busid (Stage.urbs e (Connection.start e.devid e.endpoints))
          (grantReply e)) := by
    simp only [Line.step, Line.write, importLine, List.nil_append]
    rfl
  have hquiet : forall request : Bytes,
      newBytes { Line.start with input := request }
        { Line.start with task := Stage.busid, input := field } = [] :=
    fun _ => rfl
  have hquiet' : newBytes { Line.start with task := Stage.busid, input := field }
      (importLine device.busid (Stage.granted e) []) = [] := rfl
  have hnew : newBytes (importLine device.busid (Stage.granted e) [])
      (importLine device.busid (Stage.urbs e (Connection.start e.devid e.endpoints))
        (grantReply e)) = grantReply e :=
    newBytes_of_written (List.nil_append _).symm (by
      intro e' c hsame
      cases hsame)
  have hreads := Caller.reads_import (hex.grant hexport) (Server.findExport_busid hexport) selector
  have hattach : Wire.step text exports (imported ++ [device.busid])
      ⟨Caller.importing selector device (grantReply e), [], [],
        importLine device.busid (Stage.urbs e (Connection.start e.devid e.endpoints))
          (grantReply e)⟩ WireStep.reads =
      (imported ++ [device.busid],
        ⟨Caller.attached selector (Session.start (seenDevice e)), [], [],
          importLine device.busid (Stage.urbs e (Connection.start e.devid e.endpoints))
            (grantReply e)⟩) := by
    simp only [Wire.step, hreads]
    rfl
  simp only [Wire.steps, importSteps, List.foldl_cons, List.foldl_nil, hconnect,
    toServer_all text exports imported _ hlength, serverStep_of_step rfl hheader (hquiet _),
    serverStep_of_step rfl (read_field hex.lossless hfield hexport hfree) hquiet',
    serverStep_of_step rfl hwrite hnew,
    toClient_all text exports _ selector device _
      (grantReply_length (hex.encodable e (findExport_mem hexport))), hattach]

theorem attachSteps_allowed (exports : List Export) (selector : Selector) (k : Nat) :
    forall st, st ∈ attachSteps exports selector k -> forall n : Network, n.Allowed st := by
  have hwire : forall (sts : List WireStep) (i : Nat),
      (forall st, st ∈ sts -> forall w : Wire, w.Allowed st) ->
      forall st, st ∈ sts.map (NetworkStep.wire i) -> forall n : Network, n.Allowed st := by
    intro sts i hsts st hst n
    rcases List.mem_map.mp hst with ⟨st', hst', rfl⟩
    intro w _
    exact hsts st' hst' w
  have hlist : forall st, st ∈ listSteps exports -> forall w : Wire, w.Allowed st := by
    intro st hst w
    simp only [listSteps, List.mem_cons, List.not_mem_nil, or_false] at hst
    rcases hst with rfl | rfl | rfl | rfl | rfl <;> exact trivial
  have himport : forall st, st ∈ importSteps -> forall w : Wire, w.Allowed st := by
    intro st hst w
    simp only [importSteps, List.mem_cons, List.not_mem_nil, or_false] at hst
    rcases hst with rfl | rfl | rfl | rfl | rfl | rfl <;> exact trivial
  intro st hst n
  rcases List.mem_cons.mp hst with rfl | hst
  · exact trivial
  · rcases List.mem_append.mp hst with hst | hst
    · exact hwire (listSteps exports) k hlist st hst n
    · rcases List.mem_cons.mp hst with rfl | hst
      · exact trivial
      · exact hwire importSteps (k + 1) himport st hst n

/-- A device that is free is attached by the steps of the program and its tasks. -/
theorem attach_steps {text : Text} {exports : List Export} (hex : Exportable text exports)
    {selector : Selector} {device : ExportedDevice} {e : Export} {field : Bytes}
    (hfind : selector.find (devicesOf exports) = some device)
    (hexport : findExport exports device.busid = some e)
    (hfield : encodeBusid text device.busid = .ok field) {imported : List String}
    (hfree : device.busid ∉ imported) (ws : List Wire) :
    exists line, (attachSteps exports selector ws.length).foldl (Network.step text)
        ⟨exports, imported, ws⟩ =
      ⟨exports, imported ++ [device.busid], (ws ++ [⟨Caller.left, [], [], line⟩]) ++
        [⟨Caller.attached selector (Session.start (seenDevice e)), [], [],
          importLine device.busid (Stage.urbs e (Connection.start e.devid e.endpoints))
            (grantReply e)⟩]⟩ := by
  rcases list_steps hex hfind imported with ⟨line, hlist, _⟩
  have hdial : Network.step text ⟨exports, imported, ws⟩ (NetworkStep.dial (some selector)) =
      ⟨exports, imported, ws ++ [Wire.list (some selector)]⟩ := rfl
  have hlast : forall w : Wire, (ws ++ [w])[ws.length]? = some w := fun _ =>
    List.getElem?_concat_length
  have hredial : Network.step text
      ⟨exports, imported, ws ++ [⟨Caller.chosen selector device, [], [], line⟩]⟩
      (NetworkStep.redial ws.length) =
      ⟨exports, imported, (ws ++ [⟨Caller.left, [], [], line⟩]) ++
        [Wire.import text selector device]⟩ := by
    simp only [Network.step, hlast, set_at_index]
  have hmore : (ws ++ [(⟨Caller.left, [], [], line⟩ : Wire)]).length = ws.length + 1 := by
    rw [List.length_append, List.length_singleton]
  refine ⟨line, ?_⟩
  unfold attachSteps
  rw [List.foldl_cons, hdial, List.foldl_append, Network.steps_last, hlist, List.foldl_cons]
  dsimp only
  rw [hredial, ← hmore, Network.steps_last, import_steps hex selector hfield hexport hfree]

/-!
# One device
-/

theorem sampleExports_exportable : Exportable Text.strict Server.sampleExports where
  lossless := Text.strict_lossless
  count := by decide
  encodable := by
    intro e he
    rw [List.mem_singleton.mp he]
    exact Client.sampleExport_encodable
  devnum := by
    intro e he
    rw [List.mem_singleton.mp he]
    decide

def sampleSelector : Selector := Selector.busId "1-1"

theorem sampleSelector_find :
    sampleSelector.find (devicesOf Server.sampleExports) = some Client.sampleExport.device :=
  List.find?_cons_of_pos (beq_self_eq_true "1-1")

def sampleAttach : List NetworkStep :=
  attachSteps Server.sampleExports sampleSelector 0

theorem sampleAttach_run : Network.Run Text.strict Server.sampleExports sampleAttach :=
  guarded_of_forall (attachSteps_allowed Server.sampleExports sampleSelector 0) _

def sampleWire : Wire :=
  ⟨Caller.attached sampleSelector
    (Session.start (seenDevice { Client.sampleExport with endpoints := [] })), [], [],
    importLine "1-1" (Stage.urbs { Client.sampleExport with endpoints := [] }
      (Connection.start (Export.devid { Client.sampleExport with endpoints := [] }) []))
      (grantReply { Client.sampleExport with endpoints := [] })⟩

theorem sampleAttach_wire :
    (Network.after Text.strict Server.sampleExports sampleAttach).wires[1]? =
      some sampleWire := by
  have hfield : encodeBusid Text.strict Client.sampleExport.device.busid =
      .ok (padded busidSize Client.sampleExport.device.busid) := by
    unfold encodeBusid
    rw [if_neg (by decide +kernel)]
    rfl
  rcases attach_steps sampleExports_exportable sampleSelector_find Server.sample_find hfield
    List.not_mem_nil [] with ⟨line, hw⟩
  have hafter : Network.after Text.strict Server.sampleExports sampleAttach = _ := hw
  rw [hafter]
  rfl

/-!
# Results
-/

/--
In every allowed run of programs, of others and of a server: whenever a program
has a session, the session is for the device in the list that the program was asked
for, and it and the server's task of its connection are a run of a system of
their own, so that everything known of such runs holds of it; and as long as the
task serves the device, no other connection has it.
-/
theorem attached_sessions_are_runs {text : Text} {exports : List Export}
    (hex : Exportable text exports) {steps : List NetworkStep}
    (hrun : Network.Run text exports steps) {i : Nat} {w : Wire}
    (hw : (Network.after text exports steps).wires[i]? = some w) {selector : Selector}
    {session : Session} (hattached : w.caller = Caller.attached selector session) :
    (exists device e c moves, selector.find (devicesOf exports) = some device ∧
      findExport exports device.busid = some e ∧
      ((exports.map fun e => e.busid).Nodup -> e.device = device) ∧
      (w.line.task = Stage.urbs e c ∨ w.line.task = Stage.returned e c) ∧
      (seenDevice e).devnum.toNat < 65536 ∧ System.Run (seenDevice e) e.endpoints moves ∧
      System.after (seenDevice e) e.endpoints moves =
        ⟨session, c, w.toServer, w.toClient⟩) ∧
    forall (j : Nat) v busid, (Network.after text exports steps).wires[j]? = some v ->
      w.line.holds = some busid -> v.line.holds = some busid -> j = i := by
  constructor
  · have hsound := (hrun.sound hex).wires w (List.mem_of_getElem? hw)
    unfold Wire.Sound at hsound
    rw [hattached] at hsound
    rcases hsound with ⟨device, e, hfind, hexport, hserving⟩
    have hdevice := device_of_export hfind hexport
    have hdevnum := hex.devnum e (findExport_mem hexport)
    generalize htask : w.line.task = task at hserving
    cases hserving with
    | urbs hbegan =>
        rcases hbegan with ⟨moves, hmoves, hafter⟩
        exact ⟨device, e, _, moves, hfind, hexport, hdevice, Or.inl rfl, hdevnum, hmoves,
          hafter⟩
    | returned _ hbegan =>
        rcases hbegan with ⟨moves, hmoves, hafter⟩
        exact ⟨device, e, _, moves, hfind, hexport, hdevice, Or.inr rfl, hdevnum, hmoves,
          hafter⟩
  · intro j v busid hv hholds hholds'
    exact Network.holds_alone hv hw hholds' hholds

theorem attached_sessions_are_runs_sample :
    (exists device e c moves,
      sampleSelector.find (devicesOf Server.sampleExports) = some device ∧
      findExport Server.sampleExports device.busid = some e ∧
      ((Server.sampleExports.map fun e => e.busid).Nodup -> e.device = device) ∧
      (sampleWire.line.task = Stage.urbs e c ∨ sampleWire.line.task = Stage.returned e c) ∧
      (seenDevice e).devnum.toNat < 65536 ∧ System.Run (seenDevice e) e.endpoints moves ∧
      System.after (seenDevice e) e.endpoints moves =
        ⟨Session.start (seenDevice { Client.sampleExport with endpoints := [] }), c,
          sampleWire.toServer, sampleWire.toClient⟩) ∧
    forall (j : Nat) v busid,
      (Network.after Text.strict Server.sampleExports sampleAttach).wires[j]? = some v ->
      sampleWire.line.holds = some busid -> v.line.holds = some busid -> j = 1 :=
  attached_sessions_are_runs sampleExports_exportable sampleAttach_run sampleAttach_wire rfl

/-- What a program fails with, as the server and the command line have it. -/
def Failure.Fair (text : Text) (exports : List Export) : Failure -> Prop
  | Failure.noMatch selector =>
      forall e, e ∈ exports -> selector.matches e.device = false
  | Failure.protocol (.io _ _) => True
  | Failure.protocol (.status code) => code = 1
  | Failure.protocol (.invalid reason) =>
      exists e, e ∈ exports ∧ (utf8 e.busid).length = busidSize ∧
        reason = s!"invalid busid {text.debug e.busid}"
  | Failure.protocol _ => False

/--
In every allowed run, however the streams are cut and whatever others do: a program
that lists has the list of the exports, and a program fails only if no export matches,
if the bus id leaves no room for the zero behind it, if the server refuses the
import, or if the connection is lost; a reply is never taken for something else.
-/
theorem programs_are_told_the_truth {text : Text} {exports : List Export}
    (hex : Exportable text exports) {steps : List NetworkStep}
    (hrun : Network.Run text exports steps) :
    (forall w devices, w ∈ (Network.after text exports steps).wires ->
      w.caller = Caller.listed devices -> devices = devicesOf exports) ∧
    (forall w reason, w ∈ (Network.after text exports steps).wires ->
      w.caller = Caller.failed reason -> reason.Fair text exports) := by
  constructor
  · intro w devices hw hcaller
    have hsound := (hrun.sound hex).wires w hw
    unfold Wire.Sound at hsound
    rw [hcaller] at hsound
    exact hsound
  · intro w reason hw hcaller
    have hsound := (hrun.sound hex).wires w hw
    unfold Wire.Sound at hsound
    rw [hcaller] at hsound
    cases hsound with
    | noMatch hnone =>
        intro e he
        have hnot := List.find?_eq_none.mp hnone e.device (List.mem_map_of_mem he)
        exact Bool.not_eq_true _ ▸ hnot
    | lost kind reason => exact trivial
    | refused => exact rfl
    | @busid selector device err hfind hbusid =>
        rcases device_of_find hfind with ⟨e, he, rfl⟩
        have hencodable := hex.encodable e he
        unfold encodeBusid at hbusid
        dsimp only at hbusid
        split at hbusid
        · rename_i hlong
          cases hbusid
          refine ⟨e, he, ?_, rfl⟩
          rcases hlong with hlong | hzero
          · exact Nat.le_antisymm hencodable.busid_length hlong
          · exact absurd hzero hencodable.busid_nonzero
        · cases hbusid

theorem programs_are_told_the_truth_sample :
    (forall w devices,
      w ∈ (Network.after Text.strict Server.sampleExports sampleAttach).wires ->
      w.caller = Caller.listed devices -> devices = devicesOf Server.sampleExports) ∧
    (forall w reason,
      w ∈ (Network.after Text.strict Server.sampleExports sampleAttach).wires ->
      w.caller = Caller.failed reason -> reason.Fair Text.strict Server.sampleExports) :=
  programs_are_told_the_truth sampleExports_exportable sampleAttach_run

theorem attach_from {text : Text} {exports : List Export} (hex : Exportable text exports)
    {steps : List NetworkStep} (hrun : Network.Run text exports steps) {selector : Selector}
    {device : ExportedDevice} (hfind : selector.find (devicesOf exports) = some device)
    (hroom : (utf8 device.busid).length < busidSize)
    (hnot : device.busid ∉ (Network.after text exports steps).imported) :
    exists more,
      (forall st, st ∈ more ->
        OfProgram selector (Network.after text exports steps).wires.length st) ∧
      Network.Run text exports (steps ++ more) ∧
      Attaches exports selector device (Network.after text exports steps)
        (Network.after text exports (steps ++ more)) := by
  rcases device_of_find hfind with ⟨e', he', rfl⟩
  have hencodable := hex.encodable e' he'
  have hfield : encodeBusid text e'.device.busid = .ok (padded busidSize e'.device.busid) := by
    unfold encodeBusid
    exact if_neg (not_or.mpr ⟨Nat.not_le_of_lt hroom, hencodable.busid_nonzero⟩)
  have hsome : (findExport exports e'.device.busid).isSome := by
    unfold findExport
    rw [List.find?_isSome]
    exact ⟨e', he', beq_self_eq_true e'.busid⟩
  rcases Option.isSome_iff_exists.mp hsome with ⟨e, hexport⟩
  have hstate : Network.after text exports steps =
      ⟨exports, (Network.after text exports steps).imported,
        (Network.after text exports steps).wires⟩ := by
    have hserved := (hrun.sound hex).served
    generalize Network.after text exports steps = n at hserved ⊢
    rcases n with ⟨served, imported, wires⟩
    have hsame : served = exports := hserved
    rw [hsame]
  rcases attach_steps hex hfind hexport hfield hnot
    (Network.after text exports steps).wires with ⟨line, hattach⟩
  rw [← hstate] at hattach
  have hafter : Network.after text exports (steps ++
      attachSteps exports selector (Network.after text exports steps).wires.length) = _ :=
    (List.foldl_append.trans hattach : (steps ++ attachSteps exports selector
      (Network.after text exports steps).wires.length).foldl (Network.step text)
        (Network.start exports) = _)
  refine ⟨attachSteps exports selector (Network.after text exports steps).wires.length,
    attachSteps_ofProgram exports selector _, ?_, ?_⟩
  · exact Guarded.append hrun (guarded_of_forall (attachSteps_allowed exports selector _) _)
  · rw [hafter]
    exact ⟨e, _, _, hexport, List.append_assoc _ _ _, rfl, rfl, rfl⟩

/--
From every state of every allowed run, a new program whose selector finds a
device that no connection has can attach it: the steps of the program and of its
own two connections lead to a new session for that device.
-/
theorem free_devices_can_be_attached {text : Text} {exports : List Export}
    (hex : Exportable text exports) {steps : List NetworkStep}
    (hrun : Network.Run text exports steps) {selector : Selector} {device : ExportedDevice}
    (hfind : selector.find (devicesOf exports) = some device)
    (hroom : (utf8 device.busid).length < busidSize)
    (hfree : forall w, w ∈ (Network.after text exports steps).wires ->
      w.line.holds ≠ some device.busid) :
    exists more,
      (forall st, st ∈ more ->
        OfProgram selector (Network.after text exports steps).wires.length st) ∧
      Network.Run text exports (steps ++ more) ∧
      Attaches exports selector device (Network.after text exports steps)
        (Network.after text exports (steps ++ more)) := by
  refine attach_from hex hrun hfind hroom ?_
  refine (Network.after_good text exports steps).exclusive.free_iff.mpr ?_
  intro i l hl
  simp only [Network.listener, List.getElem?_map, Option.map_eq_some_iff] at hl
  rcases hl with ⟨w, hw, rfl⟩
  exact hfree w (List.mem_of_getElem? hw)

theorem free_devices_can_be_attached_sample :
    exists more,
      (forall st, st ∈ more -> OfProgram sampleSelector
        (Network.after Text.strict Server.sampleExports []).wires.length st) ∧
      Network.Run Text.strict Server.sampleExports ([] ++ more) ∧
      Attaches Server.sampleExports sampleSelector Client.sampleExport.device
        (Network.after Text.strict Server.sampleExports [])
        (Network.after Text.strict Server.sampleExports ([] ++ more)) :=
  free_devices_can_be_attached sampleExports_exportable
    (show Network.Run Text.strict Server.sampleExports [] from trivial) sampleSelector_find
    (by decide +kernel) (by
      intro w hw
      cases hw)

theorem Wire.steps_server (text : Text) (exports : List Export) (sts : List LineStep)
    (htasks : forall st, st ∈ sts -> isTasks st = true) (imported : List String) (w : Wire) :
    (Wire.steps text exports (imported, w) (sts.map WireStep.server)).1 =
      (Line.steps text exports (imported, w.line) sts).1 := by
  induction sts generalizing imported w with
  | nil => rfl
  | cons st sts ih =>
      have hst := htasks st List.mem_cons_self
      have hstep : w.step text exports imported (WireStep.server st) =
          w.serverStep text exports imported st := if_pos hst
      have hrest := ih (fun st' h => htasks st' (List.mem_cons_of_mem st h))
        (w.serverStep text exports imported st).1 (w.serverStep text exports imported st).2
      unfold Wire.steps Line.steps at hrest ⊢
      rw [List.map_cons, List.foldl_cons, List.foldl_cons, hstep]
      exact hrest

theorem isTasks_of_isLast {st : LineStep} (h : st.isLast = true) : isTasks st = true := by
  cases st with
  | receive bytes => cases h
  | _ => rfl

theorem allowed_of_isLast {st : LineStep} (h : st.isLast = true) (w : Wire) :
    w.Allowed (WireStep.server st) := by
  cases st with
  | serve st =>
      cases st with
      | finish address outcome => cases h
      | _ => exact trivial
  | _ => exact trivial

/-- A last step of the task of the connection that has the bus id. -/
def GivesBack (n : Network) (busid : String) (st : NetworkStep) : Prop :=
  exists i w last, n.wires[i]? = some w ∧ w.line.holds = some busid ∧
    LineStep.isLast last = true ∧ st = NetworkStep.wire i (WireStep.server last)

/-- Whoever has a device, its task can come to its end, and then nobody has the device. -/
theorem Network.Run.frees {text : Text} {exports : List Export} (hex : Exportable text exports)
    {steps : List NetworkStep} (hrun : Network.Run text exports steps) (busid : String) :
    exists more,
      (forall st, st ∈ more -> GivesBack (Network.after text exports steps) busid st) ∧
      Network.Run text exports (steps ++ more) ∧
      (Network.after text exports (steps ++ more)).wires.length =
        (Network.after text exports steps).wires.length ∧
      busid ∉ (Network.after text exports (steps ++ more)).imported := by
  by_cases hmem : busid ∈ (Network.after text exports steps).imported
  · rcases (Network.after_good text exports steps).exclusive.mem_iff.mp hmem with ⟨i, hi⟩
    simp only [Network.listener, List.map_map, List.getElem?_map,
      Option.map_eq_some_iff, Function.comp_apply] at hi
    rcases hi with ⟨w, hw, hholds⟩
    have hwinds := (Network.after_good text exports steps).winds w.line
      (List.mem_map_of_mem (List.mem_of_getElem? hw))
    rcases Line.gives_back text exports (Network.after text exports steps).imported hwinds
      hholds with ⟨sts, hlast, hback⟩
    have hsteps := Network.steps_wire text hw (sts.map WireStep.server)
    have hafter : Network.after text exports
        (steps ++ (sts.map WireStep.server).map (NetworkStep.wire i)) = _ :=
      (List.foldl_append.trans hsteps : (steps ++ (sts.map WireStep.server).map
        (NetworkStep.wire i)).foldl (Network.step text) (Network.start exports) = _)
    refine ⟨(sts.map WireStep.server).map (NetworkStep.wire i), ?_, ?_, ?_, ?_⟩
    · intro st hst
      rcases List.mem_map.mp hst with ⟨st', hst', rfl⟩
      rcases List.mem_map.mp hst' with ⟨last, hin, rfl⟩
      exact ⟨i, w, last, hw, hholds, hlast last hin, rfl⟩
    · refine Guarded.append hrun (guarded_of_forall ?_ _)
      intro st hst n
      rcases List.mem_map.mp hst with ⟨st', hst', rfl⟩
      rcases List.mem_map.mp hst' with ⟨last, hin, rfl⟩
      intro v _
      exact allowed_of_isLast (hlast last hin) v
    · rw [hafter]
      exact List.length_set
    · rw [hafter]
      dsimp only
      rw [Wire.steps_server text _ sts (fun st h => isTasks_of_isLast (hlast st h)),
        (hrun.sound hex).served]
      exact hback
  · refine ⟨[], ?_, ?_, ?_, ?_⟩
    · intro st hst
      cases hst
    · rw [List.append_nil]
      exact hrun
    · rw [List.append_nil]
    · rw [List.append_nil]
      exact hmem

/--
No device is ever lost: from every state of every allowed run, the task of the
connection that has the device can come to its end, which leaves the device to
nobody, and then a new program can attach it as if it had been free.
-/
theorem every_device_can_be_attached {text : Text} {exports : List Export}
    (hex : Exportable text exports) {steps : List NetworkStep}
    (hrun : Network.Run text exports steps) {selector : Selector} {device : ExportedDevice}
    (hfind : selector.find (devicesOf exports) = some device)
    (hroom : (utf8 device.busid).length < busidSize) :
    exists freeing attaching,
      (forall st, st ∈ freeing ->
        GivesBack (Network.after text exports steps) device.busid st) ∧
      (forall w, w ∈ (Network.after text exports (steps ++ freeing)).wires ->
        w.line.holds ≠ some device.busid) ∧
      (forall st, st ∈ attaching ->
        OfProgram selector (Network.after text exports steps).wires.length st) ∧
      Network.Run text exports (steps ++ freeing ++ attaching) ∧
      Attaches exports selector device (Network.after text exports (steps ++ freeing))
        (Network.after text exports (steps ++ freeing ++ attaching)) := by
  rcases hrun.frees hex device.busid with ⟨freeing, hlast, hfreed, hlength, hnot⟩
  rcases attach_from hex hfreed hfind hroom hnot with ⟨attaching, hown, hattached, hends⟩
  rw [hlength] at hown
  refine ⟨freeing, attaching, hlast, ?_, hown, hattached, hends⟩
  intro w hw hholds
  rcases List.mem_iff_getElem?.mp hw with ⟨i, hi⟩
  refine (Network.after_good text exports (steps ++ freeing)).exclusive.free_iff.mp hnot i
    w.line ?_ hholds
  simp only [Network.listener, List.getElem?_map, hi, Option.map_some]

theorem every_device_can_be_attached_sample :
    exists freeing attaching,
      (forall st, st ∈ freeing -> GivesBack
        (Network.after Text.strict Server.sampleExports sampleAttach)
        Client.sampleExport.device.busid st) ∧
      (forall w,
        w ∈ (Network.after Text.strict Server.sampleExports (sampleAttach ++ freeing)).wires ->
        w.line.holds ≠ some Client.sampleExport.device.busid) ∧
      (forall st, st ∈ attaching -> OfProgram sampleSelector
        (Network.after Text.strict Server.sampleExports sampleAttach).wires.length st) ∧
      Network.Run Text.strict Server.sampleExports (sampleAttach ++ freeing ++ attaching) ∧
      Attaches Server.sampleExports sampleSelector Client.sampleExport.device
        (Network.after Text.strict Server.sampleExports (sampleAttach ++ freeing))
        (Network.after Text.strict Server.sampleExports
          (sampleAttach ++ freeing ++ attaching)) :=
  every_device_can_be_attached sampleExports_exportable sampleAttach_run sampleSelector_find
    (by decide +kernel)

end Link
end UsbIp
