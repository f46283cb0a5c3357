import UsbIp.Client.Selection
import UsbIp.Link.Runs
import UsbIp.Server.Listener

/-!
# Programs and a server

Any number of programs and one server.  A program that lists or attaches asks
for the list of devices on one connection; to attach it then chooses a device
and imports it on a new connection, which becomes a session.  Between any two
steps of a program the others, which need not be of this kind, may do anything.
-/

namespace UsbIp
namespace Link

open Foundation
open Protocol
open Client (Text Selector Session ExportedDevice encodeDevlistRequest encodeImportRequest
  readDevlistReply readImportReply listDevices importDevice)
open Server (Connection Export Line LineStep Listener ListenerStep Stage)

/-!
# One end of a connection
-/

inductive Failure where
  | protocol (e : ProtocolError)
  /-- No exported device matches the selector. -/
  | noMatch (selector : Selector)
deriving DecidableEq

def Failure.toString (text : Text) : Failure -> String
  | Failure.protocol e => e.toString
  | Failure.noMatch selector => "no exported device matches " ++ selector.debug text

/-- What a program makes of a connection. -/
inductive Caller where
  /-- Another program, which writes what it likes. -/
  | stranger
  /-- In `list_devices`, for `attach` if there is a selector. -/
  | listing (selector : Option Selector) (input : Bytes)
  /-- `list` has its devices. -/
  | listed (devices : List ExportedDevice)
  /-- `import` has found its device and is about to connect again. -/
  | chosen (selector : Selector) (device : ExportedDevice)
  /-- `import` has gone on with a new connection. -/
  | left
  /-- In `client::import`. -/
  | importing (selector : Selector) (device : ExportedDevice) (input : Bytes)
  | attached (selector : Selector) (session : Session)
  | failed (reason : Failure)

structure Wire where
  caller : Caller
  /-- Written by the program and not yet arrived. -/
  toServer : Bytes
  /-- Written by the server and not yet arrived. -/
  toClient : Bytes
  line : Line

def Wire.connect (caller : Caller) (request : Bytes) : Wire where
  caller := caller
  toServer := request
  toClient := []
  line := Line.start

def Wire.list (selector : Option Selector) : Wire :=
  Wire.connect (Caller.listing selector []) encodeDevlistRequest

def Wire.import (text : Text) (selector : Selector) (device : ExportedDevice) : Wire :=
  match encodeImportRequest text device.busid with
  | .ok request => Wire.connect (Caller.importing selector device []) request
  | .error e => Wire.connect (Caller.failed (Failure.protocol e)) []

def Wire.closed (w : Wire) : Bool :=
  match w.line.task with
  | Stage.urbs _ c => c.writing = false
  | Stage.returned _ _ => true
  | Stage.ended => true
  | _ => false

/-!
# The program
-/

def Caller.chooses (selector : Option Selector) (devices : List ExportedDevice) : Caller :=
  match selector with
  | none => Caller.listed devices
  | some selector =>
      match selector.find devices with
      | some device => Caller.chosen selector device
      | none => Caller.failed (Failure.noMatch selector)

def Caller.imports (text : Text) (selector : Selector) (device found : ExportedDevice)
    (rest : Bytes) : Caller :=
  if found.busid ≠ device.busid then
    Caller.failed (Failure.protocol (.invalid
      s!"imported busid {text.debug found.busid}, requested {text.debug device.busid}"))
  else
    Caller.attached selector { Session.start found with input := rest }

/-- A reader waits for more, unless nothing more comes. -/
def Caller.meets (c : Caller) (ended : Bool) (e : ProtocolError) : Caller :=
  if Client.Short e ∧ ended = false then c else Caller.failed (Failure.protocol e)

def Caller.reads (text : Text) (c : Caller) (ended : Bool) : Caller :=
  match c with
  | Caller.listing selector input =>
      match readDevlistReply text input with
      | .ok (devices, _) => Caller.chooses selector devices
      | .error e => c.meets ended e
  | Caller.importing selector device input =>
      match readImportReply text input with
      | .ok (found, rest) => Caller.imports text selector device found rest
      | .error e => c.meets ended e
  | _ => c

theorem Caller.meets_end (c : Caller) (e : ProtocolError) :
    c.meets true e = Caller.failed (Failure.protocol e) :=
  if_neg (by simp)

/-- A program that reads to the end of the stream does what `list_devices` does. -/
theorem Caller.reads_of_listDevices (text : Text) (selector : Option Selector) (input : Bytes) :
    (forall written devices rest, listDevices text none input = .ok (written, devices, rest) ->
      (Caller.listing selector input).reads text true = Caller.chooses selector devices) ∧
    (forall e, listDevices text none input = .error e ->
      (Caller.listing selector input).reads text true = Caller.failed (Failure.protocol e)) := by
  unfold listDevices
  cases hread : readDevlistReply text input with
  | error e =>
      constructor
      · intro written devices rest h
        cases h
      · intro e' h
        cases h
        simp only [Caller.reads, hread, Caller.meets_end]
  | ok found =>
      rcases found with ⟨found, left⟩
      constructor
      · intro written devices rest h
        cases h
        simp only [Caller.reads, hread]
      · intro e' h
        cases h

/-- A program that reads to the end of the stream does what `client::import` does. -/
theorem Caller.reads_of_importDevice (text : Text) (selector : Selector)
    (device : ExportedDevice) (input : Bytes) {request : Bytes}
    (hrequest : encodeImportRequest text device.busid = .ok request) :
    (forall written session, importDevice text none input device.busid = .ok (written, session) ->
      (Caller.importing selector device input).reads text true =
        Caller.attached selector session) ∧
    (forall e, importDevice text none input device.busid = .error e ->
      (Caller.importing selector device input).reads text true =
        Caller.failed (Failure.protocol e)) := by
  unfold importDevice
  rw [hrequest]
  cases hread : readImportReply text input with
  | error e =>
      constructor
      · intro written session h
        cases h
      · intro e' h
        cases h
        simp only [Caller.reads, hread, Caller.meets_end]
  | ok found =>
      rcases found with ⟨found, rest⟩
      simp only [Client.writeAll, bind, Except.bind, Caller.reads, hread, Caller.imports]
      by_cases hsame : found.busid ≠ device.busid
      · rw [if_pos hsame, if_pos hsame]
        constructor
        · intro written session h
          cases h
        · intro e' h
          cases h
          rfl
      · rw [if_neg hsame, if_neg hsame]
        constructor
        · intro written session h
          cases h
          rfl
        · intro e' h
          cases h

def Caller.fails (c : Caller) (reason : String) : Caller :=
  match c with
  | Caller.listing _ _ => Caller.failed (Failure.protocol (.io .other reason))
  | Caller.chosen _ _ => Caller.failed (Failure.protocol (.io .other reason))
  | Caller.importing _ _ _ => Caller.failed (Failure.protocol (.io .other reason))
  | c => c

def Caller.receive (c : Caller) (bytes : Bytes) : Caller :=
  match c with
  | Caller.listing selector input => Caller.listing selector (input ++ bytes)
  | Caller.importing selector device input =>
      Caller.importing selector device (input ++ bytes)
  | Caller.attached selector session =>
      Caller.attached selector (session.step (Client.Step.receive bytes))
  | c => c

/-!
# Steps
-/

inductive WireStep where
  /-- Another program writes. -/
  | writes (bytes : Bytes)
  /-- The next `n` bytes arrive at the server. -/
  | toServer (n : Nat)
  /-- The next `n` bytes arrive at the program. -/
  | toClient (n : Nat)
  /-- The program sees the end of the stream. -/
  | hangUp
  | reads
  | fails (reason : String)
  /-- A step of the session. -/
  | client (st : Client.Step)
  /-- A step of the server's task. -/
  | server (st : LineStep)

def isTasks : LineStep -> Bool
  | LineStep.receive _ => false
  | _ => true

def newBytes (before behind : Line) : Bytes :=
  behind.written.drop before.written.length ++
    match before.task, behind.task with
    | Stage.urbs _ c, Stage.urbs _ c' => c'.written.drop c.written.length
    | _, _ => []

def Wire.serverStep (text : Text) (exports : List Export) (imported : List String) (w : Wire)
    (st : LineStep) : List String × Wire :=
  let r := w.line.step text exports imported st
  (r.1, { w with line := r.2, toClient := w.toClient ++ newBytes w.line r.2 })

def Wire.clientStep (w : Wire) (st : Client.Step) : Wire :=
  match w.caller with
  | Caller.attached selector session =>
      if isOwn st then
        { w with
          caller := Caller.attached selector (session.step st)
          toServer := w.toServer ++ (session.step st).written.drop session.written.length }
      else
        w
  | _ => w

def Wire.hangUp (text : Text) (w : Wire) : Wire :=
  if w.closed = true ∧ w.toClient = [] then
    match w.caller with
    | Caller.attached selector session =>
        { w with caller := Caller.attached selector (session.step Client.Step.hangUp) }
    | caller => { w with caller := caller.reads text true }
  else
    w

/-- A session that has seen the end of the stream reads nothing more. -/
def Caller.deaf : Caller -> Bool
  | Caller.attached _ session => session.ended
  | _ => false

def Wire.step (text : Text) (exports : List Export) (imported : List String) (w : Wire) :
    WireStep -> List String × Wire
  | WireStep.writes bytes =>
      match w.caller with
      | Caller.stranger => (imported, { w with toServer := w.toServer ++ bytes })
      | _ => (imported, w)
  | WireStep.toServer n =>
      (imported, { w with
        line := w.line.receive (w.toServer.take n), toServer := w.toServer.drop n })
  | WireStep.toClient n =>
      if w.caller.deaf then
        (imported, w)
      else
        (imported, { w with
          caller := w.caller.receive (w.toClient.take n), toClient := w.toClient.drop n })
  | WireStep.hangUp => (imported, w.hangUp text)
  | WireStep.reads => (imported, { w with caller := w.caller.reads text false })
  | WireStep.fails reason => (imported, { w with caller := w.caller.fails reason })
  | WireStep.client st => (imported, w.clientStep st)
  | WireStep.server st =>
      if isTasks st then w.serverStep text exports imported st else (imported, w)

structure Network where
  exports : List Export
  imported : List String
  /-- The connections in the order in which the server accepted them. -/
  wires : List Wire

def Network.start (exports : List Export) : Network where
  exports := exports
  imported := []
  wires := []

inductive NetworkStep where
  /-- A program asks for the list. -/
  | dial (selector : Option Selector)
  /-- Another program connects. -/
  | stranger
  /-- The program that has chosen a device on connection `i` asks for it. -/
  | redial (i : Nat)
  | wire (i : Nat) (st : WireStep)

def Network.step (text : Text) (n : Network) : NetworkStep -> Network
  | NetworkStep.dial selector => { n with wires := n.wires ++ [Wire.list selector] }
  | NetworkStep.stranger => { n with wires := n.wires ++ [Wire.connect Caller.stranger []] }
  | NetworkStep.redial i =>
      match n.wires[i]? with
      | some w =>
          match w.caller with
          | Caller.chosen selector device =>
              { n with
                wires := n.wires.set i { w with caller := Caller.left } ++
                  [Wire.import text selector device] }
          | _ => n
      | none => n
  | NetworkStep.wire i st =>
      match n.wires[i]? with
      | some w =>
          { n with
            imported := (w.step text n.exports n.imported st).1
            wires := n.wires.set i (w.step text n.exports n.imported st).2 }
      | none => n

inductive Network.Yields (text : Text) (n : Network) : NetworkStep -> Wire -> Prop where
  | kept {st : NetworkStep} {w : Wire} : w ∈ n.wires -> Yields text n st w
  | dialled (selector : Option Selector) :
      Yields text n (NetworkStep.dial selector) (Wire.list selector)
  | stranger : Yields text n NetworkStep.stranger (Wire.connect Caller.stranger [])
  | left {i : Nat} {w : Wire} {selector : Selector} {device : ExportedDevice} :
      w ∈ n.wires -> w.caller = Caller.chosen selector device ->
      Yields text n (NetworkStep.redial i) { w with caller := Caller.left }
  | redialled {i : Nat} {w : Wire} {selector : Selector} {device : ExportedDevice} :
      w ∈ n.wires -> w.caller = Caller.chosen selector device ->
      Yields text n (NetworkStep.redial i) (Wire.import text selector device)
  | moved {i : Nat} {w : Wire} (st : WireStep) : n.wires[i]? = some w ->
      Yields text n (NetworkStep.wire i st) (w.step text n.exports n.imported st).2

theorem Network.step_yields {text : Text} {n : Network} {st : NetworkStep} {w : Wire}
    (hw : w ∈ (n.step text st).wires) : n.Yields text st w := by
  cases st with
  | dial selector =>
      rcases List.mem_append.mp hw with hold | hnew
      · exact Yields.kept hold
      · rw [List.mem_singleton.mp hnew]
        exact Yields.dialled selector
  | stranger =>
      rcases List.mem_append.mp hw with hold | hnew
      · exact Yields.kept hold
      · rw [List.mem_singleton.mp hnew]
        exact Yields.stranger
  | redial i =>
      simp only [Network.step] at hw
      split at hw
      · rename_i v hv
        have hmem := List.mem_of_getElem? hv
        split at hw
        · rename_i selector device hcaller
          rcases List.mem_append.mp hw with hold | hnew
          · rcases List.mem_or_eq_of_mem_set hold with hkept | rfl
            · exact Yields.kept hkept
            · exact Yields.left hmem hcaller
          · rw [List.mem_singleton.mp hnew]
            exact Yields.redialled hmem hcaller
        · exact Yields.kept hw
      · exact Yields.kept hw
  | wire i st =>
      simp only [Network.step] at hw
      split at hw
      · rename_i v hv
        rcases List.mem_or_eq_of_mem_set hw with hkept | rfl
        · exact Yields.kept hkept
        · exact Yields.moved st hv
      · exact Yields.kept hw

/-!
# Runs
-/

/-- The session and the connection of a wire, as the two ends of one system. -/
def Wire.system (w : Wire) : Option System :=
  match w.caller, w.line.task with
  | Caller.attached _ session, Stage.urbs _ c =>
      some { client := session, server := c, toServer := w.toServer, toClient := w.toClient }
  | Caller.attached _ session, Stage.returned _ c =>
      some { client := session, server := c, toServer := w.toServer, toClient := w.toClient }
  | _, _ => none

/-- A session issues what the server accepts, and a device returns what it was asked for. -/
def Wire.Allowed (w : Wire) : WireStep -> Prop
  | WireStep.client st => forall l, w.system = some l -> l.Allowed (Step.client st)
  | WireStep.server (LineStep.serve (Server.Step.finish address outcome)) =>
      forall e c, w.line.task = Stage.urbs e c -> outcomeFits c.urbs address outcome
  | _ => True

def Network.Allowed (n : Network) : NetworkStep -> Prop
  | NetworkStep.wire i st => forall w, n.wires[i]? = some w -> w.Allowed st
  | _ => True

/-- A run in which sessions are polite, under unused numbers, and all outcomes fit. -/
def Network.Run (text : Text) (exports : List Export) (steps : List NetworkStep) : Prop :=
  Guarded (Network.step text) Network.Allowed (Network.start exports) steps

def Network.after (text : Text) (exports : List Export) (steps : List NetworkStep) : Network :=
  steps.foldl (Network.step text) (Network.start exports)

end Link
end UsbIp
