import UsbIp.Client.Devices
import UsbIp.Foundation.Leases
import UsbIp.Foundation.Transition
import UsbIp.Server.Serve

/-!
# The connections of a server

What the server does with every connection it accepts: `serve` reads one
request, answers it, and after an import goes on to `serve_urbs`.  The tasks of
all connections share the list of bus ids that are imported; a step is what one
task does between two places where it waits, so a list of steps is any
interleaving of the connections, whatever comes in on them.
-/

namespace UsbIp
namespace Server

open Foundation
open Protocol
open Client (Text cString utf8 usbipVersion opReqDevlist opRepDevlist opReqImport opRepImport
  opHeaderSize busidSize opHeader devlistReply)

/-!
# States
-/

/-- An export and what its device says of its endpoints. -/
structure Export extends Client.Export where
  endpoints : List (UInt8 × UInt8)

def Export.devid (e : Export) : UInt32 :=
  (e.busnum <<< 16) ||| e.devnum

/-- Where `serve` is with a connection. -/
inductive Stage where
  | header
  /-- The list of devices is about to be written. -/
  | devlist
  /-- The header of a request for an import has been read, the bus id has not. -/
  | busid
  /-- The bus id is in `imported`, the reply is about to be written. -/
  | granted (e : Export)
  | refused
  /-- In `serve_urbs`. -/
  | urbs (e : Export) (c : Connection)
  /-- Behind `serve_urbs`, and the bus id is no longer in `imported`. -/
  | returned (e : Export) (c : Connection)
  | ended

inductive Request where
  | devList
  | import (busid : String)
deriving DecidableEq, Repr

structure Line where
  task : Stage
  /-- Bytes from the client that `serve` has not consumed. -/
  input : Bytes
  /-- What `serve` has written, without what `serve_urbs` has. -/
  written : Bytes
  log : List Request
  violations : List String

def Line.start : Line where
  task := Stage.header
  input := []
  written := []
  log := []
  violations := []

def Line.check (l : Line) (bad : Prop) [Decidable bad] (text : String) : Line :=
  if bad then { l with violations := l.violations ++ [text] } else l

/-!
# Requests
-/

def Line.request (l : Line) (header : Bytes) : Line :=
  let (version, b) := getU16 header
  let (code, b) := getU16 b
  let (status, _) := getU32 b
  let l := l.check (version ≠ 0x0111) ("op version 0x" ++ hexDigits 4 version.toNat)
  let l := l.check (status ≠ 0) s!"op request status {status}"
  if code = 0x8005 then
    { l with task := Stage.devlist, log := l.log ++ [Request.devList] }
  else if code = 0x8003 then
    { l with task := Stage.busid }
  else
    { l with
      task := Stage.ended
      violations := l.violations ++ ["unknown op code 0x" ++ hexDigits 4 code.toNat] }

def findExport (exports : List Export) (busid : String) : Option Export :=
  exports.find? fun e => e.busid == busid

/-- The locked section of a request for an import. -/
def Line.import (exports : List Export) (imported : List String) (l : Line) (busid : String) :
    List String × Line :=
  let l := { l with log := l.log ++ [Request.import busid] }
  match findExport exports busid with
  | some e =>
      if busid ∈ imported then
        (imported, { l with task := Stage.refused })
      else
        (imported ++ [busid], { l with task := Stage.granted e })
  | none => (imported, { l with task := Stage.refused })

def Line.read (text : Text) (exports : List Export) (imported : List String) (l : Line) :
    List String × Line :=
  match l.task with
  | Stage.header =>
      match takeExact opHeaderSize l.input with
      | some (header, rest) => (imported, { l with input := rest }.request header)
      | none => (imported, l)
  | Stage.busid =>
      match takeExact busidSize l.input with
      | some (field, rest) =>
          { l with input := rest }.import exports imported (cString text field)
      | none => (imported, l)
  | _ => (imported, l)

/-!
# Replies
-/

def grantReply (e : Export) : Bytes :=
  opHeader usbipVersion opRepImport 0 ++ e.encode false

def refusal : Bytes :=
  opHeader usbipVersion opRepImport 1

def Line.reply (exports : List Export) (l : Line) : Option Bytes :=
  match l.task with
  | Stage.devlist => some (devlistReply (exports.map Export.toExport))
  | Stage.granted e => some (grantReply e)
  | Stage.refused => some refusal
  | _ => none

def Line.write (exports : List Export) (l : Line) : Line :=
  match l.task with
  | Stage.devlist =>
      { l with
        task := Stage.ended
        written := l.written ++ devlistReply (exports.map Export.toExport) }
  | Stage.granted e =>
      { l with
        task := Stage.urbs e { Connection.start e.devid e.endpoints with input := l.input }
        input := []
        written := l.written ++ grantReply e }
  | Stage.refused => { l with task := Stage.ended, written := l.written ++ refusal }
  | _ => l

def strike (imported : List String) (busid : String) : List String :=
  imported.filter fun b => b ≠ busid

def Line.writeFails (exports : List Export) (imported : List String) (l : Line) (n : Nat) :
    List String × Line :=
  match l.reply exports with
  | some out =>
      if n < out.length then
        let failed := { l with task := Stage.ended, written := l.written ++ out.take n }
        match l.task with
        | Stage.granted e => (strike imported e.busid, failed)
        | _ => (imported, failed)
      else
        (imported, l)
  | none => (imported, l)

/-- `serve_urbs` returns when the writer task has ended behind the loop. -/
def Connection.returns (c : Connection) : Bool :=
  c.phase = Phase.stopped ∧ c.writing = false

/-!
# Steps
-/

inductive LineStep where
  /-- Bytes arrive from the client. -/
  | receive (bytes : Bytes)
  /-- Reading fails: the client is gone. -/
  | readFails
  /-- The task takes what it waits for. -/
  | read
  /-- The reply is written. -/
  | write
  | writeFails (n : Nat)
  /-- A step of `serve_urbs`. -/
  | serve (st : Step)
  /-- `serve_urbs` has returned, and the bus id is taken out of `imported`. -/
  | leave

def Line.receive (l : Line) (bytes : Bytes) : Line :=
  match l.task with
  | Stage.urbs e c => { l with task := Stage.urbs e (c.step (Step.receive bytes)) }
  | Stage.returned e c => { l with task := Stage.returned e (c.step (Step.receive bytes)) }
  | _ => { l with input := l.input ++ bytes }

def Line.readFails (l : Line) : Line :=
  match l.task with
  | Stage.header => { l with task := Stage.ended }
  | Stage.busid => { l with task := Stage.ended }
  | _ => l

def isReceive : Step -> Bool
  | Step.receive _ => true
  | _ => false

def Line.serve (l : Line) (st : Step) : Line :=
  match l.task with
  | Stage.urbs e c => if isReceive st then l else { l with task := Stage.urbs e (c.step st) }
  | _ => l

def Line.leave (imported : List String) (l : Line) : List String × Line :=
  match l.task with
  | Stage.urbs e c =>
      if c.returns then
        (strike imported e.busid, { l with task := Stage.returned e c })
      else
        (imported, l)
  | _ => (imported, l)

/-- What a task does to `imported` and to its connection. -/
def Line.step (text : Text) (exports : List Export) (imported : List String) (l : Line) :
    LineStep -> List String × Line
  | LineStep.receive bytes => (imported, l.receive bytes)
  | LineStep.readFails => (imported, l.readFails)
  | LineStep.read => l.read text exports imported
  | LineStep.write => (imported, l.write exports)
  | LineStep.writeFails n => l.writeFails exports imported n
  | LineStep.serve st => (imported, l.serve st)
  | LineStep.leave => l.leave imported

structure Listener where
  exports : List Export
  imported : List String
  /-- The connections in the order in which they were accepted. -/
  lines : List Line

def Listener.start (exports : List Export) : Listener where
  exports := exports
  imported := []
  lines := []

inductive ListenerStep where
  | accept
  | line (i : Nat) (st : LineStep)

def Listener.step (text : Text) (s : Listener) : ListenerStep -> Listener
  | ListenerStep.accept => { s with lines := s.lines ++ [Line.start] }
  | ListenerStep.line i st =>
      match s.lines[i]? with
      | some l =>
          { s with
            imported := (l.step text s.exports s.imported st).1
            lines := s.lines.set i (l.step text s.exports s.imported st).2 }
      | none => s

/-!
# Moves
-/

theorem findExport_busid {exports : List Export} {busid : String} {e : Export}
    (h : findExport exports busid = some e) : e.busid = busid := by
  have hfound := List.find?_some h
  simpa using hfound

def Stage.free : Stage -> Bool
  | granted _ => false
  | urbs _ _ => false
  | _ => true

/-- What a step does to `imported` and to its task. -/
inductive Stage.Moves (exports : List Export) :
    List String -> Stage -> List String -> Stage -> Prop where
  | stay {imported : List String} {task : Stage} : Moves exports imported task imported task
  | passes {imported : List String} {task task' : Stage} : task.free = true ->
      task'.free = true -> Moves exports imported task imported task'
  | grants {imported : List String} {task : Stage} {e : Export} : task.free = true ->
      findExport exports e.busid = some e -> e.busid ∉ imported ->
      Moves exports imported task (imported ++ [e.busid]) (granted e)
  | begins {imported : List String} {e : Export} {input : Bytes} :
      Moves exports imported (granted e) imported
        (urbs e { Connection.start e.devid e.endpoints with input := input })
  | serves {imported : List String} {e : Export} {c : Connection} {st : Step} :
      Moves exports imported (urbs e c) imported (urbs e (c.step st))
  | fails {imported : List String} {e : Export} :
      Moves exports imported (granted e) (strike imported e.busid) ended
  | returns {imported : List String} {e : Export} {c : Connection} :
      Moves exports imported (urbs e c) (strike imported e.busid) (returned e c)

theorem Line.request_free (l : Line) (header : Bytes) :
    (l.request header).task.free = true := by
  unfold Line.request
  dsimp only
  split
  · rfl
  · split
    · rfl
    · rfl

theorem Line.import_moves (exports : List Export) (imported : List String) {l : Line}
    (hfree : l.task.free = true) (busid : String) :
    Stage.Moves exports imported l.task (l.import exports imported busid).1
      (l.import exports imported busid).2.task := by
  unfold Line.import
  dsimp only
  split
  · rename_i e hfind
    split
    · exact Stage.Moves.passes hfree rfl
    · rename_i hnew
      have hbusid := findExport_busid hfind
      subst hbusid
      exact Stage.Moves.grants hfree hfind hnew
  · exact Stage.Moves.passes hfree rfl

theorem Line.read_moves (text : Text) (exports : List Export) (imported : List String)
    (l : Line) :
    Stage.Moves exports imported l.task (l.read text exports imported).1
      (l.read text exports imported).2.task := by
  unfold Line.read
  split
  · rename_i htask
    split
    · apply Stage.Moves.passes
      · rw [htask]
        rfl
      · exact Line.request_free _ _
    · exact Stage.Moves.stay
  · rename_i htask
    split
    · rename_i field rest _
      have hfree : l.task.free = true := by
        rw [htask]
        rfl
      exact Line.import_moves exports imported (l := { l with input := rest }) hfree _
    · exact Stage.Moves.stay
  · exact Stage.Moves.stay

theorem Line.writeFails_moves (exports : List Export) (imported : List String) (l : Line)
    (n : Nat) :
    Stage.Moves exports imported l.task (l.writeFails exports imported n).1
      (l.writeFails exports imported n).2.task := by
  cases htask : l.task with
  | granted e =>
      simp only [Line.writeFails, Line.reply, htask]
      split
      · exact Stage.Moves.fails
      · rw [htask]
        exact Stage.Moves.stay
  | devlist =>
      simp only [Line.writeFails, Line.reply, htask]
      split
      · exact Stage.Moves.passes rfl rfl
      · rw [htask]
        exact Stage.Moves.stay
  | refused =>
      simp only [Line.writeFails, Line.reply, htask]
      split
      · exact Stage.Moves.passes rfl rfl
      · rw [htask]
        exact Stage.Moves.stay
  | _ =>
      simp only [Line.writeFails, Line.reply, htask]
      exact Stage.Moves.stay

theorem Line.leave_moves (exports : List Export) (imported : List String) (l : Line) :
    Stage.Moves exports imported l.task (l.leave imported).1 (l.leave imported).2.task := by
  cases htask : l.task with
  | urbs e c =>
      simp only [Line.leave, htask]
      split
      · exact Stage.Moves.returns
      · rw [htask]
        exact Stage.Moves.stay
  | _ =>
      simp only [Line.leave, htask]
      exact Stage.Moves.stay

/-- All that a step can do; what holds of every run is derived from it. -/
theorem Line.step_moves (text : Text) (exports : List Export) (imported : List String)
    (l : Line) (st : LineStep) :
    Stage.Moves exports imported l.task (l.step text exports imported st).1
      (l.step text exports imported st).2.task := by
  cases st with
  | receive bytes =>
      cases htask : l.task with
      | urbs e c =>
          simp only [Line.step, Line.receive, htask]
          exact Stage.Moves.serves
      | returned e c =>
          simp only [Line.step, Line.receive, htask]
          exact Stage.Moves.passes rfl rfl
      | _ =>
          simp only [Line.step, Line.receive, htask]
          exact Stage.Moves.stay
  | readFails =>
      cases htask : l.task with
      | header =>
          simp only [Line.step, Line.readFails, htask]
          exact Stage.Moves.passes rfl rfl
      | busid =>
          simp only [Line.step, Line.readFails, htask]
          exact Stage.Moves.passes rfl rfl
      | _ =>
          simp only [Line.step, Line.readFails, htask]
          exact Stage.Moves.stay
  | read => exact Line.read_moves text exports imported l
  | write =>
      cases htask : l.task with
      | devlist =>
          simp only [Line.step, Line.write, htask]
          exact Stage.Moves.passes rfl rfl
      | granted e =>
          simp only [Line.step, Line.write, htask]
          exact Stage.Moves.begins
      | refused =>
          simp only [Line.step, Line.write, htask]
          exact Stage.Moves.passes rfl rfl
      | _ =>
          simp only [Line.step, Line.write, htask]
          exact Stage.Moves.stay
  | writeFails n => exact Line.writeFails_moves exports imported l n
  | serve st =>
      cases htask : l.task with
      | urbs e c =>
          simp only [Line.step, Line.serve, htask]
          split
          · rw [htask]
            exact Stage.Moves.stay
          · exact Stage.Moves.serves
      | _ =>
          simp only [Line.step, Line.serve, htask]
          exact Stage.Moves.stay
  | leave => exact Line.leave_moves exports imported l

/-!
# What a connection holds
-/

def Line.holds (l : Line) : Option String :=
  match l.task with
  | Stage.granted e => some e.busid
  | Stage.urbs e _ => some e.busid
  | _ => none

/-- What a step does to `imported` and to what its connection holds. -/
inductive Held : List String -> Option String -> List String -> Option String -> Prop where
  | stay {imported : List String} {held : Option String} : Held imported held imported held
  | grant {imported : List String} {busid : String} :
      busid ∉ imported -> Held imported none (imported ++ [busid]) (some busid)
  | release {imported : List String} {busid : String} :
      Held imported (some busid) (strike imported busid) none

theorem Line.holds_of_free {l : Line} (h : l.task.free = true) : l.holds = none := by
  cases htask : l.task with
  | granted e =>
      rw [htask] at h
      cases h
  | urbs e c =>
      rw [htask] at h
      cases h
  | _ => simp only [Line.holds, htask]

theorem Stage.Moves.held {exports : List Export} {imported imported' : List String}
    {l l' : Line} (h : Stage.Moves exports imported l.task imported' l'.task) :
    Held imported l.holds imported' l'.holds := by
  generalize htask : l.task = task at h
  generalize htask' : l'.task = task' at h
  cases h with
  | stay =>
      simp only [Line.holds, htask, htask']
      exact Held.stay
  | passes hfree hfree' =>
      rw [Line.holds_of_free (htask ▸ hfree), Line.holds_of_free (htask' ▸ hfree')]
      exact Held.stay
  | grants hfree hfind hnew =>
      rw [Line.holds_of_free (htask ▸ hfree)]
      simp only [Line.holds, htask']
      exact Held.grant hnew
  | begins =>
      simp only [Line.holds, htask, htask']
      exact Held.stay
  | serves =>
      simp only [Line.holds, htask, htask']
      exact Held.stay
  | fails =>
      simp only [Line.holds, htask, htask']
      exact Held.release
  | returns =>
      simp only [Line.holds, htask, htask']
      exact Held.release

/-!
# All connections
-/

/-- `imported` has what the connections hold. -/
def Listener.Exclusive (s : Listener) : Prop :=
  Leased s.imported (s.lines.map Line.holds)

theorem Listener.start_exclusive (exports : List Export) :
    (Listener.start exports).Exclusive :=
  Leased.start

theorem Listener.step_exports (text : Text) (s : Listener) (st : ListenerStep) :
    (s.step text st).exports = s.exports := by
  cases st with
  | accept => rfl
  | line i st =>
      simp only [Listener.step]
      split <;> rfl

theorem Listener.Exclusive.step {s : Listener} (h : s.Exclusive) (text : Text)
    (st : ListenerStep) : (s.step text st).Exclusive := by
  cases st with
  | accept =>
      show Leased s.imported ((s.lines ++ [Line.start]).map Line.holds)
      rw [List.map_append]
      exact h.join
  | line i st =>
      cases hline : s.lines[i]? with
      | none =>
          simp only [Listener.step, hline]
          exact h
      | some l =>
          have hparty : (s.lines.map Line.holds)[i]? = some l.holds := by
            rw [List.getElem?_map, hline, Option.map_some]
          simp only [Listener.step, hline]
          show Leased _ ((s.lines.set i _).map Line.holds)
          rw [List.map_set]
          have hheld := (Line.step_moves text s.exports s.imported l st).held
          generalize l.step text s.exports s.imported st = r at hheld ⊢
          rcases r with ⟨imported, l'⟩
          dsimp only at hheld ⊢
          generalize hbefore : l.holds = before at hheld hparty
          generalize l'.holds = behind at hheld ⊢
          cases hheld with
          | stay =>
              rw [set_same_index hparty]
              exact h
          | grant hfree => exact h.grant hparty hfree
          | release => exact h.release hparty

theorem Listener.mem_step {text : Text} {s : Listener} {st : ListenerStep} {l : Line}
    (hl : l ∈ (s.step text st).lines) :
    l ∈ s.lines ∨ l = Line.start ∨
      exists k m, k ∈ s.lines ∧ l = (k.step text s.exports s.imported m).2 := by
  cases st with
  | accept =>
      rcases List.mem_append.mp hl with hold | hnew
      · exact Or.inl hold
      · exact Or.inr (Or.inl (List.mem_singleton.mp hnew))
  | line i st =>
      simp only [Listener.step] at hl
      split at hl
      · rename_i k hline
        rcases List.mem_or_eq_of_mem_set hl with hold | hmoved
        · exact Or.inl hold
        · exact Or.inr (Or.inr ⟨k, st, List.mem_of_getElem? hline, hmoved⟩)
      · exact Or.inl hl

/-- The states of a server, whatever its clients do and in whatever order. -/
def Listener.after (text : Text) (exports : List Export) (steps : List ListenerStep) :
    Listener :=
  steps.foldl (Listener.step text) (Listener.start exports)

end Server
end UsbIp
