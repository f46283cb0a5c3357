import UsbIp.Engine.Pump

/-!
# Runs of the engine

The operations the host controller calls, the callbacks of the spawned tasks,
the steps of the session's own tasks and what the host does to a ring.  A run is
any list of them.  An operation that is not possible in a state leaves it alone,
and so does every operation once the engine is stuck.
-/

namespace UsbIp
namespace Engine

open Foundation
open Protocol
open Hci
open Client (TransferError TransferResult Session)

variable {R : Type} [Ring R]

/-!
# Endpoints come and go
-/

def flightsOf (c : Core R) (key : EndpointKey) : List InFlight :=
  ((c.endpoints.lookup key).map Endpoint.inFlight).getD []

def putNew (c : Core R) (key : EndpointKey) (info : EndpointInfo) (ring : R) : Core R :=
  let ep : Endpoint R :=
    { ring, info, inFlight := [], setup := none, hiddenConfig := none }
  ((c.put key ep).note (Event.discarded key (flightsOf c key) Cause.replaced)).note
    (Event.added key)

def addEndpoint (e : Engine R) (key : EndpointKey) (info : EndpointInfo) (ring : R) :
    Engine R :=
  let old := flightsOf e.toCore key
  let e := { e with toCore := putNew e.toCore key info ring }
  e.unlinkAll old

def updateEndpoint (e : Engine R) (key : EndpointKey) (info : EndpointInfo) : Engine R :=
  match e.endpoints.lookup key with
  | none => e
  | some ep => { e with toCore := e.toCore.put key { ep with info := info } }

/-- Takes an endpoint out of the table; its URBs are still to be unlinked. -/
def takeOut (c : Core R) (key : EndpointKey) : Core R :=
  match c.endpoints.lookup key with
  | none => c
  | some ep =>
      (Core.note { c with endpoints := c.endpoints.erase key }
        (Event.discarded key ep.inFlight Cause.removed)).note (Event.removed key)

def removeAll (e : Engine R) (keys : List EndpointKey) : Engine R :=
  let removed := keys.flatMap (flightsOf e.toCore)
  let e := { e with toCore := keys.foldl takeOut e.toCore }
  e.unlinkAll removed

def removeEndpoint (e : Engine R) (key : EndpointKey) : Engine R :=
  e.removeAll [key]

/-- The keys of a device, in the order in which the table happens to list them. -/
def removeDevice (e : Engine R) (device : UInt8) (keys : List EndpointKey) : Engine R :=
  if keys.isPerm (e.endpoints.keys.filter fun k => k.1 = device) then
    e.removeAll keys
  else
    e

/-!
# Discarding and pausing
-/

def resetEndpoint (e : Engine R) (key : EndpointKey) : Engine R :=
  match e.endpoints.lookup key with
  | none => e
  | some ep =>
      let e :=
        { e with
          toCore := ((e.toCore.put key { ep with setup := none, inFlight := [] }).note
            (Event.discarded key ep.inFlight Cause.reset)).note (Event.reset key) }
      e.unlinkAll ep.inFlight

/-- A read that a pause unlinks. -/
def InFlight.pausable (f : InFlight) : Bool :=
  f.result.isNone && !f.unlinking

def pauseEndpoint (e : Engine R) (key : EndpointKey) : Engine R :=
  if key.2 &&& 0x80 = 0 ∨ key.2 &&& 0x7f = 0 then
    e
  else
    match e.endpoints.lookup key with
    | none => e
    | some ep =>
        let inFlight :=
          ep.inFlight.map fun f => if f.pausable then { f with unlinking := true } else f
        let e := { e with toCore := e.toCore.put key { ep with inFlight := inFlight } }
        e.unlinkAll (ep.inFlight.filter InFlight.pausable)

def syncEndpoint (e : Engine R) (key : EndpointKey) : Engine R :=
  match e.endpoints.lookup key with
  | none => e
  | some ep =>
      match ep.inFlight with
      | front :: _ =>
          if front.message ≠ (Ring.current ep.ring).1 then
            e.dropStale key ep Cause.synced
          else
            e
      | [] => e

/-!
# Replies
-/

def splitAtToken (token : Nat) :
    List InFlight -> Option (List InFlight × InFlight × List InFlight)
  | [] => none
  | f :: rest =>
      if f.token = token then
        some ([], f, rest)
      else
        match splitAtToken token rest with
        | some (front, g, back) => some (f :: front, g, back)
        | none => none

def isUnlinked : TransferResult -> Bool
  | .error (.unlinked _) => true
  | _ => false

/-- What `finish` does to the queue before it pumps. -/
def record (e : Engine R) (key : EndpointKey) (ep : Endpoint R) (front : List InFlight)
    (f : InFlight) (back : List InFlight) (result : TransferResult) : Engine R :=
  if f.unlinking ∧ isUnlinked result then
    -- Later reads may have run ahead of this one; all of them start again from here.
    let e :=
      { e with
        toCore := (e.toCore.put key { ep with inFlight := front }).note
          (Event.discarded key back Cause.unlinked) }
    e.unlinkAll back
  else
    let inFlight := front ++ { f with result := some result } :: back
    { e with toCore := e.toCore.put key { ep with inFlight := inFlight } }

def finish (rounds : Nat) (e : Engine R) (key : EndpointKey) (token : Nat)
    (result : TransferResult) : Engine R :=
  let e := { e with toCore := e.toCore.note (Event.finished key token result) }
  match e.endpoints.lookup key with
  | none => e
  | some ep =>
      match splitAtToken token ep.inFlight with
      | none => e
      | some (front, f, back) => (e.record key ep front f back result).pump rounds key

def arrived (e : Engine R) (reply : Nat) : Option (Task × TransferResult) :=
  match e.tasks.find? (fun t => t.reply = reply),
      e.session.shared.sent.find? (fun x => x.1 = reply) with
  | some task, some (_, result) => some (task, result)
  | _, _ => none

/-- A task whose reply has arrived calls `finish`, and ends. -/
def deliver (rounds : Nat) (e : Engine R) (reply : Nat) : Engine R :=
  match e.arrived reply with
  | some (task, result) =>
      let e := { e with tasks := e.tasks.filter fun t => t.reply ≠ reply }
      e.finish rounds task.key task.token result
  | none => e

/-!
# Steps
-/

inductive Op (R : Type) where
  | addEndpoint (key : EndpointKey) (info : EndpointInfo) (ring : R)
  | updateEndpoint (key : EndpointKey) (info : EndpointInfo)
  | removeEndpoint (key : EndpointKey)
  | removeDevice (device : UInt8) (keys : List EndpointKey)
  | resetEndpoint (key : EndpointKey)
  | pauseEndpoint (key : EndpointKey)
  | syncEndpoint (key : EndpointKey)
  | doorbell (key : EndpointKey)
  /-- The task that waits for a reply gets it. -/
  | deliver (reply : Nat)
  /-- A task or thread that shares the session takes a step. -/
  | session (st : Client.Step)
  /-- The host changes the ring of an endpoint. -/
  | host (key : EndpointKey) (ring : R)

/-- The host owns the ring; the engine only sees what it looks like afterwards. -/
def hostRing (e : Engine R) (key : EndpointKey) (ring : R) : Engine R :=
  match e.endpoints.lookup key with
  | none => e
  | some ep => { e with toCore := e.toCore.put key { ep with ring := ring } }

def perform (rounds : Nat) (e : Engine R) : Op R -> Engine R
  | Op.addEndpoint key info ring => e.addEndpoint key info ring
  | Op.updateEndpoint key info => e.updateEndpoint key info
  | Op.removeEndpoint key => e.removeEndpoint key
  | Op.removeDevice device keys => e.removeDevice device keys
  | Op.resetEndpoint key => e.resetEndpoint key
  | Op.pauseEndpoint key => e.pauseEndpoint key
  | Op.syncEndpoint key => e.syncEndpoint key
  | Op.doorbell key => e.pump rounds key
  | Op.deliver reply => e.deliver rounds reply
  | Op.session st => { e with session := e.session.step st }
  | Op.host key ring => e.hostRing key ring

def step (rounds : Nat) (e : Engine R) (op : Op R) : Engine R :=
  if e.stuck then e else e.perform rounds op

/--
The state after a run, for engines whose pump loops run so many rounds.  Tokens do
not wrap here, so it stands for runs that submit fewer than `2^64` URBs.
-/
def run (rounds : Nat) (e : Engine R) (ops : List (Op R)) : Engine R :=
  ops.foldl (step rounds) e

end Engine
end UsbIp
