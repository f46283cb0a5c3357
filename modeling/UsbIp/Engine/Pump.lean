import UsbIp.Engine.State

/-!
# The pump

The operations of `engine.rs` in its own words.  The loop of `pump` gets a
number of rounds; a loop that needs more has not returned.  `submit` completes
the head message and pumps again if the session refuses a URB for it, so it
gets the pump as an argument.
-/

namespace UsbIp
namespace Engine

open Foundation
open Protocol
open Hci
open Client (SubmitRequest TransferError TransferResult Session)

variable {R : Type} [Ring R]

/-!
# Calls into the session
-/

/-- Other tasks run before the engine gets the session lock. -/
def acquire (e : Engine R) : Engine R :=
  { e with
    session := (e.schedule.headD []).foldl Session.step e.session
    schedule := e.schedule.tail }

def unlink (e : Engine R) (seqnum : UInt32) : Engine R :=
  if e.stuck then
    e
  else
    let e := e.acquire
    match e.session.shared.unlink seqnum with
    | some shared => { e with session := { e.session with shared := shared } }
    | none => { e with stuck := true }

def unlinkAll (e : Engine R) (inFlight : List InFlight) : Engine R :=
  inFlight.foldl (fun e f => if f.result.isNone then e.unlink f.seqnum else e) e

/-!
# Completions
-/

def errorStatus : TransferError -> Status
  | .disconnected _ => Status.offline
  | .unlinked _ => Status.endpointStopped
  | .invalid _ => Status.error

def Core.complete (c : Core R) (key : EndpointKey) (ep : Endpoint R)
    (origin : Option InFlight) (status : Status) (data : Bytes) (length : UInt32) :
    Core R :=
  let outcome := Ring.complete ep.ring status data length
  (c.put key { ep with ring := outcome.1 }).note (Event.completed
    { key, ring := ep.ring, origin, status, data, length, accepted := outcome.2.isOk })

def complete (e : Engine R) (key : EndpointKey) (ep : Endpoint R)
    (origin : Option InFlight) (status : Status) (data : Bytes) (length : UInt32) :
    Engine R × Bool :=
  ({ e with toCore := e.toCore.complete key ep origin status data length },
    (Ring.complete ep.ring status data length).2.isOk)

/-- Status, data and length that a result stands for. -/
def InFlight.outcome (f : InFlight) : TransferResult -> Status × Bytes × UInt32
  | .ok ret =>
      let packet := ret.isoPackets.head?
      let (status, actual) :=
        match f.stage, packet with
        -- Linux reports isochronous results per packet; the URB total may be 0.
        | .isochronous, some p => (Status.fromUrbStatus p.status, p.actualLength)
        | _, _ => (Status.fromUrbStatus ret.status, ret.actualLength)
      let length := min actual f.length
      (status, ret.data.take length.toNat, length)
  | .error e => (errorStatus e, [], 0)

def Setup.isGetConfiguration (s : Setup) : Bool :=
  s.bytes[0] == 0x80 && s.bytes[1] == 0x06 && s.bytes[3] == 2

/-- Hides UAS in a configuration: the data, the endpoint, and whether it did. -/
def hideConfig (ep : Endpoint R) (data : Bytes) : Bytes × Endpoint R × Bool :=
  match hideUas data with
  | (data, some totals) => (data, { ep with hiddenConfig := some totals }, true)
  | (data, none) =>
      match ep.hiddenConfig with
      | some (original, hidden) =>
          -- A read too short to reach the interfaces must still report the length
          -- the full read returns, or macOS gives up on the device.
          if 4 ≤ data.length ∧ (data.drop 2).take 2 = leBytes16 original then
            (setTotalLength data hidden, ep, false)
          else
            (data, ep, false)
      | none => (data, ep, false)

inductive Flow where
  | continue
  | stop
  | offline
deriving DecidableEq, Repr

/-- What the stage of a finished URB does to the endpoint and to its data. -/
def applyStage (ep : Endpoint R) (stage : Stage) (data : Bytes) (length : UInt32) :
    Endpoint R × Bytes × UInt32 × Bool :=
  match stage with
  | .controlData =>
      let setup := ep.setup.map fun s => { s with dataDone := true }
      let ep := { ep with setup := setup }
      if setup.any Setup.isGetConfiguration then
        let (data, ep, hidden) := hideConfig ep data
        (ep, data, min length (UInt32.ofNat data.length), hidden)
      else
        (ep, data, length, false)
  | .controlStatus => ({ ep with setup := none }, data, length, false)
  | .normal | .isochronous => (ep, data, length, false)

def apply (e : Engine R) (key : EndpointKey) (ep : Endpoint R) (flight : InFlight)
    (result : TransferResult) : Engine R × Flow :=
  let (status, data, length) := flight.outcome result
  let data := if flight.direction = Direction.in then data else []
  let (ep, data, length, hidden) := applyStage ep flight.stage data length
  let e := { e with uasWarned := e.uasWarned || hidden }
  match e.complete key ep (some flight) status data length with
  | (e, false) => (e, Flow.stop)
  | (e, true) => (e, if status = Status.offline then Flow.offline else Flow.continue)

/-!
# Requests
-/

inductive Next where
  | continue
  | stop
  | submit (req : SubmitRequest) (stage : Stage)

def setupDirection (setup : Vector UInt8 8) : Direction :=
  if setup[0] &&& 0x80 ≠ 0 then Direction.in else Direction.out

def controlRequest (ep : Endpoint R) (setup : Vector UInt8 8) (length : UInt32) :
    SubmitRequest :=
  let direction := setupDirection setup
  let req := { SubmitRequest.new 0 direction length with setup := setup }
  if direction = Direction.out then
    { req with data := Ring.read ep.ring 0 length.toNat }
  else
    req

def isControl (key : EndpointKey) : Bool :=
  key.2 &&& 0x7f == 0

def dataRequest (speed : Speed) (ep : Endpoint R) (key : EndpointKey) (ahead : Nat)
    (transfer : Transfer) : Option (SubmitRequest × Stage) :=
  let direction := Direction.ofEndpoint key.2
  let interval := ep.info.urbInterval speed
  match transfer with
  | .normal length =>
      let req := { SubmitRequest.new key.2 direction length with interval := interval }
      let req :=
        if direction = Direction.out then
          { req with data := Ring.read ep.ring ahead length.toNat }
        else
          req
      some (req, Stage.normal)
  | .isochronous length frame =>
      let req := SubmitRequest.new key.2 direction length
      let req :=
        if direction = Direction.out then
          { req with data := Ring.read ep.ring ahead length.toNat }
        else
          req
      let req :=
        match frame with
        | some frame => { req with startFrame := frame.toUInt32 }
        | none => { req with transferFlags := req.transferFlags ||| urbIsoAsap }
      some (
        { req with
          interval := max interval 1
          isoPackets := [{ offset := 0, length := length, actualLength := 0, status := 0 }] },
        Stage.isochronous)
  | _ => none

def completeHead (e : Engine R) (key : EndpointKey) (ep : Endpoint R) (status : Status) :
    Engine R × Next :=
  match e.complete key ep none status [] 0 with
  | (e, true) => (e, Next.continue)
  | (e, false) => (e, Next.stop)

def wLength (setup : Vector UInt8 8) : UInt16 :=
  le16 setup[6] setup[7]

/-- Handles the head message when nothing is in flight. -/
def headRequest (e : Engine R) (key : EndpointKey) (ep : Endpoint R)
    (transfer : Transfer) : Engine R × Next :=
  match transfer, isControl key with
  | .setup bytes, true =>
      e.completeHead key { ep with setup := some { bytes := bytes, dataDone := false } }
        Status.success
  | .normal length, true =>
      match ep.setup with
      | some { bytes, dataDone := false } =>
          let length := min length (wLength bytes).toUInt32
          (e, Next.submit (controlRequest ep bytes length) Stage.controlData)
      | _ => e.completeHead key ep Status.error
  | .status, true =>
      match ep.setup with
      | some { bytes, dataDone := false } =>
          (e, Next.submit (controlRequest ep bytes 0) Stage.controlStatus)
      | _ => e.completeHead key { ep with setup := none } Status.success
  | .link needsResponse, _ =>
      if needsResponse then e.completeHead key ep Status.success else (e, Next.stop)
  | .normal length, false =>
      match dataRequest e.session.device.speed ep key 0 (.normal length) with
      | some (req, stage) => (e, Next.submit req stage)
      | none => (e, Next.stop)
  | .isochronous length frame, false =>
      match dataRequest e.session.device.speed ep key 0 (.isochronous length frame) with
      | some (req, stage) => (e, Next.submit req stage)
      | none => (e, Next.stop)
  | _, _ => e.completeHead key ep Status.error

/-!
# Submitting
-/

def newFlight (token : Nat) (message : UInt64) (req : SubmitRequest) (stage : Stage)
    (seqnum : UInt32) : InFlight where
  token := token
  message := message
  stage := stage
  direction := req.direction
  length := req.length
  seqnum := seqnum
  unlinking := false
  result := none

/-- A URB is put in flight, and a task waits for its reply. -/
def Core.push (c : Core R) (key : EndpointKey) (ep : Endpoint R) (flight : InFlight)
    (reply : Nat) (cmd : CmdSubmit) : Core R :=
  let task : Task := { reply, key, token := c.nextToken }
  let core : Core R :=
    { c with nextToken := c.nextToken + 1, tasks := c.tasks ++ [task] }
  (core.put key { ep with inFlight := ep.inFlight ++ [flight] }).note (Event.submitted
    { key, ahead := ep.inFlight.length, ring := ep.ring, flight, reply, cmd })

/-- Returns whether a URB is now in flight for the message. -/
def submit (pump : Engine R -> Engine R) (e : Engine R) (key : EndpointKey)
    (message : UInt64) (req : SubmitRequest) (stage : Stage) : Engine R × Bool :=
  match e.endpoints.lookup key with
  | none => (e, false)
  | some ep =>
      let e := e.acquire
      match e.session.shared.submit req with
      | none => ({ e with stuck := true }, false)
      | some (.ok (seqnum, reply), shared) =>
          let flight := newFlight e.nextToken message req stage seqnum
          ({ e with
              session := { e.session with shared := shared }
              toCore := e.toCore.push key ep flight reply
                (req.command seqnum e.session.shared.devid) },
            true)
      | some (.error err, _) =>
          -- Only the head can be completed; a failure further ahead is retried later.
          if ep.inFlight.isEmpty then
            let status := errorStatus err
            match e.complete key ep none status [] 0 with
            | (e, accepted) =>
                (if accepted ∧ status ≠ Status.offline then pump e else e, false)
          else
            (e, false)

def fillLoop (pump : Engine R -> Engine R) (key : EndpointKey) :
    Nat -> Engine R -> Engine R
  | 0, e => e
  | rounds + 1, e =>
      match e.endpoints.lookup key with
      | none => e
      | some ep =>
          let ahead := ep.inFlight.length
          if ahead = 0 ∨ depth ep.info.kind ≤ ahead ∨
              ep.inFlight.any (fun f => f.result.isSome) then
            e
          else
            match Ring.peek ep.ring ahead with
            | none => e
            | some (message, transfer) =>
                match dataRequest e.session.device.speed ep key ahead transfer with
                | none => e
                | some (req, stage) =>
                    match e.submit pump key message req stage with
                    | (e, true) => fillLoop pump key rounds e
                    | (e, false) => e

/--
Submits URBs for messages beyond those already in flight, up to the endpoint's
depth. No endpoint is deeper than 32, so 32 rounds are always enough.
-/
def fill (pump : Engine R -> Engine R) (e : Engine R) (key : EndpointKey) : Engine R :=
  fillLoop pump key 32 e

/-!
# The loop
-/

def dropStale (e : Engine R) (key : EndpointKey) (ep : Endpoint R) (cause : Cause) :
    Engine R :=
  let e :=
    { e with
      toCore := (e.toCore.put key { ep with inFlight := [] }).note
        (Event.discarded key ep.inFlight cause) }
  e.unlinkAll ep.inFlight

/--
The loop of `pump`, for a number of rounds. Once the connection is gone,
finished URBs are still delivered but nothing new is sent.
-/
def pumpLoop : Nat -> Bool -> EndpointKey -> Engine R -> Engine R
  | 0, _, _, e => { e with stuck := true }
  | rounds + 1, offline, key, e =>
      if e.stuck then
        e
      else
        match e.endpoints.lookup key with
        | none => e
        | some ep =>
            if Ring.active ep.ring = false then
              e
            else
              match ep.inFlight with
              | front :: rest =>
                  if front.message ≠ (Ring.current ep.ring).1 then
                    pumpLoop rounds offline key (e.dropStale key ep Cause.stale)
                  else
                    match front.result with
                    | some result =>
                        match e.apply key { ep with inFlight := rest } front result with
                        | (e, Flow.continue) => pumpLoop rounds offline key e
                        | (e, Flow.offline) => pumpLoop rounds true key e
                        | (e, Flow.stop) => e
                    | none =>
                        if offline then e else e.fill (pumpLoop rounds false key) key
              | [] =>
                  match (Ring.current ep.ring).2 with
                  | none => e
                  | some transfer =>
                      if offline then
                        e
                      else
                        match e.headRequest key ep transfer with
                        | (e, Next.continue) => pumpLoop rounds offline key e
                        | (e, Next.stop) => e
                        | (e, Next.submit req stage) =>
                            match e.submit (pumpLoop rounds false key) key
                                (Ring.current ep.ring).1 req stage with
                            | (e, true) => e.fill (pumpLoop rounds false key) key
                            | (e, false) => e

def pump (rounds : Nat) (e : Engine R) (key : EndpointKey) : Engine R :=
  pumpLoop rounds false key e

/-!
# The loops with their calls left open
-/

def fillCode (fill pump : Engine R -> Engine R) (key : EndpointKey) (e : Engine R) :
    Engine R :=
  match e.endpoints.lookup key with
  | none => e
  | some ep =>
      let ahead := ep.inFlight.length
      if ahead = 0 ∨ depth ep.info.kind ≤ ahead ∨
          ep.inFlight.any (fun f => f.result.isSome) then
        e
      else
        match Ring.peek ep.ring ahead with
        | none => e
        | some (message, transfer) =>
            match dataRequest e.session.device.speed ep key ahead transfer with
            | none => e
            | some (req, stage) =>
                match e.submit pump key message req stage with
                | (e, true) => fill e
                | (e, false) => e

/-- The loop of `pump`, which goes on with `pump` and calls `fill`. -/
def pumpCode (pump : Bool -> Engine R -> Engine R) (fill : Engine R -> Engine R)
    (offline : Bool) (key : EndpointKey) (e : Engine R) : Engine R :=
  if e.stuck then
    e
  else
    match e.endpoints.lookup key with
    | none => e
    | some ep =>
        if Ring.active ep.ring = false then
          e
        else
          match ep.inFlight with
          | front :: rest =>
              if front.message ≠ (Ring.current ep.ring).1 then
                pump offline (e.dropStale key ep Cause.stale)
              else
                match front.result with
                | some result =>
                    match e.apply key { ep with inFlight := rest } front result with
                    | (e, Flow.continue) => pump offline e
                    | (e, Flow.offline) => pump true e
                    | (e, Flow.stop) => e
                | none => if offline then e else fill e
          | [] =>
              match (Ring.current ep.ring).2 with
              | none => e
              | some transfer =>
                  if offline then
                    e
                  else
                    match e.headRequest key ep transfer with
                    | (e, Next.continue) => pump offline e
                    | (e, Next.stop) => e
                    | (e, Next.submit req stage) =>
                        match e.submit (pump false) key (Ring.current ep.ring).1 req
                            stage with
                        | (e, true) => fill e
                        | (e, false) => e

theorem fillLoop_succ (pump : Engine R -> Engine R) (key : EndpointKey) (rounds : Nat)
    (e : Engine R) :
    fillLoop pump key (rounds + 1) e = fillCode (fillLoop pump key rounds) pump key e := rfl

theorem pumpLoop_succ (rounds : Nat) (offline : Bool) (key : EndpointKey) (e : Engine R) :
    pumpLoop (rounds + 1) offline key e =
      pumpCode (fun offline e => pumpLoop rounds offline key e)
        (fun e => e.fill (pumpLoop rounds false key) key) offline key e := rfl

end Engine
end UsbIp
