import UsbIp.Engine.Conduct
import UsbIp.Engine.Control
import UsbIp.Engine.Lengths
import UsbIp.Engine.Origins
import UsbIp.Link.System

/-!
# What a host may ask for

What the server has to complain about depends on what the host puts into its
rings and on what it says about its endpoints.  A host that describes periodic
endpoints as the device does, and whose messages are no longer than a server
takes, is enough: what the engine makes of them is in order.
-/

namespace UsbIp
namespace Link

open Foundation
open Protocol
open Hci
open Client (Shared SubmitRequest Session ExportedDevice)
open Server (Connection Outcome urbOf attributesOf)
open Engine (EndpointKey Endpoint Stage Policy Op)
open Relation (ReflTransGen)

/-!
# The policy
-/

/-- The address under which the server knows an endpoint: its direction and its number. -/
def addressOf (key : EndpointKey) : UInt8 :=
  key.2 &&& 0x8f

/-- The host says the same about a periodic endpoint as the device. -/
def Describes (endpoints : List (UInt8 × UInt8)) (key : EndpointKey) (info : EndpointInfo) :
    Prop :=
  forall attributes, attributesOf endpoints (addressOf key) = some attributes ->
    (attributes &&& 3 = 1 -> info.kind = EndpointKind.isochronous) ∧
      (attributes &&& 3 = 3 -> info.kind = EndpointKind.interrupt)

/--
A message of an endpoint: what a control message asks for is bounded by its
setup packet, others are no longer than the server takes, and isochronous
endpoints get isochronous messages.
-/
def Suits (endpoints : List (UInt8 × UInt8)) (key : EndpointKey) (ahead : Nat)
    (transfer : Transfer) : Prop :=
  (Engine.isControl key = true ∧ ahead = 0) ∨
    (transfer.length ≤ Server.maxLength ∧
      forall attributes length, attributesOf endpoints (addressOf key) = some attributes ->
        attributes &&& 3 = 1 -> transfer ≠ Transfer.normal length)

/-- Steps of tasks that share the session: the stream is the connection's. -/
def PoliteStep (endpoints : List (UInt8 × UInt8)) (st : Client.Step) : Prop :=
  isOwn st = true ∧
    forall req, st = Client.Step.submit req ->
      forall n devid, Server.Polite endpoints (req.command n devid)

def hostPolicy (endpoints : List (UInt8 × UInt8)) : Policy where
  step := PoliteStep endpoints
  message := Suits endpoints
  info := Describes endpoints

/-- A device lists no endpoint with number 0. -/
def ListsNoControl (endpoints : List (UInt8 × UInt8)) : Prop :=
  attributesOf endpoints 0 = none ∧ attributesOf endpoints 0x80 = none

instance (endpoints : List (UInt8 × UInt8)) : Decidable (ListsNoControl endpoints) :=
  inferInstanceAs (Decidable (_ ∧ _))

/-!
# What the engine asks for
-/

variable {R : Type} [Engine.Ring R]

theorem toU32_le (direction : Direction) : direction.toU32 ≤ 1 := by
  cases direction <;> decide

theorem ep_le (ep : UInt8) : (ep &&& 0x0f).toUInt32 ≤ 15 := by
  rw [UInt32.le_iff_toNat_le, UInt8.toNat_toUInt32, UInt8.toNat_and]
  exact Nat.and_le_right

theorem number_or_direction (b : BitVec 8) :
    (b &&& 0x0f#8) ||| (if b &&& 0x80#8 ≠ 0#8 then 0x80#8 else 0#8) = b &&& 0x8f#8 := by
  revert b
  decide +kernel

theorem address_of_key {key : EndpointKey} {cmd : CmdSubmit}
    (hep : cmd.ep = (key.2 &&& 0x0f).toUInt32)
    (hdirection : cmd.direction = (Direction.ofEndpoint key.2).toU32) :
    (urbOf cmd).address = addressOf key := by
  have hin : (urbOf cmd).isIn = decide (key.2 &&& 0x80 ≠ 0) := by
    simp only [Server.Urb.isIn, urbOf, hdirection, Direction.ofEndpoint]
    by_cases h : key.2 &&& 0x80 ≠ 0
    · rw [if_pos h, decide_eq_true h]
      rfl
    · rw [if_neg h, decide_eq_false h]
      rfl
  have hnumber : (urbOf cmd).ep.toUInt8 = key.2 &&& 0x0f := by
    simp [urbOf, hep]
  rw [Server.Urb.address, hin, hnumber, addressOf]
  apply UInt8.toBitVec_inj.mp
  have hbits := number_or_direction key.2.toBitVec
  by_cases h : key.2 &&& 0x80 ≠ 0
  · have hb : key.2.toBitVec &&& 0x80#8 ≠ 0#8 := fun heq => h (UInt8.toBitVec_inj.mp heq)
    rw [if_pos hb] at hbits
    rw [decide_eq_true h, if_pos rfl]
    exact hbits
  · have hb : ¬ key.2.toBitVec &&& 0x80#8 ≠ 0#8 := by
      intro hne
      exact hne (congrArg UInt8.toBitVec (not_not.mp h))
    rw [if_neg hb] at hbits
    rw [decide_eq_false h, if_neg Bool.false_ne_true]
    exact hbits

theorem one_shiftLeft_ne_zero {b : UInt32} (h : b.toNat ≤ 15) : (1 : UInt32) <<< b ≠ 0 := by
  intro heq
  have hnat := congrArg UInt32.toNat heq
  rw [UInt32.toNat_shiftLeft, Nat.mod_eq_of_lt (show b.toNat < 32 by omega),
    Nat.shiftLeft_eq] at hnat
  have hle : 2 ^ b.toNat ≤ 2 ^ 15 := Nat.pow_le_pow_right (by decide) h
  have hpos : 0 < 2 ^ b.toNat := Nat.pow_pos (by decide)
  change (1 * 2 ^ b.toNat) % 2 ^ 32 = 0 at hnat
  rw [Nat.mod_eq_of_lt (by omega)] at hnat
  omega

theorem urbInterval_ne_zero {info : EndpointInfo} (speed : Speed)
    (h : info.kind = EndpointKind.isochronous ∨ info.kind = EndpointKind.interrupt) :
    info.urbInterval speed ≠ 0 := by
  have hb : 1 ≤ (max info.bInterval 1).toUInt32.toNat := by
    rw [UInt8.toNat_toUInt32]
    show 1 ≤ (if info.bInterval ≤ 1 then 1 else info.bInterval).toNat
    split
    · decide
    · rename_i hgt
      exact Nat.le_of_lt (UInt8.lt_iff_toNat_lt.mp (UInt8.not_le.mp hgt))
  have hzero : (max info.bInterval 1).toUInt32 ≠ 0 := by
    intro heq
    rw [heq] at hb
    exact absurd hb (by decide)
  have hexponent : (min (max info.bInterval 1).toUInt32 16 - 1).toNat ≤ 15 := by
    generalize (max info.bInterval 1).toUInt32 = b at hb
    show ((if b ≤ 16 then b else 16) - 1).toNat ≤ 15
    split
    · rename_i hle
      have hone : (1 : UInt32) ≤ b := UInt32.le_iff_toNat_le.mpr hb
      rw [UInt32.toNat_sub_of_le _ _ hone]
      have hle : b.toNat ≤ 16 := UInt32.le_iff_toNat_le.mp hle
      change b.toNat - 1 ≤ 15
      omega
    · decide
  have hpower := one_shiftLeft_ne_zero hexponent
  rcases h with h | h
  · cases speed <;> simp only [EndpointInfo.urbInterval, h] <;> exact hpower
  · cases speed <;> simp only [EndpointInfo.urbInterval, h] <;> first | exact hpower | exact hzero

theorem max_one_ne_zero (interval : UInt32) : max interval 1 ≠ 0 := by
  show (if interval ≤ 1 then 1 else interval) ≠ 0
  split
  · decide
  · rename_i hgt
    intro hzero
    rw [hzero] at hgt
    exact hgt (by decide)

theorem periodicFault_eq_none {endpoints : List (UInt8 × UInt8)} {urb : Server.Urb}
    (h : forall attributes, attributesOf endpoints urb.address = some attributes ->
      (attributes &&& 3 = 1 ∨ attributes &&& 3 = 3 -> urb.interval ≠ 0) ∧
        (attributes &&& 3 = 1 -> urb.iso ≠ [])) :
    urb.periodicFault endpoints = none := by
  unfold Server.Urb.periodicFault
  cases hattributes : attributesOf endpoints urb.address with
  | none => rfl
  | some attributes =>
      rcases h attributes hattributes with ⟨hinterval, hiso⟩
      dsimp only
      rw [if_neg fun hzero => hinterval hzero.left hzero.right,
        if_neg fun hempty => hiso hempty.left hempty.right]

theorem dataRequest_polite {endpoints : List (UInt8 × UInt8)} {speed : Speed}
    {key : EndpointKey} {ep : Endpoint R} {ahead : Nat} {transfer : Transfer}
    {req : SubmitRequest} {stage : Stage} (hinfo : Describes endpoints key ep.info)
    (hreq : Engine.dataRequest speed ep key ahead transfer = some (req, stage))
    (hlength : transfer.length ≤ Server.maxLength)
    (hnormal : forall attributes length,
      attributesOf endpoints (addressOf key) = some attributes ->
        attributes &&& 3 = 1 -> transfer ≠ Transfer.normal length)
    (n devid : UInt32) : Server.Polite endpoints (req.command n devid) := by
  have hkind : forall attributes,
      attributesOf endpoints (addressOf key) = some attributes ->
        attributes &&& 3 = 1 ∨ attributes &&& 3 = 3 -> ep.info.urbInterval speed ≠ 0 := by
    intro attributes hattributes hperiodic
    rcases hinfo attributes hattributes with ⟨hiso, hinterrupt⟩
    rcases hperiodic with h | h
    · exact urbInterval_ne_zero speed (Or.inl (hiso h))
    · exact urbInterval_ne_zero speed (Or.inr (hinterrupt h))
  rcases Engine.dataRequest_asAsked hreq with ⟨hep, hdirection, hsetup, hreqlength, _, hpackets⟩
  constructor
  · exact toU32_le req.direction
  · exact ep_le req.ep
  · exact fun _ => hsetup
  · show req.length ≤ Server.maxLength
    rw [hreqlength]
    exact hlength
  · show req.isoPackets.length ≤ 1024
    rcases hpackets with ⟨_, hnil, _⟩ | ⟨⟨packet, hone⟩, _⟩
    · rw [hnil]
      decide
    · rw [hone]
      exact (show 1 ≤ 1024 by decide)
  · apply periodicFault_eq_none
    have haddress : (urbOf (req.command n devid)).address = addressOf key := by
      apply address_of_key
      · show (req.ep &&& 0x0f).toUInt32 = _
        rw [hep]
      · show req.direction.toU32 = _
        rw [hdirection]
    rw [haddress]
    intro attributes hattributes
    rcases hpackets with ⟨⟨length, hmessage⟩, _, hinterval⟩ | ⟨⟨packet, hone⟩, hinterval⟩
    · constructor
      · intro hperiodic
        show req.interval ≠ 0
        rw [hinterval]
        exact hkind attributes hattributes hperiodic
      · intro hiso
        exact absurd hmessage (hnormal attributes length hattributes hiso)
    · constructor
      · intro _
        show req.interval ≠ 0
        rw [hinterval]
        exact max_one_ne_zero _
      · intro _
        show req.isoPackets ≠ []
        rw [hone]
        exact List.cons_ne_nil _ _

theorem controlRequest_polite {endpoints : List (UInt8 × UInt8)}
    (hlists : ListsNoControl endpoints) (ep : Endpoint R) (setup : Vector UInt8 8)
    {length : UInt32} (hlength : length ≤ Server.maxLength) (n devid : UInt32) :
    Server.Polite endpoints ((Engine.controlRequest ep setup length).command n devid) := by
  rw [Engine.controlRequest_eq]
  constructor
  · exact toU32_le _
  · exact ep_le 0
  · intro hep
    exact absurd (show ((0 : UInt8) &&& 0x0f).toUInt32 = 0 by decide) hep
  · exact hlength
  · exact Nat.zero_le _
  · apply periodicFault_eq_none
    intro attributes hattributes
    cases hdirection : Engine.setupDirection setup with
    | out =>
        simp only [Server.Urb.address, Server.Urb.isIn, urbOf, SubmitRequest.command,
          SubmitRequest.new, hdirection] at hattributes
        exact absurd (hlists.left.symm.trans hattributes) (by simp)
    | «in» =>
        simp only [Server.Urb.address, Server.Urb.isIn, urbOf, SubmitRequest.command,
          SubmitRequest.new, hdirection] at hattributes
        exact absurd (hlists.right.symm.trans hattributes) (by simp)

/-- The engine asks for nothing that the server has to complain about. -/
theorem hostPolicy_sound {endpoints : List (UInt8 × UInt8)}
    (hlists : ListsNoControl endpoints) : (hostPolicy endpoints).Sound R where
  unlink := by
    intro n
    exact ⟨rfl, fun _ h => by cases h⟩
  head := by
    intro speed key ep transfer req stage hinfo hasks hmessage
    refine ⟨rfl, ?_⟩
    rintro _ ⟨rfl⟩ n devid
    cases hasks with
    | controlData hcontrol hsetup =>
        apply controlRequest_polite hlists
        rw [UInt32.le_iff_toNat_le]
        exact Nat.le_trans (Engine.min_wLength_le _ _) (by decide)
    | controlStatus hcontrol hsetup =>
        exact controlRequest_polite hlists ep _ (by decide) n devid
    | transfer hcontrol hreq =>
        rcases hmessage with ⟨hyes, _⟩ | ⟨hlength, hnormal⟩
        · rw [hcontrol] at hyes
          cases hyes
        · exact dataRequest_polite hinfo hreq hlength hnormal n devid
  ahead := by
    intro speed key ep ahead transfer req stage hinfo hahead hreq hmessage
    refine ⟨rfl, ?_⟩
    rintro _ ⟨rfl⟩ n devid
    rcases hmessage with ⟨_, hzero⟩ | ⟨hlength, hnormal⟩
    · exact absurd hzero (Nat.ne_of_gt hahead)
    · exact dataRequest_polite hinfo hreq hlength hnormal n devid

end Link
end UsbIp
