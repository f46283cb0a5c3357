import UsbIp.Engine.SlotRing
import UsbIp.Engine.Steps
import UsbIp.Hci.Descriptors
import UsbIp.Protocol.Bounds

/-!
# Reported lengths

A completion of an IN transfer writes data into the message's buffer and reports
a length.  For a reply that the session accepts the two agree, except where they
come from different fields of the reply: the length of an isochronous transfer
is that of its first packet, and the data is as long as the whole reply says.
-/

namespace UsbIp
namespace Engine

open Foundation
open Protocol
open Hci

variable {R : Type}

/-!
# Replies that the session accepts
-/

/-- The session reads a RET_SUBMIT for an IN transfer of so many bytes. -/
def Accepted (ret : RetSubmit) (length : UInt32) : Prop :=
  exists bytes header rest, readSubmitPayload bytes header true length = .ok (ret, rest)

theorem readData_length {bytes data rest : Bytes} {actualLength : UInt32}
    (h : readData bytes true actualLength = .ok (data, rest)) :
    data.length = actualLength.toNat := by
  unfold readData at h
  split at h
  · exact readExact_length h
  · rename_i hzero
    have hnone : actualLength.toNat = 0 := by
      have hnot : ¬ 0 < actualLength.toNat := fun hpos =>
        hzero ⟨rfl, UInt32.lt_iff_toNat_lt.mpr hpos⟩
      omega
    cases h
    rw [hnone]
    rfl

theorem Accepted.data_length {ret : RetSubmit} {length : UInt32} (h : Accepted ret length) :
    ret.data.length = ret.actualLength.toNat ∧ ret.actualLength ≤ length := by
  rcases h with ⟨bytes, header, rest, hread⟩
  rcases readSubmitPayload_ok hread with ⟨hle, data, more, isoPackets, hdata, _, rfl⟩
  exact ⟨readData_length hdata, UInt32.not_lt.mp hle⟩

/-!
# Stages
-/

theorem min_toNat (a b : UInt32) : (min a b).toNat = min a.toNat b.toNat := by
  show (if a ≤ b then a else b).toNat = if a.toNat ≤ b.toNat then a.toNat else b.toNat
  split
  · rename_i h
    rw [if_pos (UInt32.le_iff_toNat_le.mp h)]
  · rename_i h
    rw [if_neg fun hle => h (UInt32.le_iff_toNat_le.mpr hle)]

theorem min_wLength_le (length : UInt32) (bytes : Vector UInt8 8) :
    (min length (wLength bytes).toUInt32).toNat ≤ 65535 := by
  have hword : (wLength bytes).toUInt32.toNat ≤ 65535 := by
    rw [UInt16.toNat_toUInt32]
    exact Nat.le_of_lt_succ (wLength bytes).toNat_lt
  rw [min_toNat]
  exact Nat.le_trans (Nat.min_le_right _ _) hword

theorem controlRequest_length [Ring R] (ep : Endpoint R) (bytes : Vector UInt8 8) (length : UInt32) :
    (controlRequest ep bytes length).length = length := by
  unfold controlRequest
  dsimp only
  split <;> rfl

structure Fits (data : Bytes) (length asked : UInt32) : Prop where
  agree : data.length = length.toNat
  within : length ≤ asked

theorem hideConfig_length_le (ep : Endpoint R) (data : Bytes) :
    (hideConfig ep data).1.length ≤ data.length := by
  have hhide := hideUas_length_le data
  unfold hideConfig
  cases hfound : hideUas data with
  | mk out totals =>
      rw [hfound] at hhide
      cases totals with
      | some totals => exact hhide
      | none =>
          dsimp only at hhide ⊢
          cases ep.hiddenConfig with
          | none => exact hhide
          | some pair =>
              dsimp only
              split
              · rename_i hlong
                rw [setTotalLength_length hlong.left]
                exact hhide
              · exact hhide

theorem applyStage_fits (ep : Endpoint R) (stage : Stage) {data : Bytes}
    {length asked : UInt32} (h : Fits data length asked) :
    Fits (applyStage ep stage data length).2.1 (applyStage ep stage data length).2.2.1
      asked := by
  cases stage with
  | controlData =>
      unfold applyStage
      dsimp only
      split
      · have hle := hideConfig_length_le
          { ep with setup := ep.setup.map fun s => { s with dataDone := true } } data
        cases hhide : hideConfig
            { ep with setup := ep.setup.map fun s => { s with dataDone := true } } data with
        | mk out found =>
            rw [hhide] at hle
            dsimp only at hle ⊢
            have hlength := h.agree
            have hword := length.toNat_lt
            have hwithin := UInt32.le_iff_toNat_le.mp h.within
            have hnat : (UInt32.ofNat out.length).toNat = out.length :=
              UInt32.toNat_ofNat_of_lt' (Nat.lt_of_le_of_lt hle (by rw [hlength]; exact hword))
            constructor
            · rw [min_toNat, hnat]
              omega
            · rw [UInt32.le_iff_toNat_le, min_toNat]
              omega
      · exact h
  | controlStatus => exact h
  | normal => exact h
  | isochronous => exact h

/-!
# Completions
-/

/--
The first packet of an isochronous reply says that more bytes came in than the
reply has data.
-/
def Overstates (f : InFlight) (ret : RetSubmit) : Prop :=
  f.stage = Stage.isochronous ∧ exists p ps, ret.isoPackets = p :: ps ∧
    ret.actualLength < min p.actualLength f.length

theorem outcome_ok (f : InFlight) (ret : RetSubmit) :
    (f.outcome (.ok ret)).2 =
      (ret.data.take (f.outcome (.ok ret)).2.2.toNat, (f.outcome (.ok ret)).2.2) := rfl

theorem outcome_length_packet {f : InFlight} {ret : RetSubmit} {p : IsoPacketDescriptor}
    {ps : List IsoPacketDescriptor} (hstage : f.stage = Stage.isochronous)
    (hpackets : ret.isoPackets = p :: ps) :
    (f.outcome (.ok ret)).2.2 = min p.actualLength f.length := by
  simp only [InFlight.outcome, hstage, hpackets, List.head?_cons]

theorem outcome_length_total {f : InFlight} {ret : RetSubmit}
    (h : f.stage ≠ Stage.isochronous ∨ ret.isoPackets = []) :
    (f.outcome (.ok ret)).2.2 = min ret.actualLength f.length := by
  rcases h with hstage | hnone
  · cases hcase : f.stage with
    | isochronous => exact absurd hcase hstage
    | controlData => simp only [InFlight.outcome, hcase]
    | controlStatus => simp only [InFlight.outcome, hcase]
    | normal => simp only [InFlight.outcome, hcase]
  · cases hcase : f.stage <;> simp only [InFlight.outcome, hcase, hnone, List.head?_nil]

theorem outcome_within (f : InFlight) (ret : RetSubmit) :
    (f.outcome (.ok ret)).2.2 ≤ f.length := by
  rw [UInt32.le_iff_toNat_le]
  by_cases hstage : f.stage = Stage.isochronous
  · cases hpackets : ret.isoPackets with
    | nil =>
        rw [outcome_length_total (Or.inr hpackets), min_toNat]
        exact Nat.min_le_right _ _
    | cons p ps =>
        rw [outcome_length_packet hstage hpackets, min_toNat]
        exact Nat.min_le_right _ _
  · rw [outcome_length_total (Or.inl hstage), min_toNat]
    exact Nat.min_le_right _ _

/-- The data is there unless the first packet overstates it. -/
theorem outcome_fits_iff {f : InFlight} {ret : RetSubmit} (h : Accepted ret f.length) :
    Fits (f.outcome (.ok ret)).2.1 (f.outcome (.ok ret)).2.2 f.length <->
      ¬ Overstates f ret := by
  rcases h.data_length with ⟨hdata, hle⟩
  have hle := UInt32.le_iff_toNat_le.mp hle
  have hlength : (f.outcome (.ok ret)).2.1.length =
      min (f.outcome (.ok ret)).2.2.toNat ret.actualLength.toNat := by
    rw [outcome_ok, List.length_take, hdata]
  constructor
  · rintro hfits ⟨hstage, p, ps, hpackets, hmore⟩
    have hagree := hfits.agree
    rw [hlength, outcome_length_packet hstage hpackets] at hagree
    rw [UInt32.lt_iff_toNat_lt] at hmore
    omega
  · intro hnot
    refine ⟨?_, outcome_within f ret⟩
    rw [hlength]
    by_cases hstage : f.stage = Stage.isochronous
    · cases hpackets : ret.isoPackets with
      | nil =>
          rw [outcome_length_total (Or.inr hpackets), min_toNat]
          omega
      | cons p ps =>
          have hno : ¬ ret.actualLength < min p.actualLength f.length := fun hmore =>
            hnot ⟨hstage, p, ps, hpackets, hmore⟩
          rw [UInt32.lt_iff_toNat_lt] at hno
          rw [outcome_length_packet hstage hpackets]
          omega
    · rw [outcome_length_total (Or.inl hstage), min_toNat]
      omega

variable [Ring R]

theorem apply_log (e : Engine R) (key : EndpointKey) (ep : Endpoint R) {f : InFlight}
    (hin : f.direction = Direction.in) (ret : RetSubmit) :
    exists c, (e.apply key ep f (.ok ret)).1.log = Event.completed c :: e.log ∧
      c.data = (applyStage ep f.stage (f.outcome (.ok ret)).2.1
        (f.outcome (.ok ret)).2.2).2.1 ∧
      c.length = (applyStage ep f.stage (f.outcome (.ok ret)).2.1
        (f.outcome (.ok ret)).2.2).2.2.1 := by
  have hdata : (if f.direction = Direction.in then (f.outcome (.ok ret)).2.1 else []) =
      (f.outcome (.ok ret)).2.1 := if_pos hin
  rw [apply_fst (congrArg
    (fun data => applyStage ep f.stage data (f.outcome (.ok ret)).2.2) hdata)]
  exact ⟨_, rfl, rfl, rfl⟩

/--
The completion of an IN transfer reports as many bytes as it writes, and no more
than were asked for, exactly if the reply is not an isochronous one whose first
packet claims more than the reply has data.
-/
theorem apply_length_iff (e : Engine R) (key : EndpointKey) (ep : Endpoint R)
    (f : InFlight) (ret : RetSubmit) (hin : f.direction = Direction.in)
    (haccepted : Accepted ret f.length) :
    (exists c, (e.apply key ep f (.ok ret)).1.log = Event.completed c :: e.log ∧
      c.data.length = c.length.toNat ∧ c.length ≤ f.length) <->
      ¬ (f.stage = Stage.isochronous ∧ exists p ps, ret.isoPackets = p :: ps ∧
        ret.actualLength < min p.actualLength f.length) := by
  rcases apply_log e key ep hin ret with ⟨c, hlog, hdata, hlength⟩
  refine Iff.trans ?_ (outcome_fits_iff haccepted)
  constructor
  · rintro ⟨c', hlog', hagree, hwithin⟩
    rw [hlog] at hlog'
    cases hlog'
    by_cases hstage : f.stage = Stage.isochronous
    · rw [hdata, hlength, hstage] at hagree
      exact ⟨hagree, outcome_within f ret⟩
    · rw [outcome_fits_iff haccepted]
      exact fun hover => hstage hover.left
  · intro hfits
    have hstaged := applyStage_fits ep f.stage hfits
    refine ⟨c, hlog, ?_, ?_⟩
    · rw [hdata, hlength]
      exact hstaged.agree
    · rw [hlength]
      exact hstaged.within

/-!
# An isochronous read
-/

def isoRead : InFlight where
  token := 0
  message := 1
  stage := Stage.isochronous
  direction := Direction.in
  length := 8
  seqnum := 1
  unlinking := false
  result := none

def isoReply (data : Bytes) (claimed : UInt32) : RetSubmit where
  seqnum := 1
  status := 0
  actualLength := UInt32.ofNat data.length
  startFrame := 0
  errorCount := 0
  data := data
  isoPackets := [{ offset := 0, length := 8, actualLength := claimed, status := 0 }]

def isoServerReply (data : Bytes) (claimed : UInt32) : ServerSubmit where
  ret := isoReply data claimed
  unused := Vector.replicate 12 0
  padding := Vector.replicate 8 0
  noCount := false

theorem isoReply_accepted {data : Bytes} (hdata : data.length ≤ 8) (claimed : UInt32) :
    Accepted (isoReply data claimed) isoRead.length := by
  have hnat : (UInt32.ofNat data.length).toNat = data.length :=
    UInt32.toNat_ofNat_of_lt' (Nat.lt_of_le_of_lt hdata (by decide))
  have hwell : (isoServerReply data claimed).WellFormed Direction.in isoRead.length := by
    constructor
    · rw [UInt32.le_iff_toNat_le]
      show (UInt32.ofNat data.length).toNat ≤ 8
      omega
    · intro _
      exact hnat.symm
    · intro h
      cases h
    · show 1 ≤ 1024
      decide
  exact ⟨_, _, [], readSubmitPayload_encode hwell []⟩

def isoEndpoint : Endpoint QueueRing where
  ring :=
    { active := true
      slots :=
        [{ id := 1, transfer := Transfer.isochronous 8 none, buffer := List.replicate 8 0,
           buffer_length := by decide }]
      next := 2 }
  info := { kind := EndpointKind.isochronous, maxPacketSize := 8, bInterval := 1 }
  inFlight := []
  setup := none
  hiddenConfig := none

theorem apply_length_iff_full :
    exists c, ((start sampleDevice [] : Engine QueueRing).apply (1, 0x81) isoEndpoint
        isoRead (.ok (isoReply [1, 2, 3, 4] 4))).1.log = [Event.completed c] ∧
      c.data.length = c.length.toNat ∧ c.length ≤ isoRead.length := by
  have hiff := apply_length_iff (start sampleDevice []) (1, 0x81) isoEndpoint isoRead
    (isoReply [1, 2, 3, 4] 4) rfl (isoReply_accepted (by decide) 4)
  apply hiff.mpr
  rintro ⟨_, p, ps, hpackets, hmore⟩
  cases hpackets
  exact absurd hmore (by decide)

/-- A reply without data whose packet claims eight bytes is reported as eight bytes. -/
theorem apply_reports_unwritten :
    isoRead.direction = Direction.in ∧ Accepted (isoReply [] 8) isoRead.length ∧
      ¬ exists c, ((start sampleDevice [] : Engine QueueRing).apply (1, 0x81) isoEndpoint
          isoRead (.ok (isoReply [] 8))).1.log = [Event.completed c] ∧
        c.data.length = c.length.toNat ∧ c.length ≤ isoRead.length := by
  refine ⟨rfl, isoReply_accepted (by decide) 8, ?_⟩
  rintro ⟨c, hlog, hagree, _⟩
  cases hlog
  exact absurd hagree (by decide)

end Engine
end UsbIp
