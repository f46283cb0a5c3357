import UsbIp.Foundation.Checked
import UsbIp.Foundation.Rescale
import UsbIp.Host.Controller

/-!
# The frame clock

A frame is counted from the ticks of the clock, and the time it began is counted
back from the frame, both rounded down.  With a frame no shorter than a tick,
nothing overflows on the way, no frame is reported to begin after the reading it
was counted from, and no reading lies behind the beginning of the next frame.
-/

namespace UsbIp
namespace Host

open Foundation

namespace FrameClock

/-!
# Checked operations
-/

def checkedFrameAt (clock : FrameClock) (ticks : UInt64) : Option UInt64 := do
  let passed ← checkedSub ticks.toNat clock.epoch.toNat
  let scaled ← u128 (passed * clock.numer.toNat)
  let unit ← u128 (clock.denom.toNat * 1000000)
  let frame ← checkedDiv scaled unit
  let frame ← fit UInt64.size frame
  return UInt64.ofNat frame

def checkedStartOf (clock : FrameClock) (frame : UInt64) : Option UInt64 := do
  let scaled ← u128 (frame.toNat * clock.denom.toNat)
  let scaled ← u128 (scaled * 1000000)
  let passed ← checkedDiv scaled clock.numer.toNat
  let passed ← fit UInt64.size passed
  let start ← fit UInt64.size (clock.epoch.toNat + passed)
  return UInt64.ofNat start

/-!
# Frames as exact numbers
-/

/-- The length of a frame, in the unit in which a tick is `numer`. -/
def frameUnit (clock : FrameClock) : Nat :=
  clock.denom.toNat * 1000000

/-- A timebase in which a tick is no longer than a frame. -/
structure Ticks (clock : FrameClock) : Prop where
  numer_pos : 1 ≤ clock.numer.toNat
  denom_pos : 1 ≤ clock.denom.toNat
  numer_le : clock.numer.toNat ≤ clock.denom.toNat * 1000000

def exactStart (clock : FrameClock) (frame : Nat) : Nat :=
  clock.epoch.toNat + rescale clock.frameUnit clock.numer.toNat frame

/-- The frame of a reading, as an exact number. -/
def exactFrame (clock : FrameClock) (ticks : Nat) : Nat :=
  rescale clock.numer.toNat clock.frameUnit (ticks - clock.epoch.toNat)

theorem exactStart_le {clock : FrameClock} {ticks : Nat} (h : clock.epoch.toNat ≤ ticks) :
    clock.exactStart (clock.exactFrame ticks) ≤ ticks := by
  have hback := rescale_rescale_le clock.numer.toNat clock.frameUnit
    (ticks - clock.epoch.toNat)
  unfold exactStart exactFrame
  omega

theorem exactStart_mono {clock : FrameClock} {f g : Nat} (h : f ≤ g) :
    clock.exactStart f ≤ clock.exactStart g :=
  Nat.add_le_add_left (rescale_mono h) _

section Timebase

variable {clock : FrameClock} (htimebase : clock.Ticks)
include htimebase

theorem frameUnit_pos : 0 < clock.frameUnit := by
  have hdenom := htimebase.denom_pos
  unfold frameUnit
  omega

theorem exactFrame_le (ticks : Nat) : clock.exactFrame ticks ≤ ticks :=
  Nat.le_trans (rescale_le htimebase.numer_le _) (Nat.sub_le _ _)

theorem le_exactStart_succ (ticks : Nat) :
    ticks ≤ clock.exactStart (clock.exactFrame ticks + 1) := by
  have hnext := le_rescale_succ htimebase.numer_pos (frameUnit_pos htimebase)
    (ticks - clock.epoch.toNat)
  unfold exactStart exactFrame
  omega

theorem lt_exactStart_succ (hdvd : clock.numer.toNat ∣ clock.frameUnit) (ticks : Nat)
    (h : clock.epoch.toNat ≤ ticks) :
    ticks < clock.exactStart (clock.exactFrame ticks + 1) := by
  have hnext := lt_rescale_succ hdvd (frameUnit_pos htimebase)
    (ticks - clock.epoch.toNat)
  unfold exactStart exactFrame
  omega

theorem exactFrame_exactStart (hdvd : clock.numer.toNat ∣ clock.frameUnit) (frame : Nat) :
    clock.exactFrame (clock.exactStart frame) = frame := by
  unfold exactFrame exactStart
  rw [Nat.add_sub_cancel_left]
  exact rescale_rescale hdvd (frameUnit_pos htimebase) frame

end Timebase

/-!
# The words the source computes
-/

theorem mul_lt (x : Nat) (hx : x < UInt64.size) (y : UInt32) :
    x * y.toNat < 79228162514264337593543950336 := by
  have hy : y.toNat < 4294967296 := y.toNat_lt
  calc
    x * y.toNat ≤ x * 4294967296 := Nat.mul_le_mul_left x (Nat.le_of_lt hy)
    _ < UInt64.size * 4294967296 := Nat.mul_lt_mul_of_pos_right hx (by decide)
    _ = 79228162514264337593543950336 := by decide

section Words

variable {clock : FrameClock} (htimebase : clock.Ticks)
include htimebase

theorem checkedFrameAt_eq {ticks : UInt64} (h : clock.epoch ≤ ticks) :
    clock.checkedFrameAt ticks = some (clock.frameAt ticks) ∧
      (clock.frameAt ticks).toNat = clock.exactFrame ticks.toNat := by
  have hle : clock.epoch.toNat ≤ ticks.toNat := UInt64.le_iff_toNat_le.mp h
  have hticks : ticks.toNat < UInt64.size := ticks.toNat_lt
  have hpassed : ticks.toNat - clock.epoch.toNat < UInt64.size := by
    omega
  have hscaled := mul_lt (ticks.toNat - clock.epoch.toNat) hpassed clock.numer
  have hunit := mul_lt 1000000 (by decide) clock.denom
  have hframe := exactFrame_le htimebase ticks.toNat
  have hdifference : (ticks - clock.epoch).toNat = ticks.toNat - clock.epoch.toNat :=
    UInt64.toNat_sub_of_le ticks clock.epoch h
  have hunitpos : 0 < clock.denom.toNat * 1000000 := frameUnit_pos htimebase
  have hfits : (ticks.toNat - clock.epoch.toNat) * clock.numer.toNat /
      (clock.denom.toNat * 1000000) < UInt64.size :=
    Nat.lt_of_le_of_lt hframe hticks
  constructor
  · unfold checkedFrameAt frameAt
    simp only [Option.bind_eq_bind]
    rw [checkedSub_of_le hle, Option.bind_some, u128_of_lt (by omega), Option.bind_some,
      u128_of_lt (by omega), Option.bind_some, checkedDiv_of_pos hunitpos,
      Option.bind_some, fit_of_lt hfits, Option.bind_some, hdifference]
    rfl
  · unfold frameAt
    rw [hdifference]
    exact UInt64.toNat_ofNat_of_lt' hfits

theorem checkedStartOf_eq {frame : UInt64}
    (h : clock.exactStart frame.toNat < UInt64.size) :
    clock.checkedStartOf frame = some (clock.startOf frame) ∧
      (clock.startOf frame).toNat = clock.exactStart frame.toNat := by
  have hscaled := mul_lt frame.toNat frame.toNat_lt clock.denom
  have hpassed : frame.toNat * clock.denom.toNat * 1000000 / clock.numer.toNat =
      rescale clock.frameUnit clock.numer.toNat frame.toNat := by
    unfold rescale frameUnit
    rw [Nat.mul_assoc]
  unfold exactStart at h
  have hstart : clock.startOf frame = UInt64.ofNat (clock.exactStart frame.toNat) := by
    unfold startOf exactStart
    rw [hpassed, UInt64.ofNat_add, UInt64.ofNat_toNat]
  constructor
  · unfold checkedStartOf
    simp only [Option.bind_eq_bind]
    rw [u128_of_lt (by omega), Option.bind_some, u128_of_lt (by omega), Option.bind_some,
      checkedDiv_of_pos htimebase.numer_pos, Option.bind_some, hpassed, fit_of_lt (by omega),
      Option.bind_some, fit_of_lt (by omega), Option.bind_some, hstart]
    rfl
  · rw [hstart]
    exact UInt64.toNat_ofNat_of_lt' h

end Words

/-!
# Successive reports
-/

/-- What successive calls of `next` report, each call with the readings it takes. -/
def nextAll (clock : FrameClock) : List (List UInt64) -> List (UInt64 × UInt64)
  | [] => []
  | readings :: calls =>
      match clock.next readings with
      | some (report, clock) => report :: clock.nextAll calls
      -- The call waits forever for a later frame.
      | none => []

def reportOf (clock : FrameClock) (ticks : UInt64) : UInt64 × UInt64 :=
  (clock.frameAt ticks, clock.startOf (clock.frameAt ticks))

theorem next_some {clock clock' : FrameClock} {readings : List UInt64}
    {report : UInt64 × UInt64} (h : clock.next readings = some (report, clock')) :
    (exists ticks, ticks ∈ readings ∧ report = clock.reportOf ticks) ∧
      (forall last, clock.last = some last -> last < report.1) ∧
      clock' = { clock with last := some report.1 } := by
  induction readings with
  | nil => cases h
  | cons ticks readings ih =>
      rw [next] at h
      split at h
      · rcases ih h with ⟨⟨other, hmem, hreport⟩, hrest⟩
        exact ⟨⟨other, List.mem_cons_of_mem ticks hmem, hreport⟩, hrest⟩
      · rename_i hlater
        simp only [Option.some.injEq, Prod.mk.injEq] at h
        rcases h with ⟨rfl, rfl⟩
        refine ⟨⟨ticks, List.mem_cons_self, rfl⟩, ?_, rfl⟩
        intro last hlast
        rw [hlast] at hlater
        rw [Option.any_some, decide_eq_true_eq] at hlater
        exact UInt64.not_le.mp hlater

/-- The frames of successive reports increase, from the last one remembered. -/
theorem nextAll_reports {calls : List (List UInt64)} {clock : FrameClock} :
    (clock.nextAll calls).Pairwise (fun r s => r.1 < s.1) ∧
      forall r, r ∈ clock.nextAll calls ->
        (forall last, clock.last = some last -> last < r.1) ∧
          exists ticks, ticks ∈ calls.flatten ∧ r = clock.reportOf ticks := by
  induction calls generalizing clock with
  | nil => exact ⟨List.Pairwise.nil, fun r hr => absurd hr List.not_mem_nil⟩
  | cons readings calls ih =>
      rw [nextAll]
      cases hnext : clock.next readings with
      | none => exact ⟨List.Pairwise.nil, fun r hr => absurd hr List.not_mem_nil⟩
      | some found =>
          rcases found with ⟨report, clock'⟩
          rcases next_some hnext with ⟨⟨ticks, hticks, hreport⟩, hlater, rfl⟩
          rcases @ih { clock with last := some report.1 } with ⟨hincreasing, hrest⟩
          constructor
          · apply List.Pairwise.cons
            · intro r hr
              exact (hrest r hr).left report.1 rfl
            · exact hincreasing
          · intro r hr
            rcases List.mem_cons.mp hr with rfl | hmem
            · exact ⟨hlater, ticks, List.mem_append_left _ hticks, hreport⟩
            · rcases hrest r hmem with ⟨hafter, other, hother, hr⟩
              refine ⟨?_, other, List.mem_append_right _ hother, hr⟩
              intro last hlast
              exact UInt64.lt_trans (hlater last hlast) (hafter report.1 rfl)

theorem startOf_exact {clock : FrameClock} (htimebase : clock.Ticks) {ticks : UInt64}
    (h : clock.epoch ≤ ticks) :
    clock.checkedStartOf (clock.frameAt ticks) = some (clock.startOf (clock.frameAt ticks)) ∧
      (clock.startOf (clock.frameAt ticks)).toNat =
        clock.exactStart (clock.exactFrame ticks.toNat) := by
  have hframe := (checkedFrameAt_eq htimebase h).right
  have hle := exactStart_le (UInt64.le_iff_toNat_le.mp h)
  have hfits : clock.exactStart (clock.frameAt ticks).toNat < UInt64.size := by
    rw [hframe]
    exact Nat.lt_of_le_of_lt hle ticks.toNat_lt
  have hstart := checkedStartOf_eq htimebase hfits
  rw [hframe] at hstart
  exact hstart

/-- What holds of one reading and of the frame it is in. -/
structure Consistent (clock : FrameClock) (ticks : UInt64) : Prop where
  frame_checked : clock.checkedFrameAt ticks = some (clock.frameAt ticks)
  start_checked : clock.checkedStartOf (clock.frameAt ticks) =
    some (clock.startOf (clock.frameAt ticks))
  started : clock.startOf (clock.frameAt ticks) ≤ ticks
  not_ended : ticks.toNat ≤ clock.exactStart ((clock.frameAt ticks).toNat + 1)
  exact : clock.numer.toNat ∣ clock.denom.toNat * 1000000 ->
    ticks.toNat < clock.exactStart ((clock.frameAt ticks).toNat + 1) ∧
      clock.frameAt (clock.startOf (clock.frameAt ticks)) = clock.frameAt ticks

theorem consistent {clock : FrameClock} (htimebase : clock.Ticks) {ticks : UInt64}
    (h : clock.epoch ≤ ticks) : clock.Consistent ticks := by
  rcases checkedFrameAt_eq htimebase h with ⟨hchecked, hframe⟩
  rcases startOf_exact htimebase h with ⟨hstartChecked, hstart⟩
  have hnat : clock.epoch.toNat ≤ ticks.toNat := UInt64.le_iff_toNat_le.mp h
  exact
    { frame_checked := hchecked
      start_checked := hstartChecked
      started := by
        rw [UInt64.le_iff_toNat_le, hstart]
        exact exactStart_le hnat
      not_ended := by
        rw [hframe]
        exact le_exactStart_succ htimebase ticks.toNat
      exact := by
        intro hdvd
        rw [hframe]
        constructor
        · exact lt_exactStart_succ htimebase hdvd ticks.toNat hnat
        · have hafter : clock.epoch ≤ clock.startOf (clock.frameAt ticks) := by
            rw [UInt64.le_iff_toNat_le, hstart]
            exact Nat.le_add_right _ _
          apply UInt64.toNat_inj.mp
          rw [(checkedFrameAt_eq htimebase hafter).right, hstart, hframe]
          exact exactFrame_exactStart htimebase hdvd _ }

/--
The frames of successive reports increase strictly and their times do not go
back, and every reading is consistent with the frame it is in.  For the frames
the readings need not even be in order: a frame that is not later is not reported.
-/
theorem frame_reports (clock : FrameClock) (htimebase : clock.Ticks)
    (calls : List (List UInt64))
    (hepoch : forall ticks, ticks ∈ calls.flatten -> clock.epoch ≤ ticks) :
    (clock.nextAll calls).Pairwise (fun r s => r.1 < s.1 ∧ r.2 ≤ s.2) ∧
      (forall r, r ∈ clock.nextAll calls ->
        exists ticks, ticks ∈ calls.flatten ∧ r = clock.reportOf ticks) ∧
      (forall ticks, ticks ∈ calls.flatten -> clock.Consistent ticks) := by
  rcases @nextAll_reports calls clock with ⟨hincreasing, hreports⟩
  refine ⟨?_, fun r hr => (hreports r hr).right, fun ticks hticks =>
    consistent htimebase (hepoch ticks hticks)⟩
  apply List.Pairwise.imp_of_mem _ hincreasing
  intro r s hr hs hlt
  rcases (hreports r hr).right with ⟨before, hbefore, rfl⟩
  rcases (hreports s hs).right with ⟨after, hafter, rfl⟩
  refine ⟨hlt, ?_⟩
  show clock.startOf (clock.frameAt before) ≤ clock.startOf (clock.frameAt after)
  have hbeforeEpoch := hepoch before hbefore
  have hafterEpoch := hepoch after hafter
  rw [UInt64.le_iff_toNat_le, (startOf_exact htimebase hbeforeEpoch).right,
    (startOf_exact htimebase hafterEpoch).right]
  apply exactStart_mono
  rw [← (checkedFrameAt_eq htimebase hbeforeEpoch).right,
    ← (checkedFrameAt_eq htimebase hafterEpoch).right]
  exact Nat.le_of_lt (UInt64.lt_iff_toNat_lt.mp hlt)

def silicon : FrameClock where
  epoch := 1000
  numer := 125
  denom := 3
  last := none

theorem frame_reports_of_silicon :
    silicon.nextAll [[25000], [25100, 50000]] = [(1, 25000), (2, 49000)] ∧
      (forall ticks, ticks ∈ [[25000], [25100, 50000]].flatten ->
        silicon.Consistent ticks) := by
  have hepoch : forall ticks, ticks ∈ [[25000], [25100, 50000]].flatten ->
      silicon.epoch ≤ ticks := by
    intro ticks hticks
    simp only [List.flatten_cons, List.flatten_nil, List.cons_append, List.nil_append,
      List.mem_cons, List.not_mem_nil, or_false] at hticks
    rcases hticks with rfl | rfl | rfl
    · decide
    · decide
    · decide
  constructor
  · decide +kernel
  · exact (frame_reports silicon ⟨by decide, by decide, by decide⟩ [[25000], [25100, 50000]]
      hepoch).right.right

end FrameClock

end Host
end UsbIp
