import UsbIp.Hci.Bounds
import UsbIp.Hci.Commands

/-!
# Finding the endpoint descriptor

`EndpointInfo::parse` calls itself on the first endpoint descriptor inside a
configuration.  Here it is once more with that call, with every index and sum
checked, and with a loop and calls that do not count as finished when they run
out.  Beside it stands the walk it is meant to make: the positions that are
reached from the configuration header, each one behind the last by the length
that the descriptor there states.
-/

namespace UsbIp
namespace Hci

open Foundation

namespace Checked

/-- The loop of `parse`: nothing inside means that it ended without an endpoint. -/
def findEndpoint (desc : Bytes) (total : Nat) : Nat -> Nat -> Option (Option Nat)
  | 0, _ => none
  | rounds + 1, i => do
      let stop ← usize (i + 2)
      if stop ≤ total then do
        let len ← desc[i]?
        if 2 ≤ len then do
          let second ← usize (i + 1)
          let type ← desc[second]?
          if type = 5 then
            return some i
          else do
            let next ← usize (i + len.toNat)
            findEndpoint desc total rounds next
        else
          return none
      else
        return none

def isConfiguration (desc : Bytes) : Option Bool :=
  if 4 ≤ desc.length then do
    let len ← desc[0]?
    if 2 ≤ len then do
      let type ← desc[1]?
      return type == 2
    else
      return false
  else
    return false

def parseStandard (desc : Bytes) : Option (Option EndpointInfo) :=
  if desc.length < 7 then
    return none
  else do
    let type ← desc[1]?
    if type ≠ 5 then
      return none
    else do
      let attributes ← desc[3]?
      let low ← desc[4]?
      let high ← desc[5]?
      let interval ← desc[6]?
      return some
        { kind :=
            match (attributes &&& 0x03).toNat with
            | 0 => EndpointKind.control
            | 1 => EndpointKind.isochronous
            | 2 => EndpointKind.bulk
            | _ => EndpointKind.interrupt
          maxPacketSize := le16 low high
          bInterval := interval }

def parse (rounds : Nat) : Nat -> Bytes -> Option (Option EndpointInfo)
  | 0, _ => none
  | calls + 1, desc => do
      let header ← isConfiguration desc
      if header then do
        let low ← desc[2]?
        let high ← desc[3]?
        let total := min (le16 low high).toNat desc.length
        let first ← desc[0]?
        let found ← findEndpoint desc total rounds first.toNat
        match found with
        | none => return none
        | some i =>
            match slice desc i total with
            | none => return none
            | some inner => parse rounds calls inner
      else
        parseStandard desc

end Checked

/-!
# The reference walk
-/

namespace EndpointInfo

/-- A configuration descriptor: four bytes, a length of at least two, and type 2. -/
def IsConfiguration (desc : Bytes) : Prop :=
  4 ≤ desc.length ∧ 2 ≤ byteAt desc 0 ∧ byteAt desc 1 = 2

instance (desc : Bytes) : Decidable (IsConfiguration desc) :=
  inferInstanceAs (Decidable (_ ∧ _))

/-- Where the walk has to stop: at `wTotalLength` or at the end of the bytes. -/
def limit (desc : Bytes) : Nat :=
  min (le16 (byteAt desc 2) (byteAt desc 3)).toNat desc.length

def DescriptorAt (desc : Bytes) (i : Nat) : Prop :=
  i + 2 ≤ limit desc ∧ 2 ≤ byteAt desc i

/-- The walk from one position leads to another, over descriptors of other types. -/
inductive Walk (desc : Bytes) : Nat -> Nat -> Prop where
  | here (i : Nat) : Walk desc i i
  | next {i j : Nat} (descriptor : DescriptorAt desc i) (other : byteAt desc (i + 1) ≠ 5)
      (rest : Walk desc (i + (byteAt desc i).toNat) j) : Walk desc i j

/-- The first endpoint descriptor of a configuration. -/
structure FirstEndpoint (desc : Bytes) (i : Nat) : Prop where
  walked : Walk desc (byteAt desc 0).toNat i
  descriptor : DescriptorAt desc i
  type : byteAt desc (i + 1) = 5

def transferType (attributes : UInt8) : EndpointKind :=
  if attributes.toNat % 4 = 0 then EndpointKind.control
  else if attributes.toNat % 4 = 1 then EndpointKind.isochronous
  else if attributes.toNat % 4 = 2 then EndpointKind.bulk
  else EndpointKind.interrupt

def descriptorAt (desc : Bytes) (i : Nat) : EndpointInfo where
  kind := transferType (byteAt desc (i + 3))
  maxPacketSize := le16 (byteAt desc (i + 4)) (byteAt desc (i + 5))
  bInterval := byteAt desc (i + 6)

/-!
# The loop
-/

theorem limit_le (desc : Bytes) : limit desc ≤ desc.length :=
  Nat.min_le_right _ _

theorem limit_lt (desc : Bytes) : limit desc < 65536 :=
  Nat.lt_of_le_of_lt (Nat.min_le_left _ _) (UInt16.toNat_lt _)

theorem two_le_toNat {b : UInt8} (h : 2 ≤ b) : 2 ≤ b.toNat :=
  UInt8.le_iff_toNat_le.mp h

/-- The checked loop finishes and finds what the loop with other enough rounds finds. -/
theorem checked_findEndpoint {desc : Bytes} {rounds other i : Nat} (hpos : 0 < rounds)
    (hrounds : limit desc < i + rounds) (hother : limit desc < i + other) (hi : i < 131072) :
    Checked.findEndpoint desc (limit desc) rounds i =
      some (findEndpoint desc (limit desc) other i) := by
  have hlimit := limit_le desc
  have hbound := limit_lt desc
  induction rounds generalizing i other with
  | zero => cases hpos
  | succ rounds ih =>
      rw [Checked.findEndpoint]
      simp only [Option.bind_eq_bind]
      rw [usize_of_lt (by omega), Option.bind_some]
      cases other with
      | zero =>
          rw [findEndpoint, if_neg (by omega)]
          rfl
      | succ other =>
          rw [findEndpoint]
          by_cases hin : i + 2 ≤ limit desc
          · rw [if_pos hin, Checked.getElem?_byteAt (by omega), Option.bind_some]
            by_cases hlen : 2 ≤ byteAt desc i
            · have htwo := two_le_toNat hlen
              have hbyte : (byteAt desc i).toNat < 256 := UInt8.toNat_lt _
              rw [if_pos hlen, if_pos ⟨hin, hlen⟩, usize_of_lt (by omega), Option.bind_some,
                Checked.getElem?_byteAt (by omega), Option.bind_some]
              by_cases htype : byteAt desc (i + 1) = 5
              · rw [if_pos htype, if_pos htype]
                rfl
              · rw [if_neg htype, if_neg htype, usize_of_lt (by omega), Option.bind_some]
                exact ih (by omega) (by omega) (by omega) (by omega)
            · rw [if_neg hlen, if_neg fun h => hlen h.right]
              rfl
          · rw [if_neg hin, if_neg fun h => hin h.left]
            rfl

theorem findEndpoint_walk {desc : Bytes} {rounds i j : Nat}
    (h : findEndpoint desc (limit desc) rounds i = some j) :
    Walk desc i j ∧ DescriptorAt desc j ∧ byteAt desc (j + 1) = 5 := by
  induction rounds generalizing i with
  | zero => cases h
  | succ rounds ih =>
      rw [findEndpoint] at h
      split at h
      · rename_i hdescriptor
        split at h
        · rename_i htype
          cases h
          exact ⟨Walk.here _, hdescriptor, htype⟩
        · rename_i htype
          rcases ih h with ⟨hwalk, hfound⟩
          exact ⟨Walk.next hdescriptor htype hwalk, hfound⟩
      · cases h

theorem findEndpoint_of_walk {desc : Bytes} {rounds i j : Nat} (hwalk : Walk desc i j)
    (hdescriptor : DescriptorAt desc j) (htype : byteAt desc (j + 1) = 5)
    (hrounds : limit desc < i + rounds) :
    findEndpoint desc (limit desc) rounds i = some j := by
  induction hwalk generalizing rounds with
  | here i =>
      cases rounds with
      | zero => exact absurd hdescriptor.left (by omega)
      | succ rounds =>
          unfold DescriptorAt at hdescriptor
          rw [findEndpoint, if_pos hdescriptor, if_pos htype]
  | next hskipped hother _ ih =>
      have htwo := two_le_toNat hskipped.right
      unfold DescriptorAt at hskipped
      cases rounds with
      | zero => exact absurd hskipped.left (by omega)
      | succ rounds =>
          rw [findEndpoint, if_pos hskipped, if_neg hother]
          exact ih hdescriptor htype (by omega)

/-!
# The standard descriptor
-/

theorem transferType_eq (attributes : UInt8) :
    (match (attributes &&& 0x03).toNat with
      | 0 => EndpointKind.control
      | 1 => EndpointKind.isochronous
      | 2 => EndpointKind.bulk
      | _ => EndpointKind.interrupt) = transferType attributes := by
  have hlow : (attributes &&& 0x03).toNat = attributes.toNat % 4 := by
    rw [UInt8.toNat_and]
    exact Nat.and_two_pow_sub_one_eq_mod attributes.toNat 2
  have hrange : attributes.toNat % 4 < 4 := Nat.mod_lt _ (by decide)
  rw [hlow]
  unfold transferType
  generalize attributes.toNat % 4 = n at hrange
  match n, hrange with
  | 0, _ => rfl
  | 1, _ => rfl
  | 2, _ => rfl
  | 3, _ => rfl

theorem parseStandard_eq (desc : Bytes) :
    parseStandard desc =
      if 7 ≤ desc.length ∧ byteAt desc 1 = 5 then some (descriptorAt desc 0) else none := by
  unfold parseStandard
  by_cases h : 7 ≤ desc.length ∧ byteAt desc 1 = 5
  · have hfits : ¬ (desc.length < 7 ∨ byteAt desc 1 ≠ 5) :=
      not_or.mpr ⟨Nat.not_lt_of_le h.left, not_not_intro h.right⟩
    rw [if_pos h, if_neg hfits]
    exact congrArg
      (fun kind => some (EndpointInfo.mk kind (le16 (byteAt desc 4) (byteAt desc 5))
        (byteAt desc 6)))
      (transferType_eq (byteAt desc 3))
  · rw [if_neg h, if_pos]
    rcases not_and_or.mp h with hlen | htype
    · exact Or.inl (Nat.lt_of_not_le hlen)
    · exact Or.inr htype

/-!
# The descriptor that is parsed again
-/

def inside (desc : Bytes) (i : Nat) : Bytes :=
  (desc.take (limit desc)).drop i

theorem inside_length (desc : Bytes) (i : Nat) : (inside desc i).length = limit desc - i := by
  unfold inside
  rw [List.length_drop, List.length_take_of_le (limit_le desc)]

theorem byteAt_inside {desc : Bytes} {i k : Nat} (hk : i + k < limit desc) :
    byteAt (inside desc i) k = byteAt desc (i + k) := by
  unfold byteAt inside
  rw [List.getD_eq_getElem?_getD, List.getD_eq_getElem?_getD, List.getElem?_drop,
    List.getElem?_take_of_lt hk]

theorem FirstEndpoint.inside_type {desc : Bytes} {i : Nat} (h : FirstEndpoint desc i) :
    byteAt (inside desc i) 1 = 5 := by
  have hdescriptor := h.descriptor.left
  rw [byteAt_inside (by omega)]
  exact h.type

theorem FirstEndpoint.inside_not_configuration {desc : Bytes} {i : Nat}
    (h : FirstEndpoint desc i) : ¬ IsConfiguration (inside desc i) := by
  intro hconfiguration
  have htype := hconfiguration.right.right
  rw [h.inside_type] at htype
  cases htype

theorem FirstEndpoint.parseStandard_inside {desc : Bytes} {i : Nat} (h : FirstEndpoint desc i) :
    parseStandard (inside desc i) =
      if i + 7 ≤ limit desc then some (descriptorAt desc i) else none := by
  rw [parseStandard_eq, inside_length]
  by_cases hlen : i + 7 ≤ limit desc
  · rw [if_pos hlen, if_pos ⟨by omega, h.inside_type⟩]
    unfold descriptorAt
    rw [byteAt_inside (by omega), byteAt_inside (by omega), byteAt_inside (by omega),
      byteAt_inside (by omega)]
  · rw [if_neg hlen, if_neg fun hboth => hlen (by omega)]

/-!
# Parsing
-/

def found (desc : Bytes) : Option Nat :=
  findEndpoint desc (limit desc) desc.length (byteAt desc 0).toNat

theorem found_some {desc : Bytes} {i : Nat} (h : found desc = some i) :
    FirstEndpoint desc i := by
  rcases findEndpoint_walk h with ⟨hwalk, hdescriptor, htype⟩
  exact ⟨hwalk, hdescriptor, htype⟩

theorem IsConfiguration.rounds {desc : Bytes} (h : IsConfiguration desc) {rounds : Nat}
    (hrounds : desc.length ≤ rounds) : limit desc < (byteAt desc 0).toNat + rounds := by
  have hlimit := limit_le desc
  have htwo := two_le_toNat h.right.left
  omega

theorem FirstEndpoint.found {desc : Bytes} {i : Nat} (h : FirstEndpoint desc i)
    (hconfiguration : IsConfiguration desc) : EndpointInfo.found desc = some i :=
  findEndpoint_of_walk h.walked h.descriptor h.type
    (hconfiguration.rounds (Nat.le_refl _))

theorem parse_configuration {desc : Bytes} (h : IsConfiguration desc) :
    parse desc = (found desc).bind fun i => parseStandard (inside desc i) := by
  have hguard : 4 ≤ desc.length ∧ 2 ≤ byteAt desc 0 ∧ byteAt desc 1 = 2 := h
  unfold parse
  rw [if_pos hguard]
  dsimp only
  split
  · rename_i i hi
    have hfound : found desc = some i := hi
    rw [hfound]
    rfl
  · rename_i hnone
    have hfound : found desc = none := hnone
    rw [hfound]
    rfl

theorem parse_other {desc : Bytes} (h : ¬ IsConfiguration desc) :
    parse desc = parseStandard desc :=
  if_neg h

theorem checked_isConfiguration (desc : Bytes) :
    Checked.isConfiguration desc = some (decide (IsConfiguration desc)) := by
  unfold Checked.isConfiguration IsConfiguration
  by_cases hlen : 4 ≤ desc.length
  · simp only [if_pos hlen, Option.bind_eq_bind]
    rw [Checked.getElem?_byteAt (by omega), Option.bind_some,
      Checked.getElem?_byteAt (by omega), Option.bind_some]
    by_cases htwo : 2 ≤ byteAt desc 0
    · rw [if_pos htwo]
      simp [hlen, htwo, beq_eq_decide]
    · rw [if_neg htwo]
      simp [htwo]
  · rw [if_neg hlen]
    simp [hlen]

theorem checked_parseStandard (desc : Bytes) :
    Checked.parseStandard desc = some (parseStandard desc) := by
  unfold Checked.parseStandard parseStandard
  by_cases hlen : desc.length < 7
  · rw [if_pos hlen, if_pos (Or.inl hlen)]
    rfl
  · rw [if_neg hlen]
    simp only [Option.bind_eq_bind]
    rw [Checked.getElem?_byteAt (by omega), Option.bind_some]
    by_cases htype : byteAt desc 1 = 5
    · rw [if_neg (not_not_intro htype), if_neg (not_or.mpr ⟨hlen, not_not_intro htype⟩),
        Checked.getElem?_byteAt (by omega), Option.bind_some,
        Checked.getElem?_byteAt (by omega), Option.bind_some,
        Checked.getElem?_byteAt (by omega), Option.bind_some,
        Checked.getElem?_byteAt (by omega), Option.bind_some]
      rfl
    · rw [if_pos htype, if_pos (Or.inr htype)]
      rfl

theorem checked_parse_other {desc : Bytes} (h : ¬ IsConfiguration desc) (rounds calls : Nat) :
    Checked.parse rounds (calls + 1) desc = some (parse desc) := by
  rw [Checked.parse, checked_isConfiguration, decide_eq_false h, parse_other h,
    ← checked_parseStandard]
  rfl

theorem checked_parse {desc : Bytes} {rounds calls : Nat} (hrounds : desc.length < rounds)
    (hcalls : 2 ≤ calls) : Checked.parse rounds calls desc = some (parse desc) := by
  rcases Nat.exists_eq_add_of_le' hcalls with ⟨rest, rfl⟩
  by_cases h : IsConfiguration desc
  · have hlen := h.left
    have hstart : (byteAt desc 0).toNat < 256 := UInt8.toNat_lt _
    rw [Checked.parse, checked_isConfiguration, decide_eq_true h, parse_configuration h]
    simp only [Option.bind_eq_bind, Option.bind_some, if_true]
    rw [Checked.getElem?_byteAt (by omega), Option.bind_some,
      Checked.getElem?_byteAt (by omega), Option.bind_some,
      Checked.getElem?_byteAt (by omega), Option.bind_some]
    have hloop : Checked.findEndpoint desc (limit desc) rounds (byteAt desc 0).toNat =
        some (found desc) :=
      checked_findEndpoint (by omega) (h.rounds (by omega)) (h.rounds (Nat.le_refl _)) (by omega)
    show (Checked.findEndpoint desc (limit desc) rounds _).bind _ = _
    rw [hloop, Option.bind_some]
    cases hfound : found desc with
    | none => rfl
    | some i =>
        have hfirst := found_some hfound
        have hdescriptor := hfirst.descriptor.left
        have hslice : slice desc i (limit desc) = some (inside desc i) := by
          rw [slice_of_le (by omega) (limit_le desc), ← List.drop_take]
          rfl
        show (match slice desc i (limit desc) with
          | none => some none
          | some inner => Checked.parse rounds (rest + 1) inner) = _
        rw [hslice]
        show Checked.parse rounds (rest + 1) (inside desc i) = _
        rw [checked_parse_other hfirst.inside_not_configuration,
          parse_other hfirst.inside_not_configuration]
        rfl
  · exact checked_parse_other h rounds (rest + 1)

/--
Parsing finishes without a panic, and it is the reference walk: inside a
configuration the seven bytes at the first endpoint descriptor, on any other
bytes the seven at the front.
-/
theorem parse_reference (desc : Bytes) :
    (forall rounds calls, desc.length < rounds -> 2 ≤ calls ->
      Checked.parse rounds calls desc = some (parse desc)) ∧
    (IsConfiguration desc ->
      (forall i, FirstEndpoint desc i ->
        parse desc = if i + 7 ≤ limit desc then some (descriptorAt desc i) else none) ∧
      ((forall i, ¬ FirstEndpoint desc i) -> parse desc = none)) ∧
    (¬ IsConfiguration desc ->
      parse desc =
        if 7 ≤ desc.length ∧ byteAt desc 1 = 5 then some (descriptorAt desc 0) else none) := by
  refine ⟨?_, ?_, ?_⟩
  · intro rounds calls hrounds hcalls
    exact checked_parse hrounds hcalls
  · intro hconfiguration
    rw [parse_configuration hconfiguration]
    constructor
    · intro i hfirst
      rw [hfirst.found hconfiguration]
      exact hfirst.parseStandard_inside
    · intro hnone
      cases hfound : found desc with
      | none => rfl
      | some i => exact absurd (found_some hfound) (hnone i)
  · intro hother
    rw [parse_other hother, parseStandard_eq]

/-- An endpoint of three bytes at the end of a configuration, as the tests have it. -/
example : parse [9, 2, 12, 0, 0, 0, 0, 0, 0, 7, 5, 0x81] = none := by decide

end EndpointInfo

end Hci
end UsbIp
