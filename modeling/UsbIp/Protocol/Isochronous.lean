import UsbIp.Foundation.Checked
import UsbIp.Foundation.Copies
import UsbIp.Protocol.Wire

/-!
# Isochronous IN data

The server packs the data of isochronous packets back to back, and
`unpack_iso_in` spreads it out to the offsets of the packets.  Its loop carries
a cursor over the packed bytes; the packets may come in any order, be empty and
lie over each other.  Unpacking is here a list of copies into a zeroed buffer,
one for each packet, and the last copy over a byte decides it.
-/

namespace UsbIp
namespace Protocol

open Foundation

/-- `out.get_mut(start..stop)?.copy_from_slice(src)`, for a slice of the same length. -/
def copyFromSlice (out : Bytes) (start stop : Nat) (src : Bytes) : Option Bytes :=
  if stop ≤ out.length then some (copyInto out ⟨start, src⟩) else none

def unpackPackets (packed : Bytes) :
    List IsoPacketDescriptor -> Nat -> Bytes -> Option Bytes
  | [], _, out => some out
  | p :: packets, cursor, out => do
      let len := p.actualLength.toNat
      let start := p.offset.toNat
      let src ← slice packed cursor (cursor + len)
      let out ← copyFromSlice out start (start + len) src
      unpackPackets packed packets (cursor + len) out

def unpackIsoIn (packed : Bytes) (packets : List IsoPacketDescriptor)
    (bufferLength : Nat) : Option Bytes :=
  unpackPackets packed packets 0 (List.replicate bufferLength 0)

/-!
# Packets as copies
-/

/-- The sum of the actual lengths of the packets before the `k`-th. -/
def packedBefore : List IsoPacketDescriptor -> Nat -> Nat
  | [], _ => 0
  | _ :: _, 0 => 0
  | p :: packets, k + 1 => p.actualLength.toNat + packedBefore packets k

def IsoPacketDescriptor.Covers (p : IsoPacketDescriptor) (i : Nat) : Prop :=
  p.offset.toNat ≤ i ∧ i < p.offset.toNat + p.actualLength.toNat

instance (p : IsoPacketDescriptor) (i : Nat) : Decidable (p.Covers i) :=
  inferInstanceAs (Decidable (_ ∧ _))

def IsoPacketDescriptor.copy (p : IsoPacketDescriptor) (packed : Bytes) (cursor : Nat) :
    Copy UInt8 :=
  ⟨p.offset.toNat, (packed.drop cursor).take p.actualLength.toNat⟩

def packetCopies (packed : Bytes) : List IsoPacketDescriptor -> Nat -> List (Copy UInt8)
  | [], _ => []
  | p :: packets, cursor =>
      p.copy packed cursor :: packetCopies packed packets (cursor + p.actualLength.toNat)

/-- Some packet has its data or its target out of range. -/
def Misplaced (packedLength bufferLength cursor : Nat)
    (packets : List IsoPacketDescriptor) : Prop :=
  exists k p, packets[k]? = some p ∧
    (packedLength < cursor + packedBefore packets (k + 1) ∨
      bufferLength < p.offset.toNat + p.actualLength.toNat)

@[simp] theorem packedBefore_zero (packets : List IsoPacketDescriptor) :
    packedBefore packets 0 = 0 := by
  cases packets with
  | nil => rfl
  | cons p packets => rfl

@[simp] theorem packedBefore_succ_cons (p : IsoPacketDescriptor)
    (packets : List IsoPacketDescriptor) (k : Nat) :
    packedBefore (p :: packets) (k + 1) =
      p.actualLength.toNat + packedBefore packets k := rfl

theorem misplaced_cons {packedLength bufferLength cursor : Nat} {p : IsoPacketDescriptor}
    {packets : List IsoPacketDescriptor} :
    Misplaced packedLength bufferLength cursor (p :: packets) <->
      packedLength < cursor + p.actualLength.toNat ∨
        bufferLength < p.offset.toNat + p.actualLength.toNat ∨
        Misplaced packedLength bufferLength (cursor + p.actualLength.toNat) packets := by
  constructor
  · intro h
    rcases h with ⟨k, q, hk, hout⟩
    cases k with
    | zero =>
        cases hk
        rw [packedBefore_succ_cons, packedBefore_zero, Nat.add_zero] at hout
        rcases hout with hout | hout
        · exact Or.inl hout
        · exact Or.inr (Or.inl hout)
    | succ k =>
        rw [packedBefore_succ_cons, ← Nat.add_assoc] at hout
        exact Or.inr (Or.inr ⟨k, q, hk, hout⟩)
  · intro h
    rcases h with h | h | ⟨k, q, hk, hout⟩
    · refine ⟨0, p, rfl, Or.inl ?_⟩
      rw [packedBefore_succ_cons, packedBefore_zero, Nat.add_zero]
      exact h
    · exact ⟨0, p, rfl, Or.inr h⟩
    · refine ⟨k + 1, q, hk, ?_⟩
      rw [packedBefore_succ_cons, ← Nat.add_assoc]
      exact hout

theorem IsoPacketDescriptor.copy_piece_length {p : IsoPacketDescriptor} {packed : Bytes}
    {cursor : Nat} (h : cursor + p.actualLength.toNat ≤ packed.length) :
    (p.copy packed cursor).piece.length = p.actualLength.toNat := by
  unfold IsoPacketDescriptor.copy
  rw [List.length_take, List.length_drop]
  omega

theorem unpackPackets_cons {packed out : Bytes} {p : IsoPacketDescriptor}
    {packets : List IsoPacketDescriptor} {cursor : Nat} :
    unpackPackets packed (p :: packets) cursor out =
      if cursor + p.actualLength.toNat ≤ packed.length ∧
          p.offset.toNat + p.actualLength.toNat ≤ out.length then
        unpackPackets packed packets (cursor + p.actualLength.toNat)
          (copyInto out (p.copy packed cursor))
      else
        none := by
  rw [unpackPackets]
  by_cases hpacked : cursor + p.actualLength.toNat ≤ packed.length
  · rw [slice_of_le (Nat.le_add_right _ _) hpacked, Nat.add_sub_cancel_left]
    by_cases hbuffer : p.offset.toNat + p.actualLength.toNat ≤ out.length
    · rw [if_pos ⟨hpacked, hbuffer⟩]
      show (copyFromSlice out _ _ _).bind _ = _
      rw [copyFromSlice, if_pos hbuffer]
      rfl
    · rw [if_neg fun h => hbuffer h.right]
      show (copyFromSlice out _ _ _).bind _ = _
      rw [copyFromSlice, if_neg hbuffer]
      rfl
  · have hslice : slice packed cursor (cursor + p.actualLength.toNat) = none :=
      if_neg fun h => hpacked h.right
    rw [hslice, if_neg fun h => hpacked h.left]
    rfl

/-!
# The whole loop
-/

theorem unpackPackets_none {packets : List IsoPacketDescriptor} {packed out : Bytes}
    {cursor : Nat} :
    unpackPackets packed packets cursor out = none <->
      Misplaced packed.length out.length cursor packets := by
  induction packets generalizing cursor out with
  | nil =>
      constructor
      · intro h
        cases h
      · intro h
        rcases h with ⟨k, p, hk, _⟩
        cases hk
  | cons p packets ih =>
      rw [unpackPackets_cons, misplaced_cons]
      split
      · rename_i h
        have hlen : (p.copy packed cursor).Fits out.length := by
          unfold Copy.Fits
          rw [IsoPacketDescriptor.copy_piece_length h.left]
          exact h.right
        rw [ih, copyInto_length hlen]
        constructor
        · intro hrest
          exact Or.inr (Or.inr hrest)
        · intro hcases
          rcases hcases with hpacked | hbuffer | hrest
          · exact absurd h.left (Nat.not_le_of_lt hpacked)
          · exact absurd h.right (Nat.not_le_of_lt hbuffer)
          · exact hrest
      · rename_i h
        constructor
        · intro _
          rcases not_and_or.mp h with hpacked | hbuffer
          · exact Or.inl (Nat.lt_of_not_le hpacked)
          · exact Or.inr (Or.inl (Nat.lt_of_not_le hbuffer))
        · intro _
          rfl

theorem unpackPackets_some {packets : List IsoPacketDescriptor} {packed out result : Bytes}
    {cursor : Nat} (h : unpackPackets packed packets cursor out = some result) :
    result = copyAll out (packetCopies packed packets cursor) ∧
      forall c, c ∈ packetCopies packed packets cursor -> c.Fits out.length := by
  induction packets generalizing cursor out with
  | nil =>
      cases h
      exact ⟨rfl, fun c hc => absurd hc List.not_mem_nil⟩
  | cons p packets ih =>
      rw [unpackPackets_cons] at h
      split at h
      · rename_i hbounds
        have hfits : (p.copy packed cursor).Fits out.length := by
          unfold Copy.Fits
          rw [IsoPacketDescriptor.copy_piece_length hbounds.left]
          exact hbounds.right
        rcases ih h with ⟨hresult, hrest⟩
        rw [copyInto_length hfits] at hrest
        constructor
        · exact hresult
        · intro c hc
          rcases List.mem_cons.mp hc with rfl | hmem
          · exact hfits
          · exact hrest c hmem
      · cases h

theorem packetCopies_getElem? {packed : Bytes} {packets : List IsoPacketDescriptor}
    {cursor k : Nat} :
    (packetCopies packed packets cursor)[k]? =
      packets[k]?.map fun p => p.copy packed (cursor + packedBefore packets k) := by
  induction packets generalizing cursor k with
  | nil => rfl
  | cons p packets ih =>
      cases k with
      | zero => rfl
      | succ k =>
          rw [packedBefore_succ_cons, ← Nat.add_assoc]
          exact ih

theorem not_misplaced {packedLength bufferLength k : Nat} {p : IsoPacketDescriptor}
    {packets : List IsoPacketDescriptor}
    (h : ¬ Misplaced packedLength bufferLength 0 packets) (hk : packets[k]? = some p) :
    packedBefore packets (k + 1) ≤ packedLength ∧
      p.offset.toNat + p.actualLength.toNat ≤ bufferLength := by
  constructor
  · apply Nat.le_of_not_lt
    intro hlt
    exact h ⟨k, p, hk, Or.inl (by rwa [Nat.zero_add])⟩
  · apply Nat.le_of_not_lt
    intro hlt
    exact h ⟨k, p, hk, Or.inr hlt⟩

theorem packedBefore_succ {packets : List IsoPacketDescriptor} {k : Nat}
    {p : IsoPacketDescriptor} (hk : packets[k]? = some p) :
    packedBefore packets (k + 1) = packedBefore packets k + p.actualLength.toNat := by
  induction packets generalizing k with
  | nil => cases hk
  | cons q packets ih =>
      cases k with
      | zero =>
          cases hk
          rw [packedBefore_succ_cons, packedBefore_zero, packedBefore_zero, Nat.zero_add,
            Nat.add_zero]
      | succ k =>
          have hrest := ih hk
          rw [packedBefore_succ_cons, packedBefore_succ_cons, hrest, Nat.add_assoc]

theorem IsoPacketDescriptor.copy_covers {p : IsoPacketDescriptor} {packed : Bytes}
    {cursor i : Nat} (h : cursor + p.actualLength.toNat ≤ packed.length) :
    (p.copy packed cursor).Covers i <-> p.Covers i := by
  unfold Copy.Covers IsoPacketDescriptor.Covers
  rw [IsoPacketDescriptor.copy_piece_length h]
  rfl

theorem mem_packetCopies {packed : Bytes} {packets : List IsoPacketDescriptor}
    {c : Copy UInt8} (h : c ∈ packetCopies packed packets 0) :
    exists (k : Nat) (p : IsoPacketDescriptor), packets[k]? = some p ∧
      c = p.copy packed (packedBefore packets k) := by
  rcases List.mem_iff_getElem?.mp h with ⟨k, hk⟩
  rw [packetCopies_getElem?, Option.map_eq_some_iff, Nat.zero_add] at hk
  rcases hk with ⟨p, hp, rfl⟩
  exact ⟨k, p, hp, rfl⟩

/-!
# Packing
-/

/-- What a server sends of a buffer: the parts the packets cover, back to back. -/
def packIsoIn (buffer : Bytes) (packets : List IsoPacketDescriptor) : Bytes :=
  packets.flatMap fun p => (buffer.drop p.offset.toNat).take p.actualLength.toNat

def Inside (packets : List IsoPacketDescriptor) (bufferLength : Nat) : Prop :=
  forall p, p ∈ packets -> p.offset.toNat + p.actualLength.toNat ≤ bufferLength

theorem part_length {buffer : Bytes} {p : IsoPacketDescriptor}
    (h : p.offset.toNat + p.actualLength.toNat ≤ buffer.length) :
    ((buffer.drop p.offset.toNat).take p.actualLength.toNat).length =
      p.actualLength.toNat := by
  rw [List.length_take, List.length_drop]
  omega

theorem packIsoIn_length {buffer : Bytes} {packets : List IsoPacketDescriptor}
    (h : Inside packets buffer.length) :
    (packIsoIn buffer packets).length = packedBefore packets packets.length := by
  induction packets with
  | nil => rfl
  | cons p packets ih =>
      have hrest := ih fun q hq => h q (List.mem_cons_of_mem p hq)
      show (_ ++ packIsoIn buffer packets).length = _
      rw [List.length_append, hrest, part_length (h p List.mem_cons_self)]
      rfl

theorem packedBefore_le (packets : List IsoPacketDescriptor) (k : Nat) :
    packedBefore packets k ≤ packedBefore packets packets.length := by
  induction packets generalizing k with
  | nil => exact Nat.le_refl 0
  | cons p packets ih =>
      cases k with
      | zero => exact Nat.zero_le _
      | succ k => exact Nat.add_le_add_left (ih k) _

theorem packIsoIn_part {buffer : Bytes} {packets : List IsoPacketDescriptor} {k : Nat}
    {p : IsoPacketDescriptor} (h : Inside packets buffer.length) (hk : packets[k]? = some p) :
    ((packIsoIn buffer packets).drop (packedBefore packets k)).take p.actualLength.toNat =
      (buffer.drop p.offset.toNat).take p.actualLength.toNat := by
  induction packets generalizing k with
  | nil => cases hk
  | cons q packets ih =>
      have hpart := part_length (h q List.mem_cons_self)
      show ((_ ++ packIsoIn buffer packets).drop _).take _ = _
      cases k with
      | zero =>
          cases hk
          rw [packedBefore_zero, List.drop_zero]
          conv => lhs; rw [← hpart, List.take_left]
      | succ k =>
          rw [packedBefore_succ_cons, ← List.drop_drop]
          conv => lhs; rw [← hpart, List.drop_left]
          exact ih (fun r hr => h r (List.mem_cons_of_mem q hr)) hk

theorem packIsoIn_not_misplaced {buffer : Bytes} {packets : List IsoPacketDescriptor}
    (h : Inside packets buffer.length) :
    ¬ Misplaced (packIsoIn buffer packets).length buffer.length 0 packets := by
  intro hout
  rcases hout with ⟨k, p, hk, hpacked | hbuffer⟩
  · have hle := packedBefore_le packets (k + 1)
    rw [packIsoIn_length h] at hpacked
    omega
  · have hin := h p (List.mem_of_getElem? hk)
    omega

/-!
# What unpacking does
-/

theorem unpackIsoIn_none {packed : Bytes} {packets : List IsoPacketDescriptor}
    {bufferLength : Nat} :
    unpackIsoIn packed packets bufferLength = none <->
      Misplaced packed.length bufferLength 0 packets := by
  unfold unpackIsoIn
  rw [unpackPackets_none, List.length_replicate]

/-- What is unpacked is the last copy over each byte, and zero where there is none. -/
theorem unpackIsoIn_some {packed out : Bytes} {packets : List IsoPacketDescriptor}
    {bufferLength : Nat} (h : unpackIsoIn packed packets bufferLength = some out) :
    ¬ Misplaced packed.length bufferLength 0 packets ∧ out.length = bufferLength ∧
      forall i, i < bufferLength ->
        out[i]? = (lastWritten (packetCopies packed packets 0) i).or (some 0) := by
  have hplaced : ¬ Misplaced packed.length bufferLength 0 packets := by
    intro hout
    rw [unpackIsoIn_none.mpr hout] at h
    cases h
  rcases unpackPackets_some h with ⟨rfl, hfits⟩
  refine ⟨hplaced, ?_, ?_⟩
  · rw [copyAll_length hfits, List.length_replicate]
  · intro i hi
    rw [copyAll_getElem? hfits, List.getElem?_replicate, if_pos hi]

theorem unpackIsoIn_covered {packed out : Bytes} {packets : List IsoPacketDescriptor}
    {bufferLength k i : Nat} {p : IsoPacketDescriptor}
    (h : unpackIsoIn packed packets bufferLength = some out)
    (hk : packets[k]? = some p) (hcovers : p.Covers i)
    (hlast : forall j q, k < j -> packets[j]? = some q -> ¬ q.Covers i) :
    exists b, packed[packedBefore packets k + (i - p.offset.toNat)]? = some b ∧
      out[i]? = some b := by
  rcases unpackIsoIn_some h with ⟨hplaced, _, hbytes⟩
  have hrange := not_misplaced hplaced hk
  rw [packedBefore_succ hk] at hrange
  have hinside : i - p.offset.toNat < p.actualLength.toNat := by
    unfold IsoPacketDescriptor.Covers at hcovers
    omega
  have hlt : packedBefore packets k + (i - p.offset.toNat) < packed.length := by
    omega
  have hi : i < bufferLength := by
    unfold IsoPacketDescriptor.Covers at hcovers
    omega
  have hcopy : (packetCopies packed packets 0)[k]? =
      some (p.copy packed (packedBefore packets k)) := by
    rw [packetCopies_getElem?, hk, Nat.zero_add]
    rfl
  have hwritten := lastWritten_of_last hcopy
    ((IsoPacketDescriptor.copy_covers hrange.left).mpr hcovers) (by
      intro j c hj hc hcov
      rw [packetCopies_getElem?, Option.map_eq_some_iff, Nat.zero_add] at hc
      rcases hc with ⟨q, hq, rfl⟩
      have hqrange := (not_misplaced hplaced hq).left
      rw [packedBefore_succ hq] at hqrange
      exact hlast j q hj hq ((IsoPacketDescriptor.copy_covers hqrange).mp hcov))
  refine ⟨packed[packedBefore packets k + (i - p.offset.toNat)],
    List.getElem?_eq_getElem hlt, ?_⟩
  rw [hbytes i hi, hwritten]
  show (((packed.drop (packedBefore packets k)).take p.actualLength.toNat)[
    i - p.offset.toNat]?).or (some 0) = _
  rw [List.getElem?_take_of_lt hinside, List.getElem?_drop, List.getElem?_eq_getElem hlt,
    Option.some_or]

theorem unpackIsoIn_uncovered {packed out : Bytes} {packets : List IsoPacketDescriptor}
    {bufferLength i : Nat} (h : unpackIsoIn packed packets bufferLength = some out)
    (hi : i < bufferLength) (hnone : forall p, p ∈ packets -> ¬ p.Covers i) :
    out[i]? = some 0 := by
  rcases unpackIsoIn_some h with ⟨hplaced, _, hbytes⟩
  rw [hbytes i hi, lastWritten_eq_none, Option.none_or]
  intro c hc hcovers
  rcases mem_packetCopies hc with ⟨k, p, hk, rfl⟩
  have hrange := (not_misplaced hplaced hk).left
  rw [packedBefore_succ hk] at hrange
  exact hnone p (List.mem_of_getElem? hk) ((IsoPacketDescriptor.copy_covers hrange).mp hcovers)

theorem packIsoIn_written {buffer : Bytes} {packets : List IsoPacketDescriptor} {c : Copy UInt8}
    {i : Nat} (h : Inside packets buffer.length)
    (hc : c ∈ packetCopies (packIsoIn buffer packets) packets 0) (hcovers : c.Covers i) :
    c.written i = buffer[i]? := by
  rcases mem_packetCopies hc with ⟨k, p, hk, rfl⟩
  have hrange := (not_misplaced (packIsoIn_not_misplaced h) hk).left
  rw [packedBefore_succ hk] at hrange
  have hp := (IsoPacketDescriptor.copy_covers hrange).mp hcovers
  have hinside : i - p.offset.toNat < p.actualLength.toNat := by
    unfold IsoPacketDescriptor.Covers at hp
    omega
  rw [Copy.written_of_covers hcovers]
  show (((packIsoIn buffer packets).drop (packedBefore packets k)).take
    p.actualLength.toNat)[i - p.offset.toNat]? = buffer[i]?
  rw [packIsoIn_part h hk, List.getElem?_take_of_lt hinside, List.getElem?_drop,
    Nat.add_sub_cancel' hp.left]

theorem unpackIsoIn_pack {buffer : Bytes} {packets : List IsoPacketDescriptor}
    (h : Inside packets buffer.length) :
    exists out, unpackIsoIn (packIsoIn buffer packets) packets buffer.length = some out ∧
      forall p i, p ∈ packets -> p.Covers i -> out[i]? = buffer[i]? := by
  have hplaced := packIsoIn_not_misplaced h
  cases hout : unpackIsoIn (packIsoIn buffer packets) packets buffer.length with
  | none => exact absurd (unpackIsoIn_none.mp hout) hplaced
  | some out =>
      rcases unpackIsoIn_some hout with ⟨_, _, hbytes⟩
      refine ⟨out, rfl, ?_⟩
      intro p i hp hcovers
      have hi : i < buffer.length := Nat.lt_of_lt_of_le hcovers.right (h p hp)
      rw [hbytes i hi, List.getElem?_eq_getElem hi, lastWritten_of_agree, Option.some_or]
      · intro c hc hcov
        rw [packIsoIn_written h hc hcov, List.getElem?_eq_getElem hi]
      · rcases List.mem_iff_getElem?.mp hp with ⟨k, hk⟩
        have hrange := (not_misplaced hplaced hk).left
        rw [packedBefore_succ hk] at hrange
        refine ⟨p.copy (packIsoIn buffer packets) (packedBefore packets k), ?_,
          (IsoPacketDescriptor.copy_covers hrange).mpr hcovers⟩
        apply List.mem_of_getElem? (i := k)
        rw [packetCopies_getElem?, hk, Nat.zero_add]
        rfl

/--
Unpacking fails exactly if a packet is out of range; otherwise each byte comes
from the last packet over it or is zero, and unpacking undoes packing.
-/
theorem unpackIsoIn_inverts (packed : Bytes) (packets : List IsoPacketDescriptor)
    (bufferLength : Nat) :
    (unpackIsoIn packed packets bufferLength = none <->
      exists k p, packets[k]? = some p ∧
        (packed.length < packedBefore packets (k + 1) ∨
          bufferLength < p.offset.toNat + p.actualLength.toNat)) ∧
    (forall out, unpackIsoIn packed packets bufferLength = some out ->
      out.length = bufferLength ∧
      (forall k p i, packets[k]? = some p -> p.Covers i ->
        (forall j q, k < j -> packets[j]? = some q -> ¬ q.Covers i) ->
        exists b, packed[packedBefore packets k + (i - p.offset.toNat)]? = some b ∧
          out[i]? = some b) ∧
      (forall i, i < bufferLength -> (forall p, p ∈ packets -> ¬ p.Covers i) ->
        out[i]? = some 0)) ∧
    (forall buffer : Bytes, Inside packets buffer.length ->
      exists out, unpackIsoIn (packIsoIn buffer packets) packets buffer.length = some out ∧
        forall p i, p ∈ packets -> p.Covers i -> out[i]? = buffer[i]?) := by
  refine ⟨?_, ?_, ?_⟩
  · rw [unpackIsoIn_none]
    unfold Misplaced
    simp only [Nat.zero_add]
  · intro out hout
    refine ⟨(unpackIsoIn_some hout).right.left, ?_, ?_⟩
    · intro k p i hk hcovers hlast
      exact unpackIsoIn_covered hout hk hcovers hlast
    · intro i hi hnone
      exact unpackIsoIn_uncovered hout hi hnone
  · intro buffer hinside
    exact unpackIsoIn_pack hinside

/-- The packet at the higher offset comes first. -/
example : unpackIsoIn [1, 2, 3] [⟨2, 4, 2, 0⟩, ⟨0, 2, 1, 0⟩] 5 = some [3, 0, 1, 2, 0] := by
  decide

end Protocol
end UsbIp
