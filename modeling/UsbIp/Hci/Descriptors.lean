import Mathlib.Data.List.Flatten
import UsbIp.Foundation.Sections
import UsbIp.Hci.HideUas

/-!
# Configuration descriptors

A configuration is a header and a list of descriptors, each of which begins with
its own length.  An interface descriptor starts a group of descriptors, and so
does an interface association; a group ends where the next one starts.  Here is
what `hideUas` is for in these terms: it takes out the UAS groups whose interface
has another group to fall back to.  The byte walk of `hideUas` does exactly that.
-/

namespace UsbIp
namespace Hci

open Foundation

def IsDescriptor (d : Bytes) : Prop :=
  2 ≤ d.length ∧ (byteAt d 0).toNat = d.length

structure Configuration where
  header : Bytes
  descriptors : List Bytes
  header_length : (byteAt header 0).toNat = header.length
  header_long : 9 ≤ header.length
  header_type : byteAt header 1 = 2
  descriptors_ok : forall d, d ∈ descriptors -> IsDescriptor d

def Configuration.bytes (c : Configuration) : Bytes :=
  c.header ++ c.descriptors.flatten

def isInterface (d : Bytes) : Bool :=
  byteAt d 1 == 4

def isAssociation (d : Bytes) : Bool :=
  byteAt d 1 == 0x0b

def startsGroup (d : Bytes) : Bool :=
  isInterface d || isAssociation d

def groupHead (g : List Bytes) : Bytes :=
  g.headD []

def Configuration.groups (c : Configuration) : List (List Bytes) :=
  sections startsGroup c.descriptors

def isSetting (number : UInt8) (g : List Bytes) : Bool :=
  isInterface (groupHead g) && byteAt (groupHead g) 2 == number

/-- The interface of the group is of class 08, subclass 06 and protocol 62. -/
def isUasSetting (g : List Bytes) : Bool :=
  isInterface (groupHead g) && byteAt (groupHead g) 5 == 0x08 &&
    byteAt (groupHead g) 6 == 0x06 && byteAt (groupHead g) 7 == 0x62

/-- A UAS group that shares its interface number with a group that is not UAS. -/
def isHidden (groups : List (List Bytes)) (g : List Bytes) : Bool :=
  isUasSetting g &&
    groups.any fun g' => isSetting (byteAt (groupHead g) 2) g' && !isUasSetting g'

def Configuration.hidden (c : Configuration) : List (List Bytes) :=
  c.groups.filter (isHidden c.groups)

/-- The bytes of a configuration without the hidden groups. -/
def Configuration.visible (c : Configuration) : Bytes :=
  c.header ++ (leading startsGroup c.descriptors).flatten ++
    (c.groups.filter fun g => !isHidden c.groups g).flatten.flatten

/-- Every interface descriptor has all of its fields. -/
def Configuration.InterfacesFull (c : Configuration) : Prop :=
  forall d, d ∈ c.descriptors -> isInterface d = true -> 9 ≤ d.length

def Configuration.HasInterface (c : Configuration) (number : UInt8) : Prop :=
  exists d, d ∈ c.descriptors ∧ isInterface d = true ∧ byteAt d 2 = number

/-!
# Bytes of a descriptor
-/

theorem byteAt_drop (config : Bytes) (pos k : Nat) :
    byteAt (config.drop pos) k = byteAt config (pos + k) := by
  simp [byteAt, List.getD_eq_getElem?_getD, List.getElem?_drop]

theorem byteAt_append {front : Bytes} {k : Nat} (h : k < front.length) (rest : Bytes) :
    byteAt (front ++ rest) k = byteAt front k := by
  simp [byteAt, List.getD_eq_getElem?_getD, List.getElem?_append_left h]

theorem byteAt_of_drop {config front rest : Bytes} {pos k : Nat}
    (h : config.drop pos = front ++ rest) (hk : k < front.length) :
    byteAt config (pos + k) = byteAt front k := by
  rw [← byteAt_drop, h, byteAt_append hk]

theorem length_of_drop {config front rest : Bytes} {pos : Nat}
    (h : config.drop pos = front ++ rest) (hpos : 0 < front.length) :
    pos + front.length ≤ config.length := by
  have hlength := congrArg List.length h
  rw [List.length_drop, List.length_append] at hlength
  omega

theorem drop_of_drop {config front rest : Bytes} {pos : Nat}
    (h : config.drop pos = front ++ rest) : config.drop (pos + front.length) = rest := by
  rw [← List.drop_drop, h, List.drop_left]

/-!
# The walk
-/

/-- The byte range of a group at a position; an association has none. -/
def rangeAt (pos : Nat) (g : List Bytes) : ByteRange where
  start := pos
  stop := if isInterface (groupHead g) then pos + g.flatten.length else pos

def rangesOf : Nat -> List (List Bytes) -> List ByteRange
  | _, [] => []
  | pos, g :: gs => rangeAt pos g :: rangesOf (pos + g.flatten.length) gs

theorem extendLast_append (groups : List ByteRange) {g : ByteRange}
    (h : g.start ≠ g.stop) (stop : Nat) :
    extendLast (groups ++ [g]) stop = groups ++ [{ g with stop := stop }] := by
  simp [extendLast, h]

theorem extendLast_append_closed (groups : List ByteRange) (pos stop : Nat) :
    extendLast (groups ++ [{ start := pos, stop := pos }]) stop =
      groups ++ [{ start := pos, stop := pos }] := by
  simp [extendLast]

theorem extendLast_extendLast {groups : List ByteRange} {a : Nat}
    (h : forall g, g ∈ groups -> g.start < a) (b : Nat) :
    extendLast (extendLast groups a) b = extendLast groups b := by
  rcases List.eq_nil_or_concat groups with rfl | ⟨front, g, rfl⟩
  · rfl
  · by_cases hclosed : g.start = g.stop
    · have hg : g = { start := g.start, stop := g.start } := by
        cases g
        exact congrArg _ hclosed.symm
      rw [List.concat_eq_append, hg, extendLast_append_closed]
    · have hlt : g.start < a := h g (by simp)
      rw [List.concat_eq_append, extendLast_append _ hclosed, extendLast_append _ hclosed,
        extendLast_append _ (Nat.ne_of_lt hlt)]

theorem mem_extendLast {groups : List ByteRange} {stop : Nat} {g : ByteRange}
    (h : g ∈ extendLast groups stop) : exists g', g' ∈ groups ∧ g'.start = g.start := by
  rcases List.eq_nil_or_concat groups with rfl | ⟨front, last, rfl⟩
  · cases h
  · rw [List.concat_eq_append] at h ⊢
    by_cases hclosed : last.start = last.stop
    · refine ⟨g, ?_, rfl⟩
      simpa [extendLast, hclosed] using h
    · rw [extendLast_append _ hclosed] at h
      rcases List.mem_append.mp h with h | h
      · exact ⟨g, List.mem_append_left _ h, rfl⟩
      · rw [List.mem_singleton.mp h]
        exact ⟨last, by simp, rfl⟩

def walkOne (groups : List ByteRange) (i : Nat) (d : Bytes) : List ByteRange :=
  if byteAt d 1 = 4 then
    groups ++ [{ start := i, stop := i + d.length }]
  else if byteAt d 1 = 0x0b then
    groups ++ [{ start := i, stop := i }]
  else
    extendLast groups (i + d.length)

theorem groupsFrom_cons {config d rest : Bytes} {i : Nat} (hd : IsDescriptor d)
    (h : config.drop i = d ++ rest) (rounds : Nat) (groups : List ByteRange) :
    groupsFrom config (rounds + 1) i groups =
      groupsFrom config rounds (i + d.length) (walkOne groups i d) := by
  have hpos : 0 < d.length := by
    have := hd.left
    omega
  have hfits := length_of_drop h hpos
  have hlen : (byteAt config i).toNat = d.length := by
    rw [← hd.right]
    exact congrArg UInt8.toNat (byteAt_of_drop (k := 0) h hpos)
  have htype : byteAt config (i + 1) = byteAt d 1 := byteAt_of_drop h hd.left
  have hwell : ¬ (d.length < 2 ∨ config.length < i + d.length) := by
    have := hd.left
    omega
  rw [groupsFrom, if_pos (by omega)]
  simp only [hlen, if_neg hwell, htype]
  rfl

theorem groupsFrom_end {config : Bytes} {i : Nat} (h : config.drop i = []) (rounds : Nat)
    (groups : List ByteRange) : groupsFrom config (rounds + 1) i groups = some groups := by
  have hlength := congrArg List.length h
  rw [List.length_drop, List.length_nil] at hlength
  rw [groupsFrom, if_neg (by omega)]

/-- What the walk has found when it gets to position `i`. -/
structure Walked (groups : List ByteRange) (i : Nat) : Prop where
  starts : forall g, g ∈ groups -> g.start ≤ i
  last : extendLast groups i = groups

theorem Walked.start (i : Nat) : Walked [] i where
  starts := by simp
  last := rfl

theorem Walked.one {groups : List ByteRange} {i : Nat} (h : Walked groups i) {d : Bytes}
    (hd : 0 < d.length) : Walked (walkOne groups i d) (i + d.length) := by
  have hlt : forall g, g ∈ groups -> g.start < i + d.length := fun g hg => by
    have := h.starts g hg
    omega
  unfold walkOne
  split
  · constructor
    · intro g hg
      rcases List.mem_append.mp hg with hg | hg
      · exact Nat.le_of_lt (hlt g hg)
      · rw [List.mem_singleton.mp hg]
        exact Nat.le_add_right _ _
    · exact extendLast_append groups (Nat.ne_of_lt (Nat.lt_add_of_pos_right hd)) _
  · split
    · constructor
      · intro g hg
        rcases List.mem_append.mp hg with hg | hg
        · exact Nat.le_of_lt (hlt g hg)
        · rw [List.mem_singleton.mp hg]
          exact Nat.le_add_right _ _
      · exact extendLast_append_closed groups i _
    · constructor
      · intro g hg
        rcases mem_extendLast hg with ⟨g', hg', hstart⟩
        rw [← hstart]
        exact Nat.le_of_lt (hlt g' hg')
      · exact extendLast_extendLast hlt _

/-- The walk extends the last group so far, and then finds the other groups. -/
theorem groupsFrom_descriptors {config : Bytes} {ds : List Bytes} {rounds i : Nat}
    {groups : List ByteRange} (hds : forall d, d ∈ ds -> IsDescriptor d)
    (h : config.drop i = ds.flatten) (hrounds : ds.length < rounds)
    (hwalked : Walked groups i) :
    groupsFrom config rounds i groups =
      some (extendLast groups (i + (leading startsGroup ds).flatten.length) ++
        rangesOf (i + (leading startsGroup ds).flatten.length) (sections startsGroup ds)) := by
  induction ds generalizing rounds i groups with
  | nil =>
      cases rounds with
      | zero => cases hrounds
      | succ rounds =>
          rw [groupsFrom_end h]
          simp [leading, sections, rangesOf, hwalked.last]
  | cons d ds ih =>
      have hd := hds d List.mem_cons_self
      have hpos : 0 < d.length := by
        have := hd.left
        omega
      have hrest : forall d', d' ∈ ds -> IsDescriptor d' := fun d' hd' =>
        hds d' (List.mem_cons_of_mem d hd')
      rw [List.flatten_cons] at h
      cases rounds with
      | zero => cases hrounds
      | succ rounds =>
          rw [groupsFrom_cons hd h, ih hrest (drop_of_drop h) (by simpa using hrounds)
            (hwalked.one hpos)]
          have hsum : i + d.length + (leading startsGroup ds).flatten.length =
              i + (d :: leading startsGroup ds).flatten.length := by
            rw [List.flatten_cons, List.length_append, Nat.add_assoc]
          rw [hsum]
          cases hstarts : startsGroup d with
          | false =>
              have hother : walkOne groups i d = extendLast groups (i + d.length) := by
                simp [startsGroup, isInterface, isAssociation] at hstarts
                simp [walkOne, hstarts]
              have hlt : forall g, g ∈ groups -> g.start < i + d.length := fun g hg => by
                have := hwalked.starts g hg
                omega
              rw [hother, extendLast_extendLast hlt, leading_cons_other hstarts,
                sections_cons_other hstarts]
          | true =>
              rw [leading_cons_opens hstarts, sections_cons_opens hstarts]
              simp only [rangesOf, rangeAt, groupHead, List.headD_cons, List.flatten_nil,
                List.length_nil, Nat.add_zero, hwalked.last]
              by_cases hinterface : byteAt d 1 = 4
              · have hopen : walkOne groups i d =
                    groups ++ [{ start := i, stop := i + d.length }] := if_pos hinterface
                rw [hopen, extendLast_append groups
                  (Nat.ne_of_lt (Nat.lt_add_of_pos_right hpos))]
                simp [isInterface, hinterface]
              · have hassociation : byteAt d 1 = 0x0b := by
                  simpa [startsGroup, isInterface, isAssociation, hinterface] using hstarts
                have hclosed : walkOne groups i d = groups ++ [{ start := i, stop := i }] := by
                  rw [walkOne, if_neg hinterface, if_pos hassociation]
                rw [hclosed, extendLast_append_closed]
                simp [isInterface, hinterface]

/-!
# What is hidden

`hideUas` looks at the bytes of a whole group, which is the same as looking at
its interface descriptor if that has all of its fields.
-/

def hasFields (g : List Bytes) : Bool :=
  isInterface (groupHead g) && decide (9 ≤ g.flatten.length)

def looksUas (g : List Bytes) : Bool :=
  hasFields g && byteAt g.flatten 5 == 0x08 && byteAt g.flatten 6 == 0x06 &&
    byteAt g.flatten 7 == 0x62

def offersFallback (groups : List (List Bytes)) (number : UInt8) : Bool :=
  groups.any fun g => hasFields g && byteAt g.flatten 2 == number && !looksUas g

/-- The code takes the group out. -/
def cuts (groups : List (List Bytes)) (g : List Bytes) : Bool :=
  looksUas g && offersFallback groups (byteAt g.flatten 2)

theorem rangeAt_len (pos : Nat) (g : List Bytes) :
    (rangeAt pos g).len = if isInterface (groupHead g) then g.flatten.length else 0 := by
  unfold ByteRange.len rangeAt
  split <;> simp

theorem rangeAt_hasFields (pos : Nat) (g : List Bytes) :
    decide (9 ≤ (rangeAt pos g).len) = hasFields g := by
  rw [rangeAt_len, hasFields]
  cases isInterface (groupHead g) <;> simp

theorem hasFields_length {g : List Bytes} (h : hasFields g = true) : 9 ≤ g.flatten.length := by
  simp only [hasFields, Bool.and_eq_true, decide_eq_true_eq] at h
  exact h.right

section Groups

variable {config rest : Bytes} {pos : Nat} {g : List Bytes}

theorem rangeAt_byte (h : config.drop pos = g.flatten ++ rest) (hfields : hasFields g = true)
    {k : Nat} (hk : k < 9) :
    byteAt config ((rangeAt pos g).start + k) = byteAt g.flatten k :=
  byteAt_of_drop h (Nat.lt_of_lt_of_le hk (hasFields_length hfields))

theorem isUas_rangeAt (h : config.drop pos = g.flatten ++ rest) :
    isUas config (rangeAt pos g) = looksUas g := by
  unfold isUas looksUas
  rw [rangeAt_hasFields]
  cases hfields : hasFields g with
  | false => rfl
  | true =>
      rw [rangeAt_byte h hfields (by decide), rangeAt_byte h hfields (by decide),
        rangeAt_byte h hfields (by decide)]

end Groups

theorem any_rangesOf {config : Bytes} {p : ByteRange -> Bool} {q : List Bytes -> Bool}
    (hsame : forall pos g rest, config.drop pos = g.flatten ++ rest ->
      p (rangeAt pos g) = q g) {pos : Nat} {groups : List (List Bytes)}
    (h : config.drop pos = groups.flatten.flatten) :
    (rangesOf pos groups).any p = groups.any q := by
  induction groups generalizing pos with
  | nil => rfl
  | cons g gs ih =>
      rw [List.flatten_cons, List.flatten_append] at h
      rw [rangesOf, List.any_cons, List.any_cons, hsame pos g _ h, ih (drop_of_drop h)]

theorem hasFallback_rangesOf {config : Bytes} {pos : Nat} {groups : List (List Bytes)}
    (h : config.drop pos = groups.flatten.flatten) (number : UInt8) :
    hasFallback config (rangesOf pos groups) number = offersFallback groups number := by
  apply any_rangesOf (h := h)
  intro pos g rest hg
  rw [rangeAt_hasFields, isUas_rangeAt hg]
  cases hfields : hasFields g with
  | false => rfl
  | true => rw [rangeAt_byte hg hfields (by decide)]

def cutsRange (config : Bytes) (fallback : UInt8 -> Bool) (g : ByteRange) : Bool :=
  isUas config g && fallback (byteAt config (g.start + 2))

theorem cutsRange_rangeAt {config rest : Bytes} {pos : Nat} {g : List Bytes}
    (h : config.drop pos = g.flatten ++ rest) (fallback : UInt8 -> Bool) :
    cutsRange config fallback (rangeAt pos g) =
      (looksUas g && fallback (byteAt g.flatten 2)) := by
  unfold cutsRange
  rw [isUas_rangeAt h]
  cases huas : looksUas g with
  | false => rfl
  | true =>
      have hfields : hasFields g = true := by
        simp only [looksUas, Bool.and_eq_true] at huas
        exact huas.left.left.left
      rw [rangeAt_byte h hfields (by decide)]

theorem rangeAt_stop {pos : Nat} {g : List Bytes} (h : looksUas g = true) :
    (rangeAt pos g).stop = pos + g.flatten.length := by
  simp only [looksUas, hasFields, Bool.and_eq_true] at h
  exact if_pos h.left.left.left.left

theorem cutGroups_rangesOf {config : Bytes} {fallback : UInt8 -> Bool} {done pos : Nat}
    {groups : List (List Bytes)} (h : config.drop pos = groups.flatten.flatten)
    (hdone : done ≤ pos) :
    cutGroups config done ((rangesOf pos groups).filter (cutsRange config fallback)) =
      (config.drop done).take (pos - done) ++ (groups.filter fun g =>
        !(looksUas g && fallback (byteAt g.flatten 2))).flatten.flatten := by
  induction groups generalizing done pos with
  | nil =>
      rw [rangesOf, List.filter_nil, cutGroups, List.filter_nil]
      have hlength := congrArg List.length h
      simp only [List.flatten_nil, List.length_drop, List.length_nil] at hlength
      rw [List.take_of_length_le (by rw [List.length_drop]; omega)]
      exact (List.append_nil _).symm
  | cons g gs ih =>
      rw [List.flatten_cons, List.flatten_append] at h
      have hnext := drop_of_drop h
      rw [rangesOf, List.filter_cons, List.filter_cons, cutsRange_rangeAt h]
      cases hcut : looksUas g && fallback (byteAt g.flatten 2) with
      | true =>
          have huas : looksUas g = true := (Bool.and_eq_true _ _ ▸ hcut).left
          simp only [if_true, Bool.not_true, Bool.false_eq_true, if_false]
          rw [cutGroups, rangeAt_stop huas, ih hnext (Nat.le_refl _), Nat.sub_self,
            List.take_zero, List.nil_append]
          rfl
      | false =>
          simp only [Bool.false_eq_true, if_false, Bool.not_false, if_true]
          rw [ih hnext (by omega), List.flatten_cons, List.flatten_append,
            ← List.append_assoc]
          congr 1
          have hsum : pos + g.flatten.length - done = (pos - done) + g.flatten.length := by
            omega
          have hat : config.drop (done + (pos - done)) = config.drop pos := by
            rw [Nat.add_sub_cancel' hdone]
          rw [hsum, List.take_add, List.drop_drop, hat, h, List.take_left]

/-!
# The whole function
-/

namespace Configuration

def kept (c : Configuration) : Bytes :=
  c.header ++ (leading startsGroup c.descriptors).flatten ++
    (c.groups.filter fun g => !cuts c.groups g).flatten.flatten

theorem bytes_eq (c : Configuration) :
    c.bytes = c.header ++ (leading startsGroup c.descriptors).flatten ++
      c.groups.flatten.flatten := by
  have hsplit := congrArg List.flatten
    (leading_append_sections startsGroup c.descriptors)
  rw [List.flatten_append] at hsplit
  rw [bytes, ← hsplit, List.append_assoc]
  rfl

def groupStart (c : Configuration) : Nat :=
  c.header.length + (leading startsGroup c.descriptors).flatten.length

theorem bytes_drop (c : Configuration) :
    c.bytes.drop c.groupStart = c.groups.flatten.flatten := by
  rw [bytes_eq]
  exact List.drop_left' (by rw [List.length_append]; rfl)

theorem byteAt_header (c : Configuration) {k : Nat} (hk : k < 9) :
    byteAt c.bytes k = byteAt c.header k :=
  byteAt_append (Nat.lt_of_lt_of_le hk c.header_long) _

theorem length_le_flatten {ds : List Bytes} (h : forall d, d ∈ ds -> IsDescriptor d) :
    ds.length ≤ ds.flatten.length := by
  induction ds with
  | nil => exact Nat.le_refl 0
  | cons d ds ih =>
      have hd := (h d List.mem_cons_self).left
      have hds := ih fun d' hd' => h d' (List.mem_cons_of_mem d hd')
      rw [List.flatten_cons, List.length_append, List.length_cons]
      omega

theorem groupsFrom_bytes (c : Configuration) :
    groupsFrom c.bytes (c.bytes.length + 1) (byteAt c.bytes 0).toNat [] =
      some (rangesOf c.groupStart c.groups) := by
  rw [c.byteAt_header (by decide), c.header_length]
  have hrounds : c.descriptors.length < c.bytes.length + 1 := by
    have hle := length_le_flatten c.descriptors_ok
    rw [bytes, List.length_append]
    omega
  exact groupsFrom_descriptors c.descriptors_ok List.drop_left hrounds (Walked.start _)

theorem guard (c : Configuration) :
    ¬ (c.bytes.length < 9 ∨ byteAt c.bytes 0 < 9 ∨ byteAt c.bytes 1 ≠ 2) := by
  have hlong := c.header_long
  have hlength : c.header.length ≤ c.bytes.length := by
    rw [bytes, List.length_append]
    exact Nat.le_add_right _ _
  have hfirst : ¬ byteAt c.bytes 0 < 9 := by
    rw [c.byteAt_header (by decide), UInt8.lt_iff_toNat_lt, c.header_length]
    exact Nat.not_lt.mpr hlong
  have htype : byteAt c.bytes 1 = 2 := by
    rw [c.byteAt_header (by decide), c.header_type]
  rintro (h | h | h)
  · omega
  · exact hfirst h
  · exact h htype

theorem picks_rangeAt (c : Configuration) (pos : Nat) (g : List Bytes) (rest : Bytes)
    (h : c.bytes.drop pos = g.flatten ++ rest) :
    cutsRange c.bytes (hasFallback c.bytes (rangesOf c.groupStart c.groups))
      (rangeAt pos g) = cuts c.groups g := by
  rw [cutsRange_rangeAt h, hasFallback_rangesOf c.bytes_drop, cuts]

def picked (c : Configuration) : List ByteRange :=
  (rangesOf c.groupStart c.groups).filter
    (cutsRange c.bytes (hasFallback c.bytes (rangesOf c.groupStart c.groups)))

theorem cutGroups_picked (c : Configuration) : cutGroups c.bytes 0 c.picked = c.kept := by
  rw [picked, cutGroups_rangesOf c.bytes_drop (Nat.zero_le _), List.drop_zero,
    Nat.sub_zero, kept]
  congr 1
  · rw [c.bytes_eq]
    exact List.take_left' (by rw [List.length_append]; rfl)
  · simp only [hasFallback_rangesOf c.bytes_drop]
    rfl

theorem picked_eq_nil_iff (c : Configuration) :
    c.picked = [] <-> forall g, g ∈ c.groups -> cuts c.groups g = false := by
  have hany := any_rangesOf c.picks_rangeAt c.bytes_drop
  rw [picked, List.filter_eq_nil_iff]
  rw [Bool.eq_iff_iff, List.any_eq_true, List.any_eq_true] at hany
  constructor
  · intro hnone g hg
    cases hcut : cuts c.groups g with
    | false => rfl
    | true =>
        rcases hany.mpr ⟨g, hg, hcut⟩ with ⟨r, hr, hpick⟩
        exact absurd hpick (hnone r hr)
  · intro hnone r hr hpick
    rcases hany.mp ⟨r, hr, hpick⟩ with ⟨g, hg, hcut⟩
    rw [hnone g hg] at hcut
    cases hcut

theorem hideUas_bytes (c : Configuration) :
    hideUas c.bytes =
      if c.picked.isEmpty = true then
        (c.bytes, none)
      else
        (setTotalLength c.kept (UInt16.ofNat c.kept.length),
          some (le16 (byteAt c.bytes 2) (byteAt c.bytes 3),
            UInt16.ofNat c.kept.length)) := by
  rw [hideUas, if_neg c.guard, c.groupsFrom_bytes]
  exact congrArg (fun out : Bytes => if c.picked.isEmpty = true then (c.bytes, none) else
    (setTotalLength out (UInt16.ofNat out.length),
      some (le16 (byteAt c.bytes 2) (byteAt c.bytes 3), UInt16.ofNat out.length)))
    c.cutGroups_picked

theorem hideUas_none (c : Configuration)
    (h : forall g, g ∈ c.groups -> cuts c.groups g = false) :
    hideUas c.bytes = (c.bytes, none) := by
  rw [hideUas_bytes, c.picked_eq_nil_iff.mpr h]
  rfl

theorem hideUas_some (c : Configuration)
    (h : exists g, g ∈ c.groups ∧ cuts c.groups g = true) :
    hideUas c.bytes =
      (setTotalLength c.kept (UInt16.ofNat c.kept.length),
        some (le16 (byteAt c.header 2) (byteAt c.header 3),
          UInt16.ofNat c.kept.length)) := by
  have hnot : ¬ c.picked.isEmpty = true := by
    rw [List.isEmpty_iff, c.picked_eq_nil_iff]
    intro hnone
    rcases h with ⟨g, hg, hcut⟩
    rw [hnone g hg] at hcut
    cases hcut
  rw [hideUas_bytes, if_neg hnot, c.byteAt_header (by decide), c.byteAt_header (by decide)]

end Configuration

/-!
# Malformed input
-/

theorem descriptors_of_groupsFrom {config : Bytes} {rounds i : Nat}
    {groups found : List ByteRange} (h : groupsFrom config rounds i groups = some found)
    (hi : i ≤ config.length) (hrounds : config.length < i + rounds) :
    exists ds : List Bytes, config.drop i = ds.flatten ∧
      forall d, d ∈ ds -> IsDescriptor d := by
  induction rounds generalizing i groups with
  | zero => omega
  | succ rounds ih =>
      rw [groupsFrom] at h
      by_cases hmore : i < config.length
      · rw [if_pos hmore] at h
        dsimp only at h
        by_cases hbad : (byteAt config i).toNat < 2 ∨
            config.length < i + (byteAt config i).toNat
        · rw [if_pos hbad] at h
          cases h
        · rw [if_neg hbad] at h
          rcases ih h (by omega) (by omega) with ⟨ds, hds, hok⟩
          have hlength : ((config.drop i).take (byteAt config i).toNat).length =
              (byteAt config i).toNat := by
            rw [List.length_take, List.length_drop]
            omega
          refine ⟨(config.drop i).take (byteAt config i).toNat :: ds, ?_, ?_⟩
          · rw [List.flatten_cons, ← hds, ← List.drop_drop, List.take_append_drop]
          · intro d hd
            rcases List.mem_cons.mp hd with rfl | hd
            · constructor
              · omega
              · have hfirst : byteAt ((config.drop i).take (byteAt config i).toNat) 0 =
                    byteAt config i :=
                  (byteAt_of_drop (k := 0)
                    (List.take_append_drop (byteAt config i).toNat _).symm (by omega)).symm
                rw [hfirst, hlength]
            · exact hok d hd
      · exact ⟨[], by simp; omega, by simp⟩

theorem groups_of_groupsFrom {config : Bytes} {groups : List ByteRange}
    (hguard : ¬ (config.length < 9 ∨ byteAt config 0 < 9 ∨ byteAt config 1 ≠ 2))
    (h : groupsFrom config (config.length + 1) (byteAt config 0).toNat [] = some groups) :
    groups = [] ∨ exists c : Configuration, c.bytes = config := by
  simp only [not_or, Nat.not_lt, not_not] at hguard
  rcases hguard with ⟨hlength, hlong, htype⟩
  by_cases hfits : (byteAt config 0).toNat ≤ config.length
  · right
    have hlong : 9 ≤ (byteAt config 0).toNat := by
      rw [UInt8.lt_iff_toNat_lt] at hlong
      exact Nat.not_lt.mp hlong
    rcases descriptors_of_groupsFrom h hfits (by omega) with ⟨ds, hds, hok⟩
    have htake : (config.take (byteAt config 0).toNat).length = (byteAt config 0).toNat :=
      List.length_take_of_le hfits
    have hbyte : forall k, k < 9 ->
        byteAt (config.take (byteAt config 0).toNat) k = byteAt config k := by
      intro k hk
      rw [← byteAt_append (by omega) (config.drop (byteAt config 0).toNat),
        List.take_append_drop]
    let c : Configuration :=
      { header := config.take (byteAt config 0).toNat
        descriptors := ds
        header_length := by rw [hbyte 0 (by decide), htake]
        header_long := by omega
        header_type := by rw [hbyte 1 (by decide), htype]
        descriptors_ok := hok }
    refine ⟨c, ?_⟩
    show config.take (byteAt config 0).toNat ++ ds.flatten = config
    rw [← hds, List.take_append_drop]
  · left
    rw [groupsFrom, if_neg (by omega)] at h
    cases h
    rfl

theorem hideUas_malformed {config : Bytes}
    (h : ¬ exists c : Configuration, c.bytes = config) :
    hideUas config = (config, none) := by
  unfold hideUas
  by_cases hguard : config.length < 9 ∨ byteAt config 0 < 9 ∨ byteAt config 1 ≠ 2
  · rw [if_pos hguard]
  · rw [if_neg hguard]
    cases hgroups : groupsFrom config (config.length + 1) (byteAt config 0).toNat [] with
    | none => rfl
    | some groups =>
        rcases groups_of_groupsFrom hguard hgroups with rfl | hwell
        · rfl
        · exact absurd hwell h

/-- Either nothing changes, or there is something to hide in a configuration. -/
theorem hideUas_cases (config : Bytes) :
    hideUas config = (config, none) ∨
      exists c : Configuration, c.bytes = config ∧
        exists g, g ∈ c.groups ∧ cuts c.groups g = true := by
  by_cases hwell : exists c : Configuration, c.bytes = config
  · rcases hwell with ⟨c, rfl⟩
    by_cases hcut : exists g, g ∈ c.groups ∧ cuts c.groups g = true
    · exact Or.inr ⟨c, rfl, hcut⟩
    · left
      apply c.hideUas_none
      intro g hg
      cases hcuts : cuts c.groups g with
      | false => rfl
      | true => exact absurd ⟨g, hg, hcuts⟩ hcut
  · exact Or.inl (hideUas_malformed hwell)

/-!
# What is left
-/

theorem setTotalLength_append {front : Bytes} (h : 4 ≤ front.length) (rest : Bytes)
    (total : UInt16) :
    setTotalLength (front ++ rest) total = setTotalLength front total ++ rest := by
  simp only [setTotalLength]
  rw [List.take_append_of_le_length (by omega), List.drop_append_of_le_length h,
    List.append_assoc, List.append_assoc, List.append_assoc]

theorem setTotalLength_length {config : Bytes} (h : 4 ≤ config.length) (total : UInt16) :
    (setTotalLength config total).length = config.length := by
  simp [setTotalLength, leBytes16]
  omega

theorem setTotalLength_byteAt {config : Bytes} (h : 4 ≤ config.length) (total : UInt16)
    {k : Nat} (hk : k < 2) : byteAt (setTotalLength config total) k = byteAt config k := by
  have htake : k < (config.take 2).length := by
    rw [List.length_take]
    omega
  rw [setTotalLength, List.append_assoc, byteAt_append htake]
  rw [← byteAt_append htake (config.drop 2), List.take_append_drop]

namespace Configuration

def staying (c : Configuration) : List (List Bytes) :=
  c.groups.filter fun g => !cuts c.groups g

theorem isSection_of_staying {c : Configuration} {g : List Bytes} (h : g ∈ c.staying) :
    IsSection startsGroup g :=
  isSection_of_mem (List.mem_filter.mp h).left

theorem mem_descriptors {c : Configuration} {g : List Bytes} (hg : g ∈ c.groups)
    {d : Bytes} (hd : d ∈ g) : d ∈ c.descriptors := by
  rw [← leading_append_sections startsGroup c.descriptors]
  exact List.mem_append_right _ (List.mem_flatten.mpr ⟨g, hg, hd⟩)

/-- The configuration that `hideUas` leaves behind. -/
def trimmed (c : Configuration) (total : UInt16) : Configuration where
  header := setTotalLength c.header total
  descriptors := leading startsGroup c.descriptors ++ c.staying.flatten
  header_length := by
    have hlong := c.header_long
    rw [setTotalLength_byteAt (by omega) total (by decide), c.header_length,
      setTotalLength_length (by omega)]
  header_long := by
    have hlong := c.header_long
    rw [setTotalLength_length (by omega)]
    exact hlong
  header_type := by
    have hlong := c.header_long
    rw [setTotalLength_byteAt (by omega) total (by decide), c.header_type]
  descriptors_ok := by
    intro d hd
    apply c.descriptors_ok
    rcases List.mem_append.mp hd with hd | hd
    · exact (List.takeWhile_prefix _).subset hd
    · rcases List.mem_flatten.mp hd with ⟨g, hg, hdg⟩
      exact mem_descriptors (List.mem_filter.mp hg).left hdg

theorem trimmed_bytes (c : Configuration) (total : UInt16) :
    (c.trimmed total).bytes = setTotalLength c.kept total := by
  have hlong := c.header_long
  rw [kept, List.append_assoc, setTotalLength_append (by omega), bytes]
  show setTotalLength c.header total ++ (_ ++ c.staying.flatten).flatten = _
  rw [List.flatten_append]
  rfl

theorem trimmed_groups (c : Configuration) (total : UInt16) :
    (c.trimmed total).groups = c.staying := by
  show sections startsGroup (leading startsGroup c.descriptors ++ c.staying.flatten) = _
  rw [sections_append_of_other fun _ h => mem_leading h]
  exact sections_flatten fun _ h => isSection_of_staying h

theorem cuts_staying {c : Configuration} {g : List Bytes} (hg : g ∈ c.staying) :
    cuts c.staying g = false := by
  have hnot : cuts c.groups g = false := by
    simpa using (List.mem_filter.mp hg).right
  cases hcut : cuts c.staying g with
  | false => rfl
  | true =>
      simp only [cuts, offersFallback, Bool.and_eq_true, List.any_eq_true] at hcut
      rcases hcut with ⟨huas, g', hg', hfallback⟩
      have hall : cuts c.groups g = true := by
        simp only [cuts, offersFallback, Bool.and_eq_true, List.any_eq_true]
        exact ⟨huas, g', (List.mem_filter.mp hg').left, hfallback⟩
      rw [hall] at hnot
      cases hnot

theorem kept_length_le (c : Configuration) : c.kept.length ≤ c.bytes.length := by
  have hstay : (c.staying.flatten.flatten).length ≤ c.groups.flatten.flatten.length :=
    (List.filter_sublist.flatten.flatten).length_le
  rw [c.bytes_eq]
  show (_ ++ c.staying.flatten.flatten).length ≤ _
  simp only [List.length_append]
  exact Nat.add_le_add_left hstay _

theorem kept_long (c : Configuration) : 9 ≤ c.kept.length := by
  have hlong := c.header_long
  rw [kept, List.length_append, List.length_append]
  omega

end Configuration

theorem hideUas_idempotent (config : Bytes) :
    hideUas (hideUas config).1 = ((hideUas config).1, none) := by
  rcases hideUas_cases config with hsame | ⟨c, rfl, hcut⟩
  · rw [hsame]
    exact hsame
  · rw [c.hideUas_some hcut]
    dsimp only
    rw [← c.trimmed_bytes]
    apply Configuration.hideUas_none
    intro g hg
    rw [c.trimmed_groups] at hg ⊢
    exact Configuration.cuts_staying hg

theorem hideUas_length_le (config : Bytes) : (hideUas config).1.length ≤ config.length := by
  rcases hideUas_cases config with hsame | ⟨c, rfl, hcut⟩
  · rw [hsame]
  · rw [c.hideUas_some hcut]
    dsimp only
    rw [setTotalLength_length (Nat.le_trans (by decide) c.kept_long)]
    exact c.kept_length_le

/-!
# Interfaces with all of their fields
-/

namespace Configuration

variable {c : Configuration}

theorem fields_of_full (hfull : c.InterfacesFull) {g : List Bytes} (hg : g ∈ c.groups)
    (hinterface : isInterface (groupHead g) = true) :
    hasFields g = true ∧ forall k, k < 9 -> byteAt g.flatten k = byteAt (groupHead g) k := by
  rcases isSection_of_mem hg with ⟨d, ds, rfl, _, _⟩
  have hlong : 9 ≤ d.length := hfull d (mem_descriptors hg List.mem_cons_self) hinterface
  constructor
  · simp only [hasFields, hinterface, Bool.true_and, decide_eq_true_eq,
      List.flatten_cons, List.length_append]
    omega
  · intro k hk
    rw [List.flatten_cons]
    exact byteAt_append (by omega) _

theorem hasFields_of_full (hfull : c.InterfacesFull) {g : List Bytes} (hg : g ∈ c.groups) :
    hasFields g = isInterface (groupHead g) := by
  cases hinterface : isInterface (groupHead g) with
  | true => exact (fields_of_full hfull hg hinterface).left
  | false => simp [hasFields, hinterface]

theorem looksUas_of_full (hfull : c.InterfacesFull) {g : List Bytes} (hg : g ∈ c.groups) :
    looksUas g = isUasSetting g := by
  unfold looksUas isUasSetting
  rw [hasFields_of_full hfull hg]
  cases hinterface : isInterface (groupHead g) with
  | false => rfl
  | true =>
      have hbytes := (fields_of_full hfull hg hinterface).right
      rw [hbytes 5 (by decide), hbytes 6 (by decide), hbytes 7 (by decide)]

theorem fallback_of_full (hfull : c.InterfacesFull) {g : List Bytes} (hg : g ∈ c.groups)
    (number : UInt8) :
    (hasFields g && byteAt g.flatten 2 == number && !looksUas g) =
      (isSetting number g && !isUasSetting g) := by
  unfold isSetting
  rw [looksUas_of_full hfull hg, hasFields_of_full hfull hg]
  cases hinterface : isInterface (groupHead g) with
  | false => rfl
  | true => rw [(fields_of_full hfull hg hinterface).right 2 (by decide)]

/-- What the code takes out is what is to be hidden. -/
theorem cuts_of_full (hfull : c.InterfacesFull) {g : List Bytes} (hg : g ∈ c.groups) :
    cuts c.groups g = isHidden c.groups g := by
  unfold cuts isHidden
  rw [looksUas_of_full hfull hg]
  cases huas : isUasSetting g with
  | false => rfl
  | true =>
      have hinterface : isInterface (groupHead g) = true := by
        simp only [isUasSetting, Bool.and_eq_true] at huas
        exact huas.left.left.left
      rw [(fields_of_full hfull hg hinterface).right 2 (by decide), offersFallback]
      congr 1
      rw [Bool.eq_iff_iff, List.any_eq_true, List.any_eq_true]
      constructor
      · rintro ⟨g', hg', h⟩
        exact ⟨g', hg', by rw [← fallback_of_full hfull hg']; exact h⟩
      · rintro ⟨g', hg', h⟩
        exact ⟨g', hg', by rw [fallback_of_full hfull hg']; exact h⟩

theorem kept_of_full (hfull : c.InterfacesFull) : c.kept = c.visible := by
  rw [kept, visible]
  congr 3
  apply List.filter_congr
  intro g hg
  rw [cuts_of_full hfull hg]

theorem hidden_iff_of_full (hfull : c.InterfacesFull) :
    c.hidden ≠ [] <-> exists g, g ∈ c.groups ∧ cuts c.groups g = true := by
  rw [hidden, ne_eq, List.filter_eq_nil_iff]
  constructor
  · intro h
    by_contra hno
    apply h
    intro g hg hhidden
    exact hno ⟨g, hg, by rw [cuts_of_full hfull hg]; exact hhidden⟩
  · rintro ⟨g, hg, hcut⟩ hall
    rw [cuts_of_full hfull hg] at hcut
    exact hall g hg hcut

theorem hideUas_of_hidden_nil (hfull : c.InterfacesFull) (h : c.hidden = []) :
    hideUas c.bytes = (c.bytes, none) := by
  apply c.hideUas_none
  intro g hg
  rw [cuts_of_full hfull hg]
  simpa using List.filter_eq_nil_iff.mp h g hg

theorem hideUas_of_hidden (hfull : c.InterfacesFull) (h : c.hidden ≠ []) :
    hideUas c.bytes =
      (setTotalLength c.visible (UInt16.ofNat c.visible.length),
        some (le16 (byteAt c.header 2) (byteAt c.header 3),
          UInt16.ofNat c.visible.length)) := by
  rw [c.hideUas_some ((hidden_iff_of_full hfull).mp h), kept_of_full hfull]

theorem hasInterface_of_hide (hfull : c.InterfacesFull) {number : UInt8}
    (h : c.HasInterface number) :
    exists c' : Configuration, c'.bytes = (hideUas c.bytes).1 ∧ c'.HasInterface number := by
  by_cases hhidden : c.hidden = []
  · rw [hideUas_of_hidden_nil hfull hhidden]
    exact ⟨c, rfl, h⟩
  · rw [c.hideUas_some ((hidden_iff_of_full hfull).mp hhidden)]
    refine ⟨c.trimmed (UInt16.ofNat c.kept.length), c.trimmed_bytes _, ?_⟩
    rcases h with ⟨d, hd, hinterface, hnumber⟩
    have hstarts : startsGroup d = true := by
      rw [startsGroup, hinterface, Bool.true_or]
    have hmem := hd
    rw [← leading_append_sections startsGroup c.descriptors] at hmem
    rcases List.mem_append.mp hmem with hlead | hgroup
    · rw [mem_leading hlead] at hstarts
      cases hstarts
    · rcases List.mem_flatten.mp hgroup with ⟨g, hg, hdg⟩
      -- The interface opens its group, and only the first descriptor of a group does.
      have hhead : groupHead g = d := by
        rcases isSection_of_mem hg with ⟨d', ds, rfl, _, hds⟩
        rcases List.mem_cons.mp hdg with rfl | hdg
        · rfl
        · rw [hds d hdg] at hstarts
          cases hstarts
      have hstay : exists g', g' ∈ c.staying ∧ isSetting number g' = true := by
        cases hcut : isHidden c.groups g with
        | false =>
            refine ⟨g, List.mem_filter.mpr ⟨hg, ?_⟩, ?_⟩
            · rw [cuts_of_full hfull hg, hcut]
              rfl
            · simp [isSetting, hhead, hinterface, hnumber]
        | true =>
            simp only [isHidden, Bool.and_eq_true, List.any_eq_true, Bool.not_eq_true'] at hcut
            rcases hcut with ⟨_, g', hg', hsetting, hother⟩
            refine ⟨g', List.mem_filter.mpr ⟨hg', ?_⟩, ?_⟩
            · rw [cuts_of_full hfull hg', isHidden, hother]
              rfl
            · rw [hhead, hnumber] at hsetting
              exact hsetting
      rcases hstay with ⟨g', hg', hsetting⟩
      simp only [isSetting, Bool.and_eq_true, beq_iff_eq] at hsetting
      refine ⟨groupHead g', ?_, hsetting.left, hsetting.right⟩
      rcases isSection_of_staying hg' with ⟨d', ds, rfl, _, _⟩
      exact List.mem_append_right _ (List.mem_flatten.mpr ⟨_, hg', List.mem_cons_self⟩)

end Configuration

end Hci
end UsbIp
