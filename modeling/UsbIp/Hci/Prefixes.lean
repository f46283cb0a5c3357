import UsbIp.Hci.Descriptors

/-!
# Prefixes of a configuration

A host may read less of a configuration than there is.  `hideUas` leaves such a
prefix alone if it ends inside of a descriptor.  If it ends between two, it is a
configuration itself, with fewer descriptors, and the groups to hide are hidden
in it; what is left is the same as for the whole configuration if everything
that was cut off is hidden as well.
-/

namespace UsbIp
namespace Hci

open Foundation

/-- Descriptors at the front of a byte string are found in one way only. -/
theorem descriptors_prefix {ds' ds : List Bytes} {more : Bytes}
    (hds' : forall d, d ∈ ds' -> IsDescriptor d) (hds : forall d, d ∈ ds -> IsDescriptor d)
    (h : ds'.flatten ++ more = ds.flatten) : exists back, ds = ds' ++ back := by
  induction ds' generalizing ds with
  | nil => exact ⟨ds, rfl⟩
  | cons d' ds' ih =>
      have hd' := hds' d' List.mem_cons_self
      cases ds with
      | nil =>
          have hlength := congrArg List.length h
          have hlong := hd'.left
          simp only [List.flatten_cons, List.length_append, List.flatten_nil,
            List.length_nil] at hlength
          omega
      | cons d ds =>
          have hd := hds d List.mem_cons_self
          rw [List.flatten_cons, List.flatten_cons, List.append_assoc] at h
          have hfirst : byteAt d' 0 = byteAt d 0 := by
            rw [← byteAt_append (Nat.lt_of_lt_of_le (by decide) hd'.left) (ds'.flatten ++ more),
              h, byteAt_append (Nat.lt_of_lt_of_le (by decide) hd.left)]
          have hlength : d'.length = d.length := by
            rw [← hd'.right, ← hd.right, hfirst]
          rcases List.append_inj h hlength with ⟨rfl, hrest⟩
          rcases ih (fun e he => hds' e (List.mem_cons_of_mem _ he))
            (fun e he => hds e (List.mem_cons_of_mem _ he)) hrest with ⟨back, rfl⟩
          exact ⟨back, rfl⟩

namespace Configuration

theorem prefix_of_bytes {c c' : Configuration} {n : Nat} (h : c'.bytes = c.bytes.take n) :
    c'.header = c.header ∧ exists back, c.descriptors = c'.descriptors ++ back := by
  have hwhole : c'.bytes ++ c.bytes.drop n = c.bytes := by
    rw [h, List.take_append_drop]
  have hlong := c'.header_long
  have hfirst : byteAt c'.header 0 = byteAt c.header 0 := by
    rw [← c'.byteAt_header (by decide), ← c.byteAt_header (by decide), ← hwhole,
      byteAt_append]
    rw [bytes, List.length_append]
    omega
  have hlength : c'.header.length = c.header.length := by
    rw [← c'.header_length, ← c.header_length, hfirst]
  rw [bytes, bytes, List.append_assoc] at hwhole
  rcases List.append_inj hwhole hlength with ⟨hheader, hrest⟩
  exact ⟨hheader, descriptors_prefix c'.descriptors_ok c.descriptors_ok hrest⟩

def first (c : Configuration) (k : Nat) : Configuration where
  header := c.header
  descriptors := c.descriptors.take k
  header_length := c.header_length
  header_long := c.header_long
  header_type := c.header_type
  descriptors_ok := fun d hd => c.descriptors_ok d (List.mem_of_mem_take hd)

/--
The first `n` bytes end between two descriptors, or with the last one, and one of
the groups up to there is hidden among them.
-/
def hidesWithin (c : Configuration) (n : Nat) : Bool :=
  (List.range (c.descriptors.length + 1)).any fun k =>
    (c.first k).bytes.length == min n c.bytes.length && !(c.first k).hidden.isEmpty

theorem first_bytes {c : Configuration} {k n : Nat}
    (h : (c.first k).bytes.length = min n c.bytes.length) :
    (c.first k).bytes = c.bytes.take n := by
  have hwhole : (c.first k).bytes ++ (c.descriptors.drop k).flatten = c.bytes := by
    rw [bytes, bytes, List.append_assoc]
    show c.header ++ ((c.descriptors.take k).flatten ++ (c.descriptors.drop k).flatten) = _
    rw [← List.flatten_append, List.take_append_drop]
  calc (c.first k).bytes = c.bytes.take (min n c.bytes.length) := by
        rw [← h, ← hwhole, List.take_left]
    _ = c.bytes.take n := List.take_eq_take_min.symm

theorem eq_first {c c' : Configuration} {n : Nat} (h : c'.bytes = c.bytes.take n) :
    exists k, k ≤ c.descriptors.length ∧ c' = c.first k := by
  rcases prefix_of_bytes h with ⟨hheader, back, hdescriptors⟩
  refine ⟨c'.descriptors.length, ?_, ?_⟩
  · rw [hdescriptors, List.length_append]
    exact Nat.le_add_right _ _
  · cases c' with
    | mk header descriptors _ _ _ _ =>
        cases hheader
        have htake : c.descriptors.take descriptors.length = descriptors := by
          rw [hdescriptors, List.take_left]
        simp only [first, htake]

theorem hidesWithin_iff {c : Configuration} {n : Nat} :
    c.hidesWithin n = true <->
      exists c' : Configuration, c'.bytes = c.bytes.take n ∧ c'.hidden ≠ [] := by
  constructor
  · intro h
    rcases List.any_eq_true.mp h with ⟨k, _, hk⟩
    simp only [Bool.and_eq_true, beq_iff_eq, Bool.not_eq_true', List.isEmpty_eq_false_iff] at hk
    exact ⟨c.first k, first_bytes hk.left, hk.right⟩
  · rintro ⟨c', hbytes, hhidden⟩
    rcases eq_first hbytes with ⟨k, hk, rfl⟩
    apply List.any_eq_true.mpr
    refine ⟨k, List.mem_range.mpr (Nat.lt_succ_of_le hk), ?_⟩
    have hlength := congrArg List.length hbytes
    rw [List.length_take] at hlength
    simp [hlength, hhidden]

/-- From some group on, which starts within the first `n` bytes, all groups are hidden. -/
def CutHidden (c : Configuration) (n : Nat) : Prop :=
  exists front back, c.groups = front ++ back ∧
    (forall g, g ∈ back -> isHidden c.groups g = true) ∧
    c.groupStart + front.flatten.flatten.length ≤ n

theorem cutHidden_of_le {c : Configuration} {n : Nat} (h : c.bytes.length ≤ n) :
    c.CutHidden n := by
  refine ⟨c.groups, [], (List.append_nil _).symm, by simp, ?_⟩
  rw [c.bytes_eq, List.length_append, List.length_append] at h
  exact h

theorem flatten_eq_nil {ds : List Bytes} (hds : forall d, d ∈ ds -> IsDescriptor d)
    (h : ds.flatten.length = 0) : ds = [] := by
  have hle := length_le_flatten hds
  apply List.eq_nil_of_length_eq_zero
  omega

theorem prefix_split {c c' : Configuration} {front back : List (List Bytes)}
    {cut : List Bytes} (hheader : c'.header = c.header)
    (hcut : c.descriptors = c'.descriptors ++ cut) (hgroups : c.groups = front ++ back)
    (hle : c.groupStart + front.flatten.flatten.length ≤ c'.bytes.length) :
    exists part, c'.descriptors =
        leading startsGroup c.descriptors ++ front.flatten ++ part ∧
      part ++ cut = back.flatten := by
  have hsplit := leading_append_sections startsGroup c.descriptors
  rw [show sections startsGroup c.descriptors = front ++ back from hgroups,
    List.flatten_append, ← List.append_assoc] at hsplit
  rw [bytes, List.length_append, hheader, groupStart] at hle
  have happend := hsplit.trans hcut
  rcases List.append_eq_append_iff.mp happend with ⟨part, hpart, hrest⟩ | ⟨extra, hextra, hrest⟩
  · exact ⟨part, hpart, hrest.symm⟩
  · -- The prefix ends exactly where the hidden groups start.
    have hok : forall d, d ∈ extra -> IsDescriptor d := by
      intro d hd
      apply c.descriptors_ok
      rw [hcut, hrest]
      exact List.mem_append_right _ (List.mem_append_left _ hd)
    have hlength := congrArg (fun ds : List Bytes => ds.flatten.length) hextra
    simp only [List.flatten_append, List.length_append] at hlength
    have hnil : extra = [] := flatten_eq_nil hok (by omega)
    rw [hnil, List.append_nil] at hextra
    rw [hnil, List.nil_append] at hrest
    exact ⟨[], by rw [List.append_nil, hextra], hrest⟩

section Cut

variable {c c' : Configuration} {front back : List (List Bytes)} {part cut : List Bytes}

theorem isSection_of_groups (hgroups : c.groups = front ++ back) :
    (forall g, g ∈ front -> IsSection startsGroup g) ∧
      forall g, g ∈ back -> IsSection startsGroup g := by
  have hall : forall g, g ∈ front ++ back -> IsSection startsGroup g := by
    rw [← hgroups]
    exact fun g hg => isSection_of_mem hg
  exact ⟨fun g hg => hall g (List.mem_append_left _ hg),
    fun g hg => hall g (List.mem_append_right _ hg)⟩

theorem leading_part (hgroups : c.groups = front ++ back)
    (hpart : part ++ cut = back.flatten) : leading startsGroup part = [] := by
  have hback : leading startsGroup (back.flatten ++ []) = [] :=
    leading_flatten_append (isSection_of_groups hgroups).right rfl
  rw [List.append_nil, ← hpart] at hback
  cases part with
  | nil => rfl
  | cons d part =>
      cases hstarts : startsGroup d with
      | true => exact leading_cons_opens hstarts part
      | false =>
          rw [List.cons_append, leading_cons_other hstarts] at hback
          cases hback

theorem groups_of_parts
    (hparts : c'.descriptors = leading startsGroup c.descriptors ++ front.flatten ++ part)
    (hgroups : c.groups = front ++ back) (hpart : part ++ cut = back.flatten) :
    leading startsGroup c'.descriptors = leading startsGroup c.descriptors ∧
      c'.groups = front ++ sections startsGroup part := by
  have hfront := (isSection_of_groups hgroups).left
  have hnone := leading_part hgroups hpart
  have hlead : forall d, d ∈ leading startsGroup c.descriptors -> startsGroup d = false :=
    fun d hd => mem_leading hd
  rw [List.append_assoc] at hparts
  constructor
  · rw [hparts, leading_append_of_other hlead, leading_flatten_append hfront hnone,
      List.append_nil]
  · rw [groups, hparts, sections_append_of_other hlead, sections_flatten_append hfront hnone]

theorem head_of_part (hgroups : c.groups = front ++ back)
    (hpart : part ++ cut = back.flatten) {g : List Bytes}
    (hg : g ∈ sections startsGroup part) :
    exists h, h ∈ back ∧ groupHead g = groupHead h := by
  rcases isSection_of_mem hg with ⟨d, ds, rfl, _, _⟩
  rcases mem_of_section hg with ⟨hmem, hstarts⟩
  have hback : d ∈ back.flatten := by
    rw [← hpart]
    exact List.mem_append_left _ hmem
  rcases head_of_opens (isSection_of_groups hgroups).right hback hstarts with ⟨rest, hrest⟩
  exact ⟨d :: rest, hrest, rfl⟩

theorem isHidden_congr (gs : List (List Bytes)) {g h : List Bytes}
    (hhead : groupHead g = groupHead h) : isHidden gs g = isHidden gs h := by
  simp only [isHidden, isUasSetting, hhead]

theorem isUasSetting_of_hidden {gs : List (List Bytes)} {g : List Bytes}
    (h : isHidden gs g = true) : isUasSetting g = true := by
  simp only [isHidden, Bool.and_eq_true] at h
  exact h.left

theorem isHidden_append {gs hs : List (List Bytes)}
    (h : forall g, g ∈ hs -> isUasSetting g = true) (g : List Bytes) :
    isHidden (gs ++ hs) g = isHidden gs g := by
  have hnone : forall p : List Bytes -> Bool,
      (hs.any fun g' => p g' && !isUasSetting g') = false := by
    intro p
    rw [List.any_eq_false]
    intro g' hg'
    simp [h g' hg']
  rw [isHidden, isHidden, List.any_append, hnone, Bool.or_false]

end Cut

/-- Nothing visible is lost if everything that is cut off is hidden. -/
theorem visible_of_cutHidden {c c' : Configuration} {n : Nat}
    (h : c'.bytes = c.bytes.take n) (hcut : c.CutHidden n) : c'.visible = c.visible := by
  rcases prefix_of_bytes h with ⟨hheader, cut, hdescriptors⟩
  rcases hcut with ⟨front, back, hgroups, hhidden, hle⟩
  have hlength : c.groupStart + front.flatten.flatten.length ≤ c'.bytes.length := by
    have hwhole := congrArg List.length c.bytes_eq
    rw [hgroups] at hwhole
    simp only [List.flatten_append, List.length_append] at hwhole
    rw [h, List.length_take]
    unfold groupStart at hle ⊢
    omega
  rcases prefix_split hheader hdescriptors hgroups hlength with ⟨part, hparts, hpart⟩
  rcases groups_of_parts hparts hgroups hpart with ⟨hlead, hgroups'⟩
  have hback : forall g, g ∈ back -> isUasSetting g = true := fun g hg =>
    isUasSetting_of_hidden (hhidden g hg)
  have hpartHidden : forall g, g ∈ sections startsGroup part ->
      isHidden c.groups g = true := by
    intro g hg
    rcases head_of_part hgroups hpart hg with ⟨h, hh, hhead⟩
    rw [isHidden_congr _ hhead]
    exact hhidden h hh
  have hsame : forall g, isHidden c'.groups g = isHidden c.groups g := by
    intro g
    rw [hgroups', hgroups, isHidden_append hback,
      isHidden_append fun g hg => isUasSetting_of_hidden (hpartHidden g hg)]
  have hdrop : forall gs : List (List Bytes),
      (forall g, g ∈ gs -> isHidden c.groups g = true) ->
      (gs.filter fun g => !isHidden c.groups g) = [] := by
    intro gs hgs
    rw [List.filter_eq_nil_iff]
    intro g hg
    simp [hgs g hg]
  have hkept : (c'.groups.filter fun g => !isHidden c'.groups g) =
      c.groups.filter fun g => !isHidden c.groups g := by
    simp only [hsame]
    rw [hgroups', List.filter_append, hdrop _ hpartHidden]
    conv_rhs => rw [hgroups, List.filter_append]
    rw [← hgroups, hdrop _ hhidden]
  rw [visible, visible, hheader, hlead, hkept]

theorem full_of_prefix {c c' : Configuration} {n : Nat} (h : c'.bytes = c.bytes.take n)
    (hfull : c.InterfacesFull) : c'.InterfacesFull := by
  rcases prefix_of_bytes h with ⟨_, cut, hdescriptors⟩
  intro d hd hinterface
  apply hfull d _ hinterface
  rw [hdescriptors]
  exact List.mem_append_left _ hd

theorem head_of_prefix {c c' : Configuration} {cut : List Bytes}
    (h : c.descriptors = c'.descriptors ++ cut) {g : List Bytes} (hg : g ∈ c'.groups) :
    exists g', g' ∈ c.groups ∧ groupHead g = groupHead g' := by
  rcases isSection_of_mem hg with ⟨d, ds, rfl, _, _⟩
  rcases mem_of_section hg with ⟨hmem, hstarts⟩
  have hwhole : d ∈ c.descriptors := by
    rw [h]
    exact List.mem_append_left _ hmem
  rw [← leading_append_sections startsGroup c.descriptors] at hwhole
  rcases List.mem_append.mp hwhole with hlead | hgroup
  · rw [mem_leading hlead] at hstarts
    cases hstarts
  · rcases head_of_opens (fun s hs => isSection_of_mem hs) hgroup hstarts with ⟨rest, hrest⟩
    exact ⟨d :: rest, hrest, rfl⟩

theorem hidden_of_prefix {c c' : Configuration} {n : Nat} (h : c'.bytes = c.bytes.take n)
    (hhidden : c'.hidden ≠ []) : c.hidden ≠ [] := by
  rcases prefix_of_bytes h with ⟨_, cut, hdescriptors⟩
  rcases List.exists_mem_of_ne_nil _ hhidden with ⟨g, hg⟩
  rcases List.mem_filter.mp hg with ⟨hg, hcut⟩
  simp only [isHidden, Bool.and_eq_true, List.any_eq_true] at hcut
  rcases hcut with ⟨huas, f, hf, hfallback⟩
  rcases head_of_prefix hdescriptors hg with ⟨g', hg', hhead⟩
  rcases head_of_prefix hdescriptors hf with ⟨f', hf', hfhead⟩
  have hcut' : isHidden c.groups g' = true := by
    simp only [isHidden, Bool.and_eq_true, List.any_eq_true]
    refine ⟨?_, f', hf', ?_⟩
    · simpa only [isUasSetting, hhead] using huas
    · simpa only [isSetting, isUasSetting, hhead, hfhead] using hfallback
  exact List.ne_nil_of_mem (List.mem_filter.mpr ⟨hg', hcut'⟩)

end Configuration

end Hci
end UsbIp
