import UsbIp.Foundation.Checked
import UsbIp.Hci.Descriptors

/-!
# Hiding stays in bounds

`hide_uas` once more, with every index, slice, sum and cast checked, and with a
walk that does not count as finished when its rounds run out.  On every input of
at most 65535 bytes it yields what `hideUas` yields.
-/

namespace UsbIp
namespace Hci

open Foundation

namespace Checked

/-- The descriptor walk: nothing inside means that a descriptor is malformed. -/
def groupsFrom (config : Bytes) :
    Nat -> Nat -> List ByteRange -> Option (Option (List ByteRange))
  | 0, _, _ => none
  | rounds + 1, i, groups =>
      if i < config.length then do
        let first ← config[i]?
        let len := first.toNat
        let stop ← usize (i + len)
        if len < 2 ∨ config.length < stop then
          return none
        else do
          let second ← usize (i + 1)
          let type ← config[second]?
          let groups :=
            if type = 4 then
              groups ++ [{ start := i, stop := stop }]
            else if type = 0x0b then
              groups ++ [{ start := i, stop := i }]
            else
              extendLast groups stop
          groupsFrom config rounds stop groups
      else
        return some groups

def isUas (config : Bytes) (g : ByteRange) : Option Bool :=
  if 9 ≤ g.len then do
    let start ← usize (g.start + 5)
    let stop ← usize (g.start + 8)
    let fields ← slice config start stop
    return fields == [0x08, 0x06, 0x62]
  else
    return false

def number (config : Bytes) (g : ByteRange) : Option UInt8 := do
  let i ← usize (g.start + 2)
  config[i]?

def hasFallback (config : Bytes) (groups : List ByteRange) (wanted : UInt8) :
    Option Bool :=
  groups.anyM fun g =>
    if 9 ≤ g.len then do
      let found ← number config g
      if found = wanted then do
        let uas ← isUas config g
        return !uas
      else
        return false
    else
      return false

def isHidden (config : Bytes) (groups : List ByteRange) (g : ByteRange) : Option Bool := do
  let uas ← isUas config g
  if uas then do
    let n ← number config g
    hasFallback config groups n
  else
    return false

def cutGroups (config : Bytes) : Nat -> List ByteRange -> Option Bytes
  | pos, [] => slice config pos config.length
  | pos, g :: rest => do
      let front ← slice config pos g.start
      let back ← cutGroups config g.stop rest
      return front ++ back

def setTotalLength (config : Bytes) (total : UInt16) : Option Bytes := do
  let _ ← slice config 2 4
  return Hci.setTotalLength config total

def hideGroups (config : Bytes) (hidden : List ByteRange) :
    Option (Bytes × Option (UInt16 × UInt16)) := do
  let out ← cutGroups config 0 hidden
  let length ← fit UInt16.size out.length
  let total := UInt16.ofNat length
  let out ← setTotalLength out total
  let low ← config[2]?
  let high ← config[3]?
  return (out, some (le16 low high, total))

def isHeader (config : Bytes) : Option Bool :=
  if config.length < 9 then
    return false
  else do
    let length ← config[0]?
    if length < 9 then
      return false
    else do
      let type ← config[1]?
      return type == 2

def hideUas (config : Bytes) : Option (Bytes × Option (UInt16 × UInt16)) := do
  let header ← isHeader config
  if header then do
    let first ← config[0]?
    let walked ← groupsFrom config (config.length + 1) first.toNat []
    match walked with
    | none => return (config, none)
    | some groups => do
        let hidden ← filterChecked (isHidden config groups) groups
        if hidden.isEmpty then
          return (config, none)
        else
          hideGroups config hidden
  else
    return (config, none)

/-!
# Every step stays in bounds
-/

theorem getElem?_byteAt {config : Bytes} {i : Nat} (h : i < config.length) :
    config[i]? = some (byteAt config i) := by
  simp [byteAt, h]

theorem drop_byteAt {config : Bytes} {i : Nat} (h : i < config.length) :
    config.drop i = byteAt config i :: config.drop (i + 1) := by
  rw [List.drop_eq_getElem_cons h]
  simp [byteAt, h]

section Bounds

variable {config : Bytes} (hlen : config.length ≤ 65535)
include hlen

theorem groupsFrom_eq {rounds i : Nat} {groups : List ByteRange} (hpos : 0 < rounds)
    (hrounds : config.length < i + rounds) :
    groupsFrom config rounds i groups = some (Hci.groupsFrom config rounds i groups) := by
  induction rounds generalizing i groups with
  | zero => cases hpos
  | succ rounds ih =>
      rw [groupsFrom, Hci.groupsFrom]
      by_cases hmore : i < config.length
      · have hbyte : (byteAt config i).toNat < 256 := UInt8.toNat_lt _
        simp only [if_pos hmore, getElem?_byteAt hmore, Option.bind_eq_bind,
          Option.bind_some]
        rw [usize_of_lt (by omega), Option.bind_some]
        by_cases hbad : (byteAt config i).toNat < 2 ∨
            config.length < i + (byteAt config i).toNat
        · rw [if_pos hbad, if_pos hbad]
          rfl
        · rw [if_neg hbad, if_neg hbad, usize_of_lt (by omega), Option.bind_some,
            getElem?_byteAt (by omega), Option.bind_some]
          exact ih (by omega) (by omega)
      · rw [if_neg hmore, if_neg hmore]
        rfl

variable {g : ByteRange} (hg : g.stop ≤ config.length)
include hg

theorem isUas_eq : isUas config g = some (Hci.isUas config g) := by
  unfold isUas Hci.isUas
  by_cases hfields : 9 ≤ g.len
  · have hstop : g.start + 9 ≤ config.length := by
      unfold ByteRange.len at hfields
      omega
    have hdrop : (config.drop (g.start + 5)).take 3 =
        [byteAt config (g.start + 5), byteAt config (g.start + 6),
          byteAt config (g.start + 7)] := by
      rw [drop_byteAt (by omega), drop_byteAt (by omega), drop_byteAt (by omega)]
      rfl
    have hwidth : g.start + 8 - (g.start + 5) = 3 := by
      omega
    simp only [if_pos hfields, Option.bind_eq_bind]
    rw [usize_of_lt (by omega), Option.bind_some, usize_of_lt (by omega), Option.bind_some,
      slice_of_le (by omega) (by omega), Option.bind_some, hwidth, hdrop]
    simp [hfields, Bool.and_assoc]
  · simp [hfields]

theorem number_eq (hfields : 9 ≤ g.len) :
    number config g = some (byteAt config (g.start + 2)) := by
  unfold ByteRange.len at hfields
  unfold number
  simp only [Option.bind_eq_bind]
  rw [usize_of_lt (by omega), Option.bind_some, getElem?_byteAt (by omega)]

end Bounds

section Ranges

variable {config : Bytes} (hlen : config.length ≤ 65535) {groups : List ByteRange}
  (hgroups : forall g, g ∈ groups -> g.stop ≤ config.length)
include hlen hgroups

theorem hasFallback_eq (wanted : UInt8) :
    hasFallback config groups wanted = some (Hci.hasFallback config groups wanted) := by
  apply anyM_of_pure
  intro g hg
  have hstop := hgroups g hg
  by_cases hfields : 9 ≤ g.len
  · simp only [if_pos hfields, number_eq hlen hstop hfields, isUas_eq hlen hstop,
      Option.bind_eq_bind, Option.bind_some]
    by_cases hnumber : byteAt config (g.start + 2) = wanted
    · simp [hfields, hnumber]
    · simp [hnumber]
  · simp [hfields]

theorem isHidden_eq {g : ByteRange} (hg : g ∈ groups) :
    isHidden config groups g =
      some (cutsRange config (Hci.hasFallback config groups) g) := by
  have hstop := hgroups g hg
  unfold isHidden cutsRange
  rw [isUas_eq hlen hstop]
  simp only [Option.bind_eq_bind, Option.bind_some]
  cases huas : Hci.isUas config g with
  | false => rfl
  | true =>
      have hfields : 9 ≤ g.len := by
        simp only [Hci.isUas, Bool.and_eq_true, decide_eq_true_eq] at huas
        exact huas.left.left.left
      simp only [if_true, number_eq hlen hstop hfields, Option.bind_some, Bool.true_and]
      exact hasFallback_eq hlen hgroups _

end Ranges

theorem rangesOf_stop {config : Bytes} {pos : Nat} {groups : List (List Bytes)}
    (h : config.drop pos = groups.flatten.flatten) (hpos : pos ≤ config.length)
    {g : ByteRange} (hg : g ∈ rangesOf pos groups) : g.stop ≤ config.length := by
  induction groups generalizing pos with
  | nil => cases hg
  | cons first rest ih =>
      rw [List.flatten_cons, List.flatten_append] at h
      have hlength := congrArg List.length h
      rw [List.length_drop, List.length_append] at hlength
      have hnext : pos + first.flatten.length ≤ config.length := by
        omega
      rw [rangesOf] at hg
      rcases List.mem_cons.mp hg with rfl | hg
      · unfold rangeAt
        dsimp only
        split
        · exact hnext
        · exact hpos
      · exact ih (drop_of_drop h) hnext hg

theorem cutGroups_eq {config : Bytes} {done pos : Nat} {groups : List (List Bytes)}
    (h : config.drop pos = groups.flatten.flatten) (hdone : done ≤ pos)
    (hpos : pos ≤ config.length) (p : ByteRange -> Bool) :
    cutGroups config done ((rangesOf pos groups).filter p) =
      some (Hci.cutGroups config done ((rangesOf pos groups).filter p)) := by
  induction groups generalizing done pos with
  | nil =>
      rw [rangesOf, List.filter_nil, cutGroups, Hci.cutGroups,
        slice_of_le (Nat.le_trans hdone hpos) (Nat.le_refl _), List.take_of_length_le]
      rw [List.length_drop]
  | cons first rest ih =>
      rw [List.flatten_cons, List.flatten_append] at h
      have hlength := congrArg List.length h
      rw [List.length_drop, List.length_append] at hlength
      have hnext : pos + first.flatten.length ≤ config.length := by
        omega
      rw [rangesOf, List.filter_cons]
      by_cases hpick : p (rangeAt pos first) = true
      · have hstop : (rangeAt pos first).stop ≤ pos + first.flatten.length := by
          unfold rangeAt
          dsimp only
          split <;> omega
        have hfront : slice config done (rangeAt pos first).start =
            some ((config.drop done).take ((rangeAt pos first).start - done)) :=
          slice_of_le hdone hpos
        rw [if_pos hpick, cutGroups, Hci.cutGroups, ih (drop_of_drop h) hstop hnext, hfront]
        rfl
      · rw [if_neg hpick]
        exact ih (drop_of_drop h) (by omega) hnext

/-!
# The whole function
-/

theorem isHeader_eq (config : Bytes) :
    isHeader config =
      some (!decide (config.length < 9 ∨ byteAt config 0 < 9 ∨ byteAt config 1 ≠ 2)) := by
  unfold isHeader
  by_cases hlength : config.length < 9
  · simp [hlength]
  · have hzero : config[0]? = some (byteAt config 0) := getElem?_byteAt (by omega)
    have hone : config[1]? = some (byteAt config 1) := getElem?_byteAt (by omega)
    simp only [if_neg hlength, hzero, hone, Option.bind_eq_bind, Option.bind_some]
    by_cases hfirst : byteAt config 0 < 9
    · simp [hfirst]
    · by_cases htype : byteAt config 1 = 2
      · simp [hlength, hfirst, htype]
      · simp [hfirst, htype]

theorem groupStart_le (c : Configuration) : c.groupStart ≤ c.bytes.length := by
  rw [c.bytes_eq, List.length_append, List.length_append]
  exact Nat.le_add_right _ _

theorem picked_eq {c : Configuration} (hlen : c.bytes.length ≤ 65535) :
    filterChecked (isHidden c.bytes (rangesOf c.groupStart c.groups))
      (rangesOf c.groupStart c.groups) = some c.picked := by
  apply filterChecked_of_pure
  intro g hg
  exact isHidden_eq hlen (fun g hg => rangesOf_stop c.bytes_drop (groupStart_le c) hg) hg

theorem hideGroups_eq {c : Configuration} (hlen : c.bytes.length ≤ 65535) :
    hideGroups c.bytes c.picked =
      some (Hci.setTotalLength c.kept (UInt16.ofNat c.kept.length),
        some (le16 (byteAt c.bytes 2) (byteAt c.bytes 3), UInt16.ofNat c.kept.length)) := by
  have hguard := c.guard
  have hlong : 4 ≤ c.kept.length := Nat.le_trans (by decide) c.kept_long
  have hle : c.kept.length ≤ 65535 := Nat.le_trans c.kept_length_le hlen
  have hcut : cutGroups c.bytes 0 c.picked = some c.kept := by
    rw [← c.cutGroups_picked]
    exact cutGroups_eq c.bytes_drop (Nat.zero_le _) (groupStart_le c) _
  unfold hideGroups setTotalLength
  rw [hcut]
  simp only [Option.bind_eq_bind, Option.bind_some]
  rw [fit_of_lt (Nat.lt_succ_of_le hle), Option.bind_some,
    slice_of_le (by decide) hlong, Option.bind_some,
    getElem?_byteAt (by omega), getElem?_byteAt (by omega)]
  rfl

/-- No index, slice, sum or cast of `hide_uas` is out of range. -/
theorem hideUas_eq {config : Bytes} (hlen : config.length ≤ 65535) :
    hideUas config = some (Hci.hideUas config) := by
  unfold hideUas
  rw [isHeader_eq]
  simp only [Option.bind_eq_bind, Option.bind_some]
  by_cases hguard : config.length < 9 ∨ byteAt config 0 < 9 ∨ byteAt config 1 ≠ 2
  · rw [Hci.hideUas, if_pos hguard]
    simp [hguard]
  · have hwalk : groupsFrom config (config.length + 1) (byteAt config 0).toNat [] =
        some (Hci.groupsFrom config (config.length + 1) (byteAt config 0).toNat []) :=
      groupsFrom_eq hlen (Nat.succ_pos config.length) (by omega)
    rw [decide_eq_false hguard, Bool.not_false, if_pos rfl, getElem?_byteAt (by omega),
      Option.bind_some, hwalk, Option.bind_some]
    cases hgroups : Hci.groupsFrom config (config.length + 1) (byteAt config 0).toNat []
        with
    | none =>
        rw [Hci.hideUas, if_neg hguard, hgroups]
        rfl
    | some groups =>
        dsimp only
        rcases groups_of_groupsFrom hguard hgroups with rfl | ⟨c, rfl⟩
        · rw [Hci.hideUas, if_neg hguard, hgroups]
          rfl
        · rw [c.groupsFrom_bytes] at hgroups
          cases hgroups
          rw [picked_eq hlen, Option.bind_some, c.hideUas_bytes]
          by_cases hempty : c.picked.isEmpty = true
          · rw [if_pos hempty, if_pos hempty]
            rfl
          · rw [if_neg hempty, if_neg hempty, hideGroups_eq hlen]

end Checked

/--
What `hide_uas` does to every input that a control read can return: it stays in
bounds; it leaves everything alone that is not a configuration; it takes exactly
the UAS groups with a fallback out of a configuration, and adjusts the total
length. So no interface is lost, and there is nothing left to hide.
-/
theorem hideUas_exact (config : Bytes) (hlen : config.length ≤ 65535) :
    Checked.hideUas config = some (hideUas config) ∧
      ((¬ exists c : Configuration, c.bytes = config) ->
        hideUas config = (config, none)) ∧
      (forall c : Configuration, c.bytes = config -> c.InterfacesFull ->
        (c.hidden = [] -> hideUas config = (config, none)) ∧
        (c.hidden ≠ [] -> exists total : UInt16, total.toNat = c.visible.length ∧
          hideUas config = (setTotalLength c.visible total,
            some (le16 (byteAt config 2) (byteAt config 3), total))) ∧
        forall number, c.HasInterface number ->
          exists c' : Configuration, c'.bytes = (hideUas config).1 ∧
            c'.HasInterface number) ∧
      hideUas (hideUas config).1 = ((hideUas config).1, none) := by
  refine ⟨Checked.hideUas_eq hlen, hideUas_malformed, ?_, hideUas_idempotent config⟩
  rintro c rfl hfull
  refine ⟨Configuration.hideUas_of_hidden_nil hfull, ?_,
    fun number => Configuration.hasInterface_of_hide hfull⟩
  intro hhidden
  have hle : c.visible.length ≤ 65535 := by
    rw [← Configuration.kept_of_full hfull]
    exact Nat.le_trans c.kept_length_le hlen
  refine ⟨UInt16.ofNat c.visible.length, ?_, ?_⟩
  · exact UInt16.toNat_ofNat_of_lt' (Nat.lt_succ_of_le hle)
  · rw [Configuration.hideUas_of_hidden hfull hhidden, c.byteAt_header (by decide),
      c.byteAt_header (by decide)]

def diskConfiguration : Configuration where
  header := [9, 2, 45, 0, 1, 1, 0, 0x80, 50]
  descriptors :=
    [[9, 4, 0, 0, 1, 0x08, 0x06, 0x50, 0], [7, 5, 0x81, 2, 0, 2, 0],
      [9, 4, 0, 1, 1, 0x08, 0x06, 0x62, 0], [7, 5, 0x82, 2, 0, 2, 0], [4, 0x24, 1, 0]]
  header_length := by decide
  header_long := by decide
  header_type := by decide
  descriptors_ok := by
    unfold IsDescriptor
    decide

theorem diskConfiguration_full : diskConfiguration.InterfacesFull := by
  unfold Configuration.InterfacesFull
  decide

theorem hideUas_exact_disk :
    diskConfiguration.bytes.length ≤ 65535 ∧ diskConfiguration.InterfacesFull ∧
      diskConfiguration.hidden ≠ [] ∧
      exists total : UInt16, total.toNat = diskConfiguration.visible.length ∧
        hideUas diskConfiguration.bytes = (setTotalLength diskConfiguration.visible total,
          some (le16 (byteAt diskConfiguration.bytes 2) (byteAt diskConfiguration.bytes 3),
            total)) := by
  have hlen : diskConfiguration.bytes.length ≤ 65535 := by decide
  have hhidden : diskConfiguration.hidden ≠ [] := by decide
  refine ⟨hlen, diskConfiguration_full, hhidden, ?_⟩
  have hexact := hideUas_exact diskConfiguration.bytes hlen
  exact (hexact.2.2.1 diskConfiguration rfl diskConfiguration_full).2.1 hhidden

end Hci
end UsbIp
