import Mathlib.Data.List.Induction
import UsbIp.Engine.Lengths
import UsbIp.Engine.Views
import UsbIp.Hci.Bounds
import UsbIp.Hci.Prefixes

/-!
# Reading configurations

A host reads the configurations of a device with control transfers, often a short
part first and then the whole.  The endpoint remembers one pair of lengths, from
the last answer that `hideUas` changed, and puts it into later answers that begin
with the same original length.  Here is a sequence of such reads on one endpoint,
and when the length that each of them reports is the one that the host has to see.
-/

namespace UsbIp
namespace Engine

open Foundation
open Protocol
open Hci
open Client (SubmitRequest)

variable {R : Type}

/-- A configuration as a device has it: its header says how long it is. -/
structure DeviceConfiguration extends Configuration where
  full : toConfiguration.InterfacesFull
  total_eq : (le16 (byteAt header 2) (byteAt header 3)).toNat = toConfiguration.bytes.length

def DeviceConfiguration.total (c : DeviceConfiguration) : UInt16 :=
  le16 (byteAt c.header 2) (byteAt c.header 3)

/-- GET_DESCRIPTOR(CONFIGURATION), and the length of the host's message for the data. -/
structure ConfigRead where
  index : UInt8
  wIndex : UInt16
  wLength : UInt16
  buffer : UInt32
  /-- The number under which the session submits the transfer. -/
  seqnum : UInt32

def ConfigRead.setup (r : ConfigRead) : Vector UInt8 8 :=
  #v[0x80, 0x06, r.index, 2, UInt8.ofNat r.wIndex.toNat, UInt8.ofNat (r.wIndex.toNat / 256),
    UInt8.ofNat r.wLength.toNat, UInt8.ofNat (r.wLength.toNat / 256)]

section Device

variable (device : List DeviceConfiguration)

/-- What the device sends: as much of the configuration as was asked for. -/
def answer (r : ConfigRead) : Bytes :=
  match device[r.index.toNat]? with
  | some c => c.bytes.take r.wLength.toNat
  | none => []

/-- The read is of a configuration of the device, and the host has room for the answer. -/
def Succeeds (r : ConfigRead) : Prop :=
  r.index.toNat < device.length ∧ (answer device r).length ≤ r.buffer.toNat

def configReply (r : ConfigRead) : RetSubmit where
  seqnum := r.seqnum
  status := 0
  actualLength := UInt32.ofNat (answer device r).length
  startFrame := 0
  errorCount := 0
  data := answer device r
  isoPackets := []

variable [Ring R] (key : EndpointKey)

/-- The pump meets the setup message. -/
def setupStage (e : Engine R) (r : ConfigRead) : Engine R :=
  match e.endpoints.lookup key with
  | none => e
  | some ep => (e.headRequest key ep (Transfer.setup r.setup)).1

def dataFlight (e : Engine R) (ep : Endpoint R) (r : ConfigRead) : InFlight :=
  newFlight e.nextToken (Ring.current ep.ring).1
    (controlRequest ep r.setup (min r.buffer (wLength r.setup).toUInt32))
    Stage.controlData r.seqnum

/-- The answer to the URB completes the data message. -/
def dataStage (e : Engine R) (r : ConfigRead) : Engine R :=
  match e.endpoints.lookup key with
  | none => e
  | some ep => (e.apply key ep (dataFlight e ep r) (.ok (configReply device r))).1

/-- The pump meets the status message. -/
def statusStage (e : Engine R) : Engine R :=
  match e.endpoints.lookup key with
  | none => e
  | some ep => (e.headRequest key ep Transfer.status).1

def readConfiguration (e : Engine R) (r : ConfigRead) : Engine R :=
  statusStage key (dataStage device key (setupStage key e r) r)

end Device

/-!
# One read
-/

theorem le16_leBytes (x : UInt16) :
    le16 (UInt8.ofNat x.toNat) (UInt8.ofNat (x.toNat / 256)) = x := by
  have hx : x.toNat < 65536 := x.toNat_lt
  have hword : x.toNat % 256 + x.toNat / 256 % 256 * 256 = x.toNat := by
    omega
  simp [le16, hword]

theorem leBytes16_le16 (low high : UInt8) : leBytes16 (le16 low high) = [low, high] := by
  have hlow : low.toNat < 256 := low.toNat_lt
  have hhigh : high.toNat < 256 := high.toNat_lt
  have hnat : (le16 low high).toNat = low.toNat + high.toNat * 256 := by
    unfold le16
    exact UInt16.toNat_ofNat_of_lt' (by show _ < 65536; omega)
  have hfirst : UInt8.ofNat (low.toNat + high.toNat * 256) = low := by
    apply UInt8.toNat_inj.mp
    rw [UInt8.toNat_ofNat']
    omega
  have hsecond : UInt8.ofNat ((low.toNat + high.toNat * 256) / 256) = high := by
    apply UInt8.toNat_inj.mp
    rw [UInt8.toNat_ofNat']
    omega
  rw [leBytes16, hnat, hfirst, hsecond]

theorem leBytes16_injective {x y : UInt16} (h : leBytes16 x = leBytes16 y) : x = y := by
  have hbytes := h
  simp only [leBytes16, List.cons.injEq, and_true] at hbytes
  rw [← le16_leBytes x, ← le16_leBytes y, hbytes.left, hbytes.right]

theorem ConfigRead.wLength_setup (r : ConfigRead) : Engine.wLength r.setup = r.wLength :=
  le16_leBytes r.wLength

theorem ConfigRead.direction (r : ConfigRead) : setupDirection r.setup = Direction.in := by
  apply if_pos
  show (0x80 : UInt8) &&& 0x80 ≠ 0
  decide

theorem ConfigRead.isGetConfiguration (r : ConfigRead) (dataDone : Bool) :
    Setup.isGetConfiguration { bytes := r.setup, dataDone := dataDone } = true := rfl

def shown (remembered : Option (UInt16 × UInt16)) (data : Bytes) : Bytes :=
  match hideUas data with
  | (out, some _) => out
  | (out, none) =>
      match remembered with
      | some (original, hidden) =>
          if 4 ≤ out.length ∧ (out.drop 2).take 2 = leBytes16 original then
            setTotalLength out hidden
          else
            out
      | none => out

def remember (remembered : Option (UInt16 × UInt16)) (data : Bytes) :
    Option (UInt16 × UInt16) :=
  match (hideUas data).2 with
  | some totals => some totals
  | none => remembered

theorem hideConfig_eq (ep : Endpoint R) (data : Bytes) :
    hideConfig ep data = (shown ep.hiddenConfig data,
      { ep with hiddenConfig := remember ep.hiddenConfig data },
      (hideUas data).2.isSome) := by
  unfold hideConfig shown remember
  cases hideUas data with
  | mk out totals =>
      cases totals with
      | some totals => rfl
      | none =>
          cases hpair : ep.hiddenConfig with
          | none =>
              cases ep
              cases hpair
              rfl
          | some pair =>
              cases ep
              cases hpair
              dsimp only
              split <;> rfl

section Reads

variable {device : List DeviceConfiguration} [Ring R] {key : EndpointKey}

theorem answer_length_le (device : List DeviceConfiguration) (r : ConfigRead) :
    (answer device r).length ≤ r.wLength.toNat := by
  unfold answer
  split
  · exact List.length_take_le _ _
  · exact Nat.zero_le _

theorem dataFlight_outcome {r : ConfigRead} (hr : Succeeds device r) (e : Engine R)
    (ep : Endpoint R) :
    (dataFlight e ep r).outcome (.ok (configReply device r)) =
      (Status.success, answer device r, UInt32.ofNat (answer device r).length) := by
  have hword := answer_length_le device r
  have hnat : (UInt32.ofNat (answer device r).length).toNat = (answer device r).length :=
    UInt32.toNat_ofNat_of_lt' (Nat.lt_of_le_of_lt hword
      (Nat.lt_of_lt_of_le r.wLength.toNat_lt (by decide)))
  have hlength : (dataFlight e ep r).length = min r.buffer r.wLength.toUInt32 := by
    unfold dataFlight newFlight controlRequest
    rw [r.direction, r.wLength_setup]
    rfl
  have hmin : min (UInt32.ofNat (answer device r).length) (dataFlight e ep r).length =
      UInt32.ofNat (answer device r).length := by
    apply UInt32.toNat_inj.mp
    rw [hlength, min_toNat, min_toNat, hnat, UInt16.toNat_toUInt32]
    have hroom := hr.right
    omega
  have hstage : (dataFlight e ep r).stage = Stage.controlData := rfl
  simp only [InFlight.outcome, hstage]
  show (Status.fromUrbStatus 0, (answer device r).take
    (min (UInt32.ofNat (answer device r).length) (dataFlight e ep r).length).toNat,
    min (UInt32.ofNat (answer device r).length) (dataFlight e ep r).length) = _
  rw [hmin, hnat, List.take_length]
  rfl

def HasSetup (e : Engine R) (key : EndpointKey) (r : ConfigRead) (dataDone : Bool)
    (remembered : Option (UInt16 × UInt16)) : Prop :=
  exists ep, e.endpoints.lookup key = some ep ∧
    ep.setup = some { bytes := r.setup, dataDone := dataDone } ∧
    ep.hiddenConfig = remembered

def Remembers (e : Engine R) (key : EndpointKey)
    (remembered : Option (UInt16 × UInt16)) : Prop :=
  exists ep, e.endpoints.lookup key = some ep ∧ ep.hiddenConfig = remembered

theorem completeHead_lookup (e : Engine R) (key : EndpointKey) (ep : Endpoint R)
    (status : Status) :
    exists ring, (e.completeHead key ep status).1.endpoints.lookup key =
      some { ep with ring := ring } := by
  rw [completeHead_fst]
  exact ⟨_, complete_lookup e.toCore key ep none status [] 0⟩

theorem setupStage_spec (hcontrol : isControl key = true) {e : Engine R}
    {remembered : Option (UInt16 × UInt16)} (h : Remembers e key remembered)
    (r : ConfigRead) : HasSetup (setupStage key e r) key r false remembered := by
  rcases h with ⟨ep, hep, hremembered⟩
  have hhead : e.headRequest key ep (Transfer.setup r.setup) = e.completeHead key
      { ep with setup := some { bytes := r.setup, dataDone := false } } Status.success := by
    delta headRequest
    rw [hcontrol]
  unfold setupStage
  rw [hep]
  dsimp only
  rw [hhead]
  rcases completeHead_lookup e key
    { ep with setup := some { bytes := r.setup, dataDone := false } } Status.success with
    ⟨ring, hlookup⟩
  exact ⟨_, hlookup, rfl, hremembered⟩

theorem statusStage_spec (hcontrol : isControl key = true) {e : Engine R} {r : ConfigRead}
    {remembered : Option (UInt16 × UInt16)} (h : HasSetup e key r true remembered) :
    Remembers (statusStage key e) key remembered := by
  rcases h with ⟨ep, hep, hsetup, hremembered⟩
  have hhead : e.headRequest key ep Transfer.status =
      e.completeHead key { ep with setup := none } Status.success := by
    delta headRequest
    rw [hcontrol, hsetup]
  unfold statusStage
  rw [hep]
  dsimp only
  rw [hhead]
  rcases completeHead_lookup e key { ep with setup := none } Status.success with
    ⟨ring, hlookup⟩
  exact ⟨_, hlookup, hremembered⟩

theorem dataStage_spec {e : Engine R} {r : ConfigRead} (hr : Succeeds device r)
    {remembered : Option (UInt16 × UInt16)} (h : HasSetup e key r false remembered) :
    HasSetup (dataStage device key e r) key r true
        (remember remembered (answer device r)) ∧
      exists c, (dataStage device key e r).log = Event.completed c :: e.log ∧
        c.data = shown remembered (answer device r) := by
  rcases h with ⟨ep, hep, hsetup, hremembered⟩
  have hin : (dataFlight e ep r).direction = Direction.in := by
    unfold dataFlight newFlight controlRequest
    rw [r.direction]
    rfl
  have houtcome := dataFlight_outcome hr e ep
  have hstage : applyStage ep (dataFlight e ep r).stage
      (if (dataFlight e ep r).direction = Direction.in then
        ((dataFlight e ep r).outcome (.ok (configReply device r))).2.1 else [])
      ((dataFlight e ep r).outcome (.ok (configReply device r))).2.2 =
      ({ ep with
          setup := some { bytes := r.setup, dataDone := true }
          hiddenConfig := remember remembered (answer device r) },
        shown remembered (answer device r),
        min (UInt32.ofNat (answer device r).length)
          (UInt32.ofNat (shown remembered (answer device r)).length),
        (hideUas (answer device r)).2.isSome) := by
    rw [if_pos hin, houtcome]
    show applyStage ep Stage.controlData _ _ = _
    unfold applyStage
    simp only [hsetup, Option.map_some, Option.any_some, r.isGetConfiguration, if_true,
      hideConfig_eq, hremembered]
  unfold dataStage
  rw [hep]
  dsimp only
  rw [apply_fst hstage]
  constructor
  · exact ⟨_, complete_lookup e.toCore key _ _ _ _ _, rfl, rfl⟩
  · exact ⟨_, rfl, rfl⟩

/-!
# Sequences of reads
-/

/-- The read ends between two descriptors, and a group of the answer is hidden in it. -/
def filters (device : List DeviceConfiguration) (r : ConfigRead) : Bool :=
  match device[r.index.toNat]? with
  | some c => c.hidesWithin r.wLength.toNat
  | none => false

theorem answer_eq {c : DeviceConfiguration} {r : ConfigRead}
    (hc : device[r.index.toNat]? = some c) :
    answer device r = c.bytes.take r.wLength.toNat := by
  rw [answer, hc]

theorem filters_eq {c : DeviceConfiguration} {r : ConfigRead}
    (hc : device[r.index.toNat]? = some c) :
    filters device r = c.hidesWithin r.wLength.toNat := by
  rw [filters, hc]

/-- These are the answers that `hideUas` changes. -/
theorem filters_iff (device : List DeviceConfiguration) (r : ConfigRead) :
    filters device r = true <-> (hideUas (answer device r)).2.isSome = true := by
  cases hc : device[r.index.toNat]? with
  | none =>
      rw [filters, answer, hc]
      have hnothing : (hideUas []).2.isSome = false := by decide
      dsimp only
      rw [hnothing]
  | some c =>
      rw [filters_eq hc, Configuration.hidesWithin_iff, answer_eq hc]
      constructor
      · rintro ⟨c', hbytes, hhidden⟩
        have hfull := Configuration.full_of_prefix hbytes c.full
        rw [← hbytes, Configuration.hideUas_of_hidden hfull hhidden]
        rfl
      · intro h
        rcases hideUas_cases (c.bytes.take r.wLength.toNat) with hsame | ⟨c', hbytes, hcut⟩
        · rw [hsame] at h
          cases h
        · have hfull := Configuration.full_of_prefix hbytes c.full
          exact ⟨c', hbytes, (Configuration.hidden_iff_of_full hfull).mpr hcut⟩

/-- The last read of a sequence that filters. -/
def lastFiltered (device : List DeviceConfiguration) (reads : List ConfigRead) :
    Option ConfigRead :=
  reads.reverse.find? (filters device)

/-- One of the reads was of the whole configuration. -/
def ReadInFull (c : DeviceConfiguration) (index : UInt8) (reads : List ConfigRead) : Prop :=
  exists r, r ∈ reads ∧ r.index = index ∧ c.bytes.length ≤ r.wLength.toNat

def rememberedAfter (device : List DeviceConfiguration) (reads : List ConfigRead) :
    Option (UInt16 × UInt16) :=
  (lastFiltered device reads).bind fun r => (hideUas (answer device r)).2

theorem totals_of_not_filters {r : ConfigRead} (h : filters device r = false) :
    (hideUas (answer device r)).2 = none := by
  apply Option.not_isSome_iff_eq_none.mp
  intro hsome
  rw [(filters_iff device r).mpr hsome] at h
  cases h

theorem rememberedAfter_append (device : List DeviceConfiguration) (reads : List ConfigRead)
    (r : ConfigRead) :
    rememberedAfter device (reads ++ [r]) =
      remember (rememberedAfter device reads) (answer device r) := by
  unfold rememberedAfter lastFiltered remember
  rw [List.reverse_append, List.reverse_singleton, List.singleton_append, List.find?_cons]
  cases hfilters : filters device r with
  | true =>
      rcases Option.isSome_iff_exists.mp ((filters_iff device r).mp hfilters) with
        ⟨totals, htotals⟩
      rw [htotals]
      exact htotals
  | false => rw [totals_of_not_filters hfilters]

theorem readConfiguration_remembers (hcontrol : isControl key = true) {e : Engine R}
    {r : ConfigRead} (hr : Succeeds device r) {remembered : Option (UInt16 × UInt16)}
    (h : Remembers e key remembered) :
    Remembers (readConfiguration device key e r) key
      (remember remembered (answer device r)) :=
  statusStage_spec hcontrol (dataStage_spec hr (setupStage_spec hcontrol h r)).left

/-- After any sequence of reads the endpoint remembers what the last change left. -/
theorem readAll_remembers (hcontrol : isControl key = true) {e : Engine R}
    (h : Remembers e key none) {reads : List ConfigRead}
    (hreads : forall r, r ∈ reads -> Succeeds device r) :
    Remembers (reads.foldl (readConfiguration device key) e) key
      (rememberedAfter device reads) := by
  induction reads using List.reverseRecOn with
  | nil => exact h
  | append_singleton reads r ih =>
      rw [List.foldl_append, List.foldl_cons, List.foldl_nil, rememberedAfter_append]
      apply readConfiguration_remembers hcontrol (hreads r (by simp))
      exact ih fun r' hr' => hreads r' (List.mem_append_left _ hr')

/-!
# The lengths that are shown
-/

/-- Bytes 2 and 3, where `wTotalLength` is. -/
def totalField (data : Bytes) : Bytes :=
  (data.drop 2).take 2

theorem totalField_setTotalLength {data : Bytes} (h : 4 ≤ data.length) (total : UInt16) :
    totalField (setTotalLength data total) = leBytes16 total := by
  have htake : (data.take 2).length = 2 := by
    rw [List.length_take]
    omega
  rw [totalField, setTotalLength, List.append_assoc, List.drop_left' htake]
  rfl

theorem totalField_eq {data : Bytes} (h : 4 ≤ data.length) :
    totalField data = [byteAt data 2, byteAt data 3] := by
  rw [totalField, Hci.Checked.drop_byteAt (by omega), Hci.Checked.drop_byteAt (by omega)]
  rfl

variable {c : DeviceConfiguration} {r : ConfigRead}

theorem totalField_answer (hc : device[r.index.toNat]? = some c)
    (hlong : 4 ≤ (answer device r).length) :
    totalField (answer device r) = leBytes16 c.total := by
  have hbyte : forall k, k < 4 -> byteAt (answer device r) k = byteAt c.header k := by
    intro k hk
    rw [← c.byteAt_header (by omega),
      ← byteAt_append (by omega) (c.bytes.drop r.wLength.toNat), answer_eq hc,
      List.take_append_drop]
  rw [totalField_eq hlong, hbyte 2 (by decide), hbyte 3 (by decide),
    DeviceConfiguration.total, leBytes16_le16]

theorem hideUas_of_not_filters (h : filters device r = false) :
    hideUas (answer device r) = (answer device r, none) := by
  have hnone := totals_of_not_filters h
  rcases hideUas_cases (answer device r) with hsame | ⟨c', hbytes, hcut⟩
  · exact hsame
  · rw [← hbytes, c'.hideUas_some hcut] at hnone
    cases hnone

theorem hideUas_of_filters (hc : device[r.index.toNat]? = some c)
    (h : filters device r = true) :
    exists c' : Configuration, c'.bytes = c.bytes.take r.wLength.toNat ∧ c'.hidden ≠ [] ∧
      hideUas (answer device r) =
        (setTotalLength c'.visible (UInt16.ofNat c'.visible.length),
          some (c.total, UInt16.ofNat c'.visible.length)) := by
  rw [filters_eq hc] at h
  rcases Configuration.hidesWithin_iff.mp h with ⟨c', hbytes, hhidden⟩
  have hfull := Configuration.full_of_prefix hbytes c.full
  refine ⟨c', hbytes, hhidden, ?_⟩
  rw [answer_eq hc, ← hbytes, Configuration.hideUas_of_hidden hfull hhidden,
    (Configuration.prefix_of_bytes hbytes).left]
  rfl

theorem visible_long (c : Configuration) : 4 ≤ c.visible.length := by
  have hlong := c.header_long
  rw [Configuration.visible, List.length_append, List.length_append]
  omega

theorem shown_of_filters (hc : device[r.index.toNat]? = some c)
    (h : filters device r = true) (hcut : c.CutHidden r.wLength.toNat)
    (remembered : Option (UInt16 × UInt16)) :
    totalField (shown remembered (answer device r)) =
      leBytes16 (UInt16.ofNat c.visible.length) := by
  rcases hideUas_of_filters hc h with ⟨c', hbytes, _, hhide⟩
  rw [shown, hhide]
  dsimp only
  rw [totalField_setTotalLength (visible_long c'),
    Configuration.visible_of_cutHidden hbytes hcut]

theorem totals_of_filters (hc : device[r.index.toNat]? = some c)
    (h : filters device r = true) :
    exists hidden, (hideUas (answer device r)).2 = some (c.total, hidden) ∧
      (c.CutHidden r.wLength.toNat -> hidden = UInt16.ofNat c.visible.length) := by
  rcases hideUas_of_filters hc h with ⟨c', hbytes, _, hhide⟩
  refine ⟨UInt16.ofNat c'.visible.length, by rw [hhide], ?_⟩
  intro hcut
  rw [Configuration.visible_of_cutHidden hbytes hcut]

theorem filters_of_full (hc : device[r.index.toNat]? = some c) (hhidden : c.hidden ≠ [])
    (hfull : c.bytes.length ≤ r.wLength.toNat) : filters device r = true := by
  rw [filters_eq hc, Configuration.hidesWithin_iff]
  exact ⟨c.toConfiguration, (List.take_of_length_le hfull).symm, hhidden⟩

theorem not_filters_of_nothing (hc : device[r.index.toNat]? = some c)
    (hnothing : c.hidden = []) : filters device r = false := by
  cases hfilters : filters device r with
  | false => rfl
  | true =>
      rcases hideUas_of_filters hc hfilters with ⟨c', hbytes, hhidden, _⟩
      exact absurd hnothing (Configuration.hidden_of_prefix hbytes hhidden)

theorem lastFiltered_spec {reads : List ConfigRead} (h : lastFiltered device reads = some r) :
    r ∈ reads ∧ filters device r = true := by
  constructor
  · exact List.mem_reverse.mp (List.mem_of_find?_eq_some h)
  · exact List.find?_some h

theorem lastFiltered_of_full {reads : List ConfigRead} (hhidden : c.hidden ≠ [])
    (hc : device[r.index.toNat]? = some c) (h : ReadInFull c r.index reads) :
    exists r', lastFiltered device reads = some r' := by
  rcases h with ⟨s, hs, hindex, hfull⟩
  have hfilters : filters device s = true :=
    filters_of_full (by rw [hindex]; exact hc) hhidden hfull
  cases hlast : lastFiltered device reads with
  | some r' => exact ⟨r', rfl⟩
  | none =>
      have hnone := List.find?_eq_none.mp hlast s (List.mem_reverse.mpr hs)
      exact absurd hfilters hnone

/--
When a read shows the right length. If it filters and the whole configuration was
read before, then all that is cut off is hidden. If it does not, then the last
read that did was of a configuration with the same lengths, and nothing visible
was cut off; or it was of a configuration of another length, if this one has
nothing to hide.
-/
structure ReadOk (device : List DeviceConfiguration) (before : List ConfigRead)
    (r : ConfigRead) (c : DeviceConfiguration) : Prop where
  uncut : filters device r = true -> ReadInFull c r.index before ->
    c.CutHidden r.wLength.toNat
  same : filters device r = false -> ReadInFull c r.index before -> c.hidden ≠ [] ->
    forall r' c', lastFiltered device before = some r' ->
      device[r'.index.toNat]? = some c' ->
      c'.total = c.total ∧ c'.visible.length = c.visible.length ∧
        c'.CutHidden r'.wLength.toNat
  other : filters device r = false -> c.hidden = [] ->
    forall r' c', lastFiltered device before = some r' ->
      device[r'.index.toNat]? = some c' -> c'.total ≠ c.total

/-- A read that does not filter shows its own length or the remembered one. -/
theorem shown_of_not_filters (hc : device[r.index.toNat]? = some c)
    (h : filters device r = false) (hlong : 4 ≤ (answer device r).length)
    (remembered : Option (UInt16 × UInt16)) :
    (forall hidden, remembered = some (c.total, hidden) ->
        totalField (shown remembered (answer device r)) = leBytes16 hidden) ∧
      ((forall original hidden, remembered = some (original, hidden) ->
          original ≠ c.total) ->
        totalField (shown remembered (answer device r)) = leBytes16 c.total) := by
  have hfield := totalField_answer hc hlong
  rw [shown, hideUas_of_not_filters h]
  dsimp only
  constructor
  · rintro hidden rfl
    dsimp only
    rw [if_pos ⟨hlong, hfield⟩, totalField_setTotalLength hlong]
  · intro hother
    cases remembered with
    | none => exact hfield
    | some pair =>
        rcases pair with ⟨original, hidden⟩
        have hnot : ¬ (4 ≤ (answer device r).length ∧
            ((answer device r).drop 2).take 2 = leBytes16 original) := by
          rintro ⟨_, hsame⟩
          have htotal : leBytes16 c.total = leBytes16 original := hfield.symm.trans hsame
          exact hother original hidden rfl (leBytes16_injective htotal.symm)
        dsimp only
        rw [if_neg hnot]
        exact hfield

theorem shown_length {before : List ConfigRead}
    (hbefore : forall r', r' ∈ before -> Succeeds device r')
    (hc : device[r.index.toNat]? = some c) (hlong : 4 ≤ (answer device r).length)
    (hok : ReadOk device before r c) :
    (ReadInFull c r.index before -> c.hidden ≠ [] ->
        totalField (shown (rememberedAfter device before) (answer device r)) =
          leBytes16 (UInt16.ofNat c.visible.length)) ∧
      (c.hidden = [] ->
        totalField (shown (rememberedAfter device before) (answer device r)) =
          leBytes16 c.total) := by
  have hlast : forall r', lastFiltered device before = some r' ->
      exists c' hidden, device[r'.index.toNat]? = some c' ∧
        rememberedAfter device before = some (c'.total, hidden) ∧
        (c'.CutHidden r'.wLength.toNat -> hidden = UInt16.ofNat c'.visible.length) := by
    intro r' hr'
    rcases lastFiltered_spec hr' with ⟨hmem, hfilters⟩
    have hc' := List.getElem?_eq_getElem (hbefore r' hmem).left
    rcases totals_of_filters hc' hfilters with ⟨hidden, htotals, hcut⟩
    refine ⟨_, hidden, hc', ?_, hcut⟩
    rw [rememberedAfter, hr']
    exact htotals
  constructor
  · intro hread hhidden
    cases hfilters : filters device r with
    | true => exact shown_of_filters hc hfilters (hok.uncut hfilters hread) _
    | false =>
        rcases lastFiltered_of_full hhidden hc hread with ⟨r', hr'⟩
        rcases hlast r' hr' with ⟨c', hidden, hc', hremembered, hcut⟩
        rcases hok.same hfilters hread hhidden r' c' hr' hc' with ⟨htotal, hvisible, huncut⟩
        rw [htotal] at hremembered
        rw [(shown_of_not_filters hc hfilters hlong _).left hidden hremembered, hcut huncut,
          hvisible]
  · intro hnothing
    have hfilters := not_filters_of_nothing hc hnothing
    apply (shown_of_not_filters hc hfilters hlong _).right
    intro original hidden hremembered
    cases hr' : lastFiltered device before with
    | none =>
        rw [rememberedAfter, hr'] at hremembered
        cases hremembered
    | some r' =>
        rcases hlast r' hr' with ⟨c', hidden', hc', hpair, _⟩
        rw [hpair] at hremembered
        cases hremembered
        exact hok.other hfilters hnothing r' c' hr' hc'

/--
In every sequence of successful reads on a control endpoint that meet the
condition, each answer of at least four bytes shows the length that the host has
to see: that of the filtered configuration once it was read in full, and its own
length if there is nothing to hide.
-/
theorem configuration_reads_agree (device : List DeviceConfiguration) (key : EndpointKey)
    (hcontrol : isControl key = true) (e : Engine R) (ep : Endpoint R)
    (hep : e.endpoints.lookup key = some ep) (hnew : ep.hiddenConfig = none)
    (reads : List ConfigRead) (hreads : forall r, r ∈ reads -> Succeeds device r)
    (hok : forall before r after c, reads = before ++ r :: after ->
      device[r.index.toNat]? = some c -> ReadOk device before r c)
    (before : List ConfigRead) (r : ConfigRead) (after : List ConfigRead)
    (c : DeviceConfiguration) (hsplit : reads = before ++ r :: after)
    (hc : device[r.index.toNat]? = some c) (hlong : 4 ≤ (answer device r).length) :
    exists completion older,
      (dataStage device key
        (setupStage key (before.foldl (readConfiguration device key) e) r) r).log =
        Event.completed completion :: older ∧
      (ReadInFull c r.index before -> c.hidden ≠ [] ->
        totalField completion.data = leBytes16 (UInt16.ofNat c.visible.length)) ∧
      (c.hidden = [] -> totalField completion.data = leBytes16 c.total) := by
  have hbefore : forall r', r' ∈ before -> Succeeds device r' := by
    intro r' hr'
    apply hreads
    rw [hsplit]
    exact List.mem_append_left _ hr'
  have hr : Succeeds device r := by
    apply hreads
    rw [hsplit]
    simp
  have hremembers := readAll_remembers hcontrol ⟨ep, hep, hnew⟩ hbefore
  rcases (dataStage_spec hr (setupStage_spec hcontrol hremembers r)).right with
    ⟨completion, hlog, hdata⟩
  refine ⟨completion, _, hlog, ?_⟩
  rw [hdata]
  exact shown_length hbefore hc hlong (hok before r after c hsplit hc)

end Reads

theorem readOk_of_single {c : DeviceConfiguration} {before : List ConfigRead}
    {r : ConfigRead}
    (h : forall r', r' ∈ before ++ [r] -> filters [c] r' = true ->
      c.bytes.length ≤ r'.wLength.toNat) : ReadOk [c] before r c := by
  have hlast : forall r' c', lastFiltered [c] before = some r' ->
      [c][r'.index.toNat]? = some c' ->
      c' = c ∧ filters [c] r' = true ∧ c.CutHidden r'.wLength.toNat := by
    intro r' c' hr' hc'
    rcases lastFiltered_spec hr' with ⟨hmem, hfilters⟩
    refine ⟨List.mem_singleton.mp (List.mem_of_getElem? hc'), hfilters, ?_⟩
    exact Configuration.cutHidden_of_le (h r' (List.mem_append_left _ hmem) hfilters)
  constructor
  · intro hfilters _
    exact Configuration.cutHidden_of_le (h r (by simp) hfilters)
  · intro _ _ _ r' c' hr' hc'
    rcases hlast r' c' hr' hc' with ⟨rfl, _, hcut⟩
    exact ⟨rfl, rfl, hcut⟩
  · intro _ hnothing r' c' hr' hc'
    rcases hlast r' c' hr' hc' with ⟨rfl, hfilters, _⟩
    rw [not_filters_of_nothing hc' hnothing] at hfilters
    cases hfilters

/-!
# Disks and their reads
-/

def interfacesHeader (total count : UInt8) : Bytes :=
  [9, 2, total, 0, count, 1, 0, 0x80, 50]

def storageInterface (number alternate protocol : UInt8) : Bytes :=
  [9, 4, number, alternate, 0, 0x08, 0x06, protocol, 0]

def plainDisk : DeviceConfiguration where
  header := interfacesHeader 27 1
  descriptors := [storageInterface 0 0 0x50, storageInterface 0 1 0x62]
  header_length := by decide
  header_long := by decide
  header_type := by decide
  descriptors_ok := by
    unfold IsDescriptor
    decide
  full := by
    unfold Configuration.InterfacesFull
    decide
  total_eq := by decide

def diskAndMore : DeviceConfiguration where
  header := interfacesHeader 36 2
  descriptors :=
    [storageInterface 0 0 0x50, storageInterface 0 1 0x62, storageInterface 1 0 0x50]
  header_length := by decide
  header_long := by decide
  header_type := by decide
  descriptors_ok := by
    unfold IsDescriptor
    decide
  full := by
    unfold Configuration.InterfacesFull
    decide
  total_eq := by decide

def twoDisks : DeviceConfiguration where
  header := interfacesHeader 27 2
  descriptors := [storageInterface 0 0 0x50, storageInterface 1 0 0x50]
  header_length := by decide
  header_long := by decide
  header_type := by decide
  descriptors_ok := by
    unfold IsDescriptor
    decide
  full := by
    unfold Configuration.InterfacesFull
    decide
  total_eq := by decide

def readOf (index : UInt8) (wLength : UInt16) : ConfigRead where
  index := index
  wIndex := 0
  wLength := wLength
  buffer := 4096
  seqnum := 1

def controlEngine : Engine QueueRing :=
  addEndpoint (start sampleDevice []) (1, 0)
    { kind := EndpointKind.control, maxPacketSize := 64, bInterval := 0 }
    { active := true, slots := [], next := 1 }

def shownTotal (device : List DeviceConfiguration) (before : List ConfigRead)
    (r : ConfigRead) : Option Bytes :=
  match (dataStage device (1, 0) (setupStage (1, 0)
      (before.foldl (readConfiguration device (1, 0)) controlEngine) r) r).log with
  | Event.completed c :: _ => some (totalField c.data)
  | _ => none

theorem configuration_reads_agree_header :
    exists completion older,
      (dataStage [plainDisk] (1, 0) (setupStage (1, 0)
        ([readOf 0 255].foldl (readConfiguration [plainDisk] (1, 0)) controlEngine)
          (readOf 0 9)) (readOf 0 9)).log = Event.completed completion :: older ∧
      totalField completion.data = leBytes16 (UInt16.ofNat plainDisk.visible.length) := by
  have hsucceeds : forall r, r ∈ [readOf 0 255, readOf 0 9] -> Succeeds [plainDisk] r := by
    intro r hr
    simp only [List.mem_cons, List.not_mem_nil, or_false] at hr
    rcases hr with rfl | rfl
    · exact ⟨by decide, by decide⟩
    · exact ⟨by decide, by decide⟩
  have hwhole : forall r, r ∈ [readOf 0 255, readOf 0 9] -> filters [plainDisk] r = true ->
      plainDisk.bytes.length ≤ r.wLength.toNat := by
    intro r hr hfilters
    simp only [List.mem_cons, List.not_mem_nil, or_false] at hr
    rcases hr with rfl | rfl
    · decide
    · exact absurd hfilters (by decide)
  have hok : forall before r after c, [readOf 0 255, readOf 0 9] = before ++ r :: after ->
      [plainDisk][r.index.toNat]? = some c -> ReadOk [plainDisk] before r c := by
    intro before r after c hsplit hc
    have hsame : c = plainDisk := List.mem_singleton.mp (List.mem_of_getElem? hc)
    subst hsame
    apply readOk_of_single
    intro r' hr'
    apply hwhole
    rw [hsplit]
    rcases List.mem_append.mp hr' with hr' | hr'
    · exact List.mem_append_left _ hr'
    · rw [List.mem_singleton.mp hr']
      simp
  rcases configuration_reads_agree [plainDisk] (1, 0) rfl controlEngine _ rfl rfl
    [readOf 0 255, readOf 0 9] hsucceeds hok [readOf 0 255] (readOf 0 9) [] plainDisk rfl rfl
    (by decide) with ⟨completion, older, hlog, hfull, _⟩
  refine ⟨completion, older, hlog, hfull ⟨readOf 0 255, by simp, rfl, by decide⟩ ?_⟩
  decide

/--
Where reads disagree: a read that ends between two descriptors shows the length
of what was read; a second configuration with UAS takes the place of the first;
and a configuration with nothing to hide shows the length of another one.
-/
theorem configuration_reads_disagree :
    (diskAndMore.visible.length = 27 ∧
        shownTotal [diskAndMore] [readOf 0 255] (readOf 0 27) = some (leBytes16 18)) ∧
      (plainDisk.visible.length = 18 ∧
        shownTotal [plainDisk, diskAndMore] [readOf 0 255, readOf 1 255] (readOf 0 9) =
          some (leBytes16 27)) ∧
      (twoDisks.hidden = [] ∧ twoDisks.total = 27 ∧
        shownTotal [plainDisk, twoDisks] [readOf 0 255] (readOf 1 9) =
          some (leBytes16 18)) := by
  decide +kernel

end Engine
end UsbIp
