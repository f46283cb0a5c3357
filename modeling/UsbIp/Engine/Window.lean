import UsbIp.Engine.SlotRing
import UsbIp.Engine.Views

/-!
# The window of messages in flight

URBs in flight belong to the first messages of the ring that are not links, in
ring order.  The head of the ring is its first slot, a link or not, so a URB at
the front of the queue belongs to the head as long as the head is no link.  The
pump moves the head: it goes on over every message whose URB has been answered.
If it comes to a link while other URBs are still in flight, the ring looks as if
the host had moved it.
-/

namespace UsbIp
namespace Engine

open Foundation
open Protocol
open Hci
open Client (SubmitRequest TransferResult)

/-!
# Queues and slots
-/

def NoLinks (slots : List Slot) : Prop :=
  forall s, s ∈ slots -> s.isLink = false

instance (slots : List Slot) : Decidable (NoLinks slots) :=
  inferInstanceAs (Decidable (forall s, s ∈ slots -> s.isLink = false))

theorem NoLinks.tail {slots : List Slot} (h : NoLinks slots) : NoLinks slots.tail :=
  fun s hs => h s (List.mem_of_mem_tail hs)

/-- URBs in flight belong to the first messages that are not links. -/
def Windowed (flights : List InFlight) (slots : List Slot) : Prop :=
  flights.map InFlight.message <+: (transfersOf slots).map Slot.id

theorem transfersOf_append (slots more : List Slot) :
    transfersOf (slots ++ more) = transfersOf slots ++ transfersOf more :=
  List.filter_append _ _

theorem transfersOf_cons {s : Slot} (h : s.isLink = false) (slots : List Slot) :
    transfersOf (s :: slots) = s :: transfersOf slots := by
  simp [transfersOf, h]

theorem transfersOf_eq_self {slots : List Slot} (h : NoLinks slots) : transfersOf slots = slots := by
  apply List.filter_eq_self.mpr
  intro s hs
  simp [h s hs]

theorem Windowed.nil (slots : List Slot) : Windowed [] slots :=
  List.nil_prefix

theorem Windowed.append {flights : List InFlight} {slots : List Slot}
    (h : Windowed flights slots) (more : List Slot) : Windowed flights (slots ++ more) := by
  apply h.trans
  rw [transfersOf_append, List.map_append]
  exact List.prefix_append _ _

theorem Windowed.front {front back : List InFlight} {slots : List Slot}
    (h : Windowed (front ++ back) slots) : Windowed front slots := by
  refine List.IsPrefix.trans ?_ h
  rw [List.map_append]
  exact List.prefix_append _ _

theorem Windowed.congr {flights flights' : List InFlight} {slots : List Slot}
    (h : Windowed flights slots)
    (hsame : flights'.map InFlight.message = flights.map InFlight.message) :
    Windowed flights' slots := by
  unfold Windowed
  rw [hsame]
  exact h

theorem Windowed.push {flights : List InFlight} {slots : List Slot}
    (h : Windowed flights slots) {s : Slot} {f : InFlight}
    (hs : (transfersOf slots)[flights.length]? = some s) (hf : f.message = s.id) :
    Windowed (flights ++ [f]) slots := by
  rcases h with ⟨rest, hrest⟩
  have hnext : ((transfersOf slots).map Slot.id)[flights.length]? = some s.id := by
    rw [List.getElem?_map, hs]
    rfl
  rw [← hrest, List.getElem?_append_right (by simp)] at hnext
  simp only [List.length_map, Nat.sub_self] at hnext
  cases rest with
  | nil => cases hnext
  | cons id rest =>
      cases hnext
      refine ⟨rest, ?_⟩
      rw [← hrest, List.map_append, List.append_assoc]
      simp [hf]

theorem Windowed.length_le {flights : List InFlight} {slots : List Slot}
    (h : Windowed flights slots) : flights.length ≤ slots.length := by
  have hlength := List.IsPrefix.length_le h
  rw [List.length_map, List.length_map] at hlength
  exact Nat.le_trans hlength (List.length_filter_le _ _)

theorem Windowed.slots_ne_nil {f : InFlight} {flights : List InFlight} {slots : List Slot}
    (h : Windowed (f :: flights) slots) : slots ≠ [] := by
  rintro rfl
  simp [Windowed, transfersOf] at h

theorem Windowed.head {f : InFlight} {flights : List InFlight} {s : Slot}
    {slots : List Slot} (h : Windowed (f :: flights) (s :: slots)) (hs : s.isLink = false) :
    f.message = s.id ∧ Windowed flights slots := by
  unfold Windowed at h
  rw [transfersOf_cons hs, List.map_cons, List.map_cons, List.cons_prefix_cons] at h
  exact h

/-!
# Links ahead
-/

variable {R : Type} [SlotRing R]

def atLink (ring : R) : Bool :=
  (SlotRing.slots ring).head?.any Slot.isLink

/--
The pump comes to a link while URBs are in flight, having completed the messages
of those that have been answered, as long as the host accepts it and the ring is
active.
-/
def strands (key : EndpointKey) : Endpoint R -> List InFlight -> Bool
  | _, [] => false
  | ep, f :: rest =>
      Ring.active ep.ring && (atLink ep.ring || match f.result with
        | some result =>
            (settle key { ep with inFlight := rest } f result).2.1.accepted &&
              strands key (settle key { ep with inFlight := rest } f result).1 rest
        | none => false)

theorem strands_inFlight (key : EndpointKey) (ep : Endpoint R) (flights queue : List InFlight) :
    strands key { ep with inFlight := flights } queue = strands key ep queue := by
  cases queue with
  | nil => rfl
  | cons f rest => rfl

theorem strands_atLink {key : EndpointKey} {ep : Endpoint R} {flights : List InFlight}
    (h : strands key ep flights = false) (hactive : Ring.active ep.ring = true)
    (hsome : flights ≠ []) : atLink ep.ring = false := by
  cases flights with
  | nil => exact absurd rfl hsome
  | cons f rest =>
      simp only [strands, hactive, Bool.true_and, Bool.or_eq_false_iff] at h
      exact h.left

theorem strands_cons {key : EndpointKey} {ep : Endpoint R} {f : InFlight}
    {rest : List InFlight} (h : strands key ep (f :: rest) = false)
    (hactive : Ring.active ep.ring = true) {result : TransferResult}
    (hresult : f.result = some result)
    (haccepted : (settle key { ep with inFlight := rest } f result).2.1.accepted = true) :
    strands key (settle key { ep with inFlight := rest } f result).1 rest = false := by
  simp only [strands, hresult, hactive, haccepted, Bool.true_and, Bool.or_eq_false_iff] at h
  exact h.right

theorem settle_slots {key : EndpointKey} {ep : Endpoint R} {f : InFlight}
    {result : TransferResult} (haccepted : (settle key ep f result).2.1.accepted = true) :
    SlotRing.slots (settle key ep f result).1.ring = (SlotRing.slots ep.ring).tail := by
  have hcomplete := settle_complete key ep f result
  rw [hcomplete.right] at haccepted
  rw [hcomplete.left]
  exact SlotRing.complete_slots haccepted

theorem atLink_of_noLinks {ring : R} (h : NoLinks (SlotRing.slots ring)) :
    atLink ring = false := by
  unfold atLink
  cases hslots : SlotRing.slots ring with
  | nil => rfl
  | cons s rest => exact h s (hslots ▸ List.mem_cons_self)

theorem strands_of_noLinks (key : EndpointKey) {ep : Endpoint R}
    (h : NoLinks (SlotRing.slots ep.ring)) (flights : List InFlight) :
    strands key ep flights = false := by
  induction flights generalizing ep with
  | nil => rfl
  | cons f rest ih =>
      cases hresult : f.result with
      | none =>
          simp only [strands, atLink_of_noLinks h, hresult, Bool.or_false, Bool.and_false]
      | some result =>
          cases haccepted :
              (settle key { ep with inFlight := rest } f result).2.1.accepted with
          | false =>
              simp only [strands, atLink_of_noLinks h, hresult, haccepted, Bool.false_and,
                Bool.or_false, Bool.and_false]
          | true =>
              have hrest : strands key (settle key { ep with inFlight := rest } f result).1
                  rest = false := by
                apply ih
                rw [settle_slots haccepted]
                exact h.tail
              simp only [strands, atLink_of_noLinks h, hresult, hrest, Bool.or_false,
                Bool.and_false]

theorem strands_of_pending {key : EndpointKey} {ep : Endpoint R} {flights : List InFlight}
    (hhead : Ring.active ep.ring = true -> atLink ep.ring = false)
    (hpending : forall f, f ∈ flights -> f.result = none) :
    strands key ep flights = false := by
  cases flights with
  | nil => rfl
  | cons f rest =>
      cases hactive : Ring.active ep.ring with
      | false => simp only [strands, hactive, Bool.false_and]
      | true =>
          simp only [strands, hhead hactive, hpending f List.mem_cons_self, Bool.or_false,
            Bool.and_false]

/-!
# Endpoints
-/

/-- The URBs in flight are in step with the ring. -/
structure Endpoint.Aligned (ep : Endpoint R) : Prop where
  window : Windowed ep.inFlight (SlotRing.slots ep.ring)
  head : forall s rest, ep.inFlight ≠ [] -> SlotRing.slots ep.ring = s :: rest ->
    s.isLink = false

/-- The URBs in flight belong to the ring, and the pump does not come to a link. -/
structure Endpoint.Clear (key : EndpointKey) (ep : Endpoint R) : Prop where
  window : Windowed ep.inFlight (SlotRing.slots ep.ring)
  links : strands key ep ep.inFlight = false

theorem Endpoint.Aligned.of_empty {ep : Endpoint R} (h : ep.inFlight = []) :
    ep.Aligned := by
  constructor
  · rw [h]
    exact Windowed.nil _
  · intro _ _ hne
    exact absurd h hne

theorem Endpoint.aligned_of_window {ep : Endpoint R}
    (h : Windowed ep.inFlight (SlotRing.slots ep.ring))
    (hhead : ep.inFlight ≠ [] -> atLink ep.ring = false) : ep.Aligned := by
  constructor
  · exact h
  · intro s rest hne hslots
    have hfirst := hhead hne
    rw [atLink, hslots] at hfirst
    exact hfirst

theorem Endpoint.Clear.of_empty (key : EndpointKey) {ep : Endpoint R} (h : ep.inFlight = []) :
    ep.Clear key := by
  constructor
  · rw [h]
    exact Windowed.nil _
  · rw [h]
    rfl

/-- While the ring is active the head is no link, and belongs to the first URB. -/
theorem Endpoint.Clear.aligned {key : EndpointKey} {ep : Endpoint R} (h : ep.Clear key)
    (hactive : Ring.active ep.ring = true) : ep.Aligned :=
  Endpoint.aligned_of_window h.window (strands_atLink h.links hactive)

theorem Endpoint.Aligned.current {ep : Endpoint R} (h : ep.Aligned) {front : InFlight}
    {rest : List InFlight} (hflight : ep.inFlight = front :: rest) :
    exists s slots, SlotRing.slots ep.ring = s :: slots ∧ s.isLink = false ∧
      front.message = s.id ∧ Windowed rest slots ∧
      front.message = (Ring.current ep.ring).1 := by
  have hwindow := h.window
  rw [hflight] at hwindow
  cases hslots : SlotRing.slots ep.ring with
  | nil => exact absurd hslots hwindow.slots_ne_nil
  | cons s slots =>
      have hlink := h.head s slots (by simp [hflight]) hslots
      rw [hslots] at hwindow
      rcases hwindow.head hlink with ⟨hmessage, hrest⟩
      refine ⟨s, slots, rfl, hlink, hmessage, hrest, ?_⟩
      rw [SlotRing.current_cons hslots]
      exact hmessage

theorem Endpoint.Aligned.extend {ep : Endpoint R} (h : ep.Aligned) {ring : R}
    (hring : SlotRing.slots ep.ring <+: SlotRing.slots ring) :
    Endpoint.Aligned { ep with ring := ring } := by
  rcases hring with ⟨more, hmore⟩
  constructor
  · show Windowed ep.inFlight (SlotRing.slots ring)
    rw [← hmore]
    exact h.window.append more
  · intro s rest hne hslots
    change SlotRing.slots ring = s :: rest at hslots
    cases hflight : ep.inFlight with
    | nil => exact absurd hflight hne
    | cons front flights =>
        rcases h.current hflight with ⟨t, slots, hold, hlink, _⟩
        rw [← hmore, hold] at hslots
        cases hslots
        exact hlink

theorem Endpoint.Aligned.flights {ep : Endpoint R} (h : ep.Aligned)
    {flights : List InFlight}
    (hsame : flights.map InFlight.message = ep.inFlight.map InFlight.message) :
    Endpoint.Aligned { ep with inFlight := flights } := by
  constructor
  · exact h.window.congr hsame
  · intro s rest hne hslots
    refine h.head s rest ?_ hslots
    intro hempty
    rw [hempty] at hsame
    exact hne (List.map_eq_nil_iff.mp hsame)

/-!
# Actions of the pump
-/

def Steady (key : EndpointKey) (c : Core R) : Prop :=
  forall ep, c.endpoints.lookup key = some ep -> ep.Clear key

theorem Steady.sameView {key : EndpointKey} {c c' : Core R} (h : Steady key c)
    (hview : SameView key c c') : Steady key c' := by
  intro ep hep
  rw [hview.lookup] at hep
  exact h ep hep

theorem Steady.of_lookup {key : EndpointKey} {c : Core R} {ep : Endpoint R}
    (hep : c.endpoints.lookup key = some ep) (h : ep.Clear key) : Steady key c := by
  intro ep' hep'
  rw [hep] at hep'
  cases hep'
  exact h

theorem dataRequest_not_link {speed : Speed} {ep : Endpoint R} {key : EndpointKey}
    {ahead : Nat} {transfer : Transfer} {req : SubmitRequest} {stage : Stage}
    (h : dataRequest speed ep key ahead transfer = some (req, stage)) :
    transfer.isLink = false := by
  cases transfer with
  | link needsResponse => cases h
  | _ => rfl

theorem Asks.not_link {speed : Speed} {key : EndpointKey} {ep : Endpoint R}
    {transfer : Transfer} {req : SubmitRequest} {stage : Stage}
    (h : Asks speed key ep transfer req stage) : transfer.isLink = false := by
  cases h with
  | controlData _ _ => rfl
  | controlStatus _ _ => rfl
  | transfer _ hreq => exact dataRequest_not_link hreq

/-- A new URB is for the next message of the window. -/
theorem Target.slot {speed : Speed} {key : EndpointKey} {ep : Endpoint R}
    {message : UInt64} {req : SubmitRequest} {stage : Stage}
    (h : Target speed key ep message req stage) :
    exists s, messageAt (SlotRing.slots ep.ring) ep.inFlight.length = some s ∧
      s.id = message ∧ s.isLink = false ∧
      (ep.inFlight = [] -> exists rest, SlotRing.slots ep.ring = s :: rest) := by
  cases h with
  | head hempty _ hcurrent hasks =>
      rcases slots_cons_of_current hcurrent with ⟨s, rest, hslots, hid, htransfer⟩
      have hlink : s.isLink = false := by
        rw [Slot.isLink, htransfer]
        exact hasks.not_link
      refine ⟨s, ?_, hid, hlink, fun _ => ⟨rest, hslots⟩⟩
      rw [hempty, hslots]
      exact messageAt_zero hlink
  | ahead hsome _ _ hpeek hreq =>
      rcases messageAt_of_peek hpeek with ⟨s, hs, hid, htransfer⟩
      refine ⟨s, hs, hid, ?_, fun hempty => absurd hempty hsome⟩
      rw [Slot.isLink, htransfer]
      exact dataRequest_not_link hreq

theorem Target.pending {speed : Speed} {key : EndpointKey} {ep : Endpoint R}
    {message : UInt64} {req : SubmitRequest} {stage : Stage}
    (h : Target speed key ep message req stage) :
    forall f, f ∈ ep.inFlight -> f.result = none := by
  cases h with
  | head hempty _ _ _ => simp [hempty]
  | ahead _ _ hnone _ _ => exact hnone

theorem Target.windowed {speed : Speed} {key : EndpointKey} {ep : Endpoint R}
    {message : UInt64} {req : SubmitRequest} {stage : Stage}
    (h : Target speed key ep message req stage)
    (hwindow : Windowed ep.inFlight (SlotRing.slots ep.ring)) {f : InFlight}
    (hmessage : f.message = message) :
    Windowed (ep.inFlight ++ [f]) (SlotRing.slots ep.ring) := by
  rcases h.slot with ⟨s, hs, hid, _⟩
  exact hwindow.push (messageAt_eq_some hs) (hmessage.trans hid.symm)

theorem Target.head_not_link {speed : Speed} {key : EndpointKey} {ep : Endpoint R}
    {message : UInt64} {req : SubmitRequest} {stage : Stage}
    (h : Target speed key ep message req stage)
    (hhead : ep.inFlight ≠ [] -> atLink ep.ring = false) : atLink ep.ring = false := by
  rcases h.slot with ⟨s, _, _, hlink, hfirst⟩
  by_cases hempty : ep.inFlight = []
  · rcases hfirst hempty with ⟨rest, hslots⟩
    rw [atLink, hslots]
    exact hlink
  · exact hhead hempty

theorem Endpoint.Aligned.atLink {ep : Endpoint R} (h : ep.Aligned)
    (hsome : ep.inFlight ≠ []) : Engine.atLink ep.ring = false := by
  unfold Engine.atLink
  cases hslots : SlotRing.slots ep.ring with
  | nil => rfl
  | cons s rest => exact h.head s rest hsome hslots

theorem Endpoint.Aligned.push {ep : Endpoint R} (h : ep.Aligned) {speed : Speed}
    {key : EndpointKey} {message : UInt64} {req : SubmitRequest} {stage : Stage}
    (htarget : Target speed key ep message req stage) {f : InFlight}
    (hmessage : f.message = message) :
    Endpoint.Aligned { ep with inFlight := ep.inFlight ++ [f] } :=
  Endpoint.aligned_of_window (htarget.windowed h.window hmessage)
    fun _ => htarget.head_not_link h.atLink

theorem Endpoint.Clear.push {key k : EndpointKey} {ep : Endpoint R} (h : ep.Clear key)
    {speed : Speed} {message : UInt64} {req : SubmitRequest} {stage : Stage}
    (htarget : Target speed k ep message req stage) {f : InFlight}
    (hmessage : f.message = message) (hresult : f.result = none) :
    Endpoint.Clear key { ep with inFlight := ep.inFlight ++ [f] } := by
  constructor
  · exact htarget.windowed h.window hmessage
  · apply strands_of_pending
    · exact fun hactive => htarget.head_not_link (strands_atLink h.links hactive)
    · intro g hg
      rcases List.mem_append.mp hg with hg | hg
      · exact htarget.pending g hg
      · rw [List.mem_singleton.mp hg]
        exact hresult

theorem Endpoint.Aligned.windowed_rest {ep : Endpoint R} (h : ep.Aligned)
    {front : InFlight} {rest : List InFlight} (hflight : ep.inFlight = front :: rest) :
    Windowed rest (SlotRing.slots ep.ring).tail := by
  rcases h.current hflight with ⟨s, slots, hslots, _, _, hwindow, _⟩
  rw [hslots]
  exact hwindow

theorem Endpoint.Aligned.pop {ep : Endpoint R} (h : ep.Aligned) {front : InFlight}
    {rest : List InFlight} (hflight : ep.inFlight = front :: rest) {ep' : Endpoint R}
    (hrest : ep'.inFlight = rest)
    (hslots : SlotRing.slots ep'.ring = (SlotRing.slots ep.ring).tail)
    (hlink : rest ≠ [] -> Engine.atLink ep'.ring = false) : ep'.Aligned := by
  apply Endpoint.aligned_of_window
  · rw [hrest, hslots]
    exact h.windowed_rest hflight
  · rw [hrest]
    exact hlink

theorem Endpoint.Aligned.not_moved {ep : Endpoint R} (h : ep.Aligned) {front : InFlight}
    {rest : List InFlight} (hflight : ep.inFlight = front :: rest) :
    front.message = (Ring.current ep.ring).1 := by
  rcases h.current hflight with ⟨_, _, _, _, _, _, hcurrent⟩
  exact hcurrent

/-- The pump does not find the URBs stale. -/
theorem Endpoint.Clear.not_moved {key : EndpointKey} {ep : Endpoint R} (h : ep.Clear key)
    (hactive : Ring.active ep.ring = true) {front : InFlight} {rest : List InFlight}
    (hflight : ep.inFlight = front :: rest) : front.message = (Ring.current ep.ring).1 :=
  (h.aligned hactive).not_moved hflight

theorem Action.steady {key k : EndpointKey} {e e' : Engine R} (h : Action k e e')
    (haccepting : Accepting key e'.toCore) (hok : Steady key e.toCore) :
    Steady key e'.toCore := by
  by_cases hk : k = key
  · subst hk
    cases h with
    | idle h =>
        rw [h.core]
        exact hok
    | stale hep hactive hflight hmoved _ =>
        exact absurd ((hok _ hep).not_moved hactive hflight) hmoved
    | @applied ep ep' front rest result data length _ hep hactive hflight _ hresult hstage h =>
        have hclear := hok _ hep
        rw [h.core] at haccepting
        have hstrands := hclear.links
        rw [hflight] at hstrands
        have hsettle := settle_of_stage k hstage
        have hnext : (settle k { ep with inFlight := rest } front result).1 =
            { ep' with
              ring := (Ring.complete ep'.ring (front.outcome result).1 data length).1 } :=
          congrArg Prod.fst hsettle
        have haccepted : (settle k { ep with inFlight := rest } front result).2.1.accepted =
            true := by
          rw [hsettle]
          exact haccepting.completed
        have hflights : (settle k { ep with inFlight := rest } front result).1.inFlight =
            rest := by
          rw [settle_inFlight]
        apply Steady.of_lookup (h.lookup (complete_lookup _ _ _ _ _ _ _))
        rw [← hnext]
        constructor
        · rw [hflights, settle_slots haccepted]
          exact (hclear.aligned hactive).windowed_rest hflight
        · rw [hflights]
          exact strands_cons hstrands hactive hresult haccepted
    | settled hep _ hempty _ hsettles h =>
        apply Steady.of_lookup (h.lookup (complete_lookup _ _ _ _ _ _ _))
        have hflights := hsettles.frame.right.left.trans hempty
        exact Endpoint.Clear.of_empty _ hflights
    | submitted hep htarget _ _ _ h =>
        apply Steady.of_lookup (h.lookup (push_lookup _ _ _ _ _ _))
        exact (hok _ hep).push htarget rfl rfl
    | refused hep _ hempty _ _ _ h =>
        apply Steady.of_lookup (h.lookup (complete_lookup _ _ _ _ _ _ _))
        exact Endpoint.Clear.of_empty _ hempty
  · exact hok.sameView (h.other hk)

/-!
# What the host may do
-/

/-- The host does not move the ring of an endpoint, it only adds messages to it. -/
def HostAppends (key : EndpointKey) (e : Engine R) : Op R -> Prop
  | Op.host k ring => k = key -> forall ep, ep ∈ e.endpoints.lookup key ->
      SlotRing.slots ep.ring <+: SlotRing.slots ring
  | _ => True

/--
An endpoint is added once, and stays without being reset, and the host does not
move its ring.
-/
def Undisturbed (key : EndpointKey) (e : Engine R) : Op R -> Prop
  | Op.addEndpoint k _ _ => k = key -> e.endpoints.lookup key = none
  | Op.removeEndpoint k => k ≠ key
  | Op.removeDevice device _ => device ≠ key.1
  | Op.resetEndpoint k => k ≠ key
  | Op.host k ring => HostAppends key e (Op.host k ring)
  | _ => True

def Op.NoLinks (key : EndpointKey) : Op R -> Prop
  | Op.addEndpoint k _ ring => k = key -> Engine.NoLinks (SlotRing.slots ring)
  | Op.host k ring => k = key -> Engine.NoLinks (SlotRing.slots ring)
  | _ => True

theorem Undisturbed.not_removes {key : EndpointKey} {e : Engine R} {op : Op R}
    (h : Undisturbed key e op) : ¬ op.Removes key := by
  cases op with
  | removeEndpoint k => exact h
  | removeDevice device keys => exact h
  | _ => exact fun hremoves => hremoves

theorem Undisturbed.hostAppends {key : EndpointKey} {e : Engine R} {op : Op R}
    (h : Undisturbed key e op) : HostAppends key e op := by
  cases op with
  | host k ring => exact h
  | _ => trivial

end Engine
end UsbIp
