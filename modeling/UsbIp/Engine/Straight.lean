import UsbIp.Engine.Links

/-!
# The window of a straight ring

On a ring without links the messages in flight are the first messages of the
ring, one by one.  With the depth of the endpoint's kind and the order of the
tokens this is all that the queue of an endpoint can look like between the
operations of a run.
-/

namespace UsbIp
namespace Engine

open Foundation
open Protocol
open Hci
open Client (SubmitRequest TransferResult)

/-!
# Rings without links
-/

theorem messageAtLoop_noLinks {slots : List Slot} (h : NoLinks slots) {steps ahead : Nat}
    (hsteps : ahead < steps) : messageAtLoop steps slots ahead = slots[ahead]? := by
  induction steps generalizing slots ahead with
  | zero => cases hsteps
  | succ steps ih =>
      cases slots with
      | nil => rfl
      | cons s rest =>
          have hs := h s List.mem_cons_self
          have hrest : NoLinks rest := fun t ht => h t (List.mem_cons_of_mem s ht)
          unfold messageAtLoop
          rw [if_neg (by simp [hs])]
          cases ahead with
          | zero => rfl
          | succ ahead => exact ih hrest (Nat.lt_of_succ_lt_succ hsteps)

theorem messageAt_noLinks {slots : List Slot} (h : NoLinks slots) (ahead : Nat) :
    messageAt slots ahead = slots[ahead]? :=
  messageAtLoop_noLinks h (by omega)

theorem Windowed.getElem? {flights : List InFlight} {slots : List Slot}
    (h : Windowed flights slots) (hslots : NoLinks slots) {i : Nat} {f : InFlight}
    (hf : flights[i]? = some f) : exists s, slots[i]? = some s ∧ s.id = f.message := by
  unfold Windowed at h
  rw [transfersOf_eq_self hslots] at h
  have hmessage : (flights.map InFlight.message)[i]? = some f.message := by
    rw [List.getElem?_map, hf]
    rfl
  rcases h with ⟨rest, hrest⟩
  have hid : (slots.map Slot.id)[i]? = some f.message := by
    rw [← hrest, List.getElem?_append_left (List.getElem?_eq_some_iff.mp hmessage).1]
    exact hmessage
  rw [List.getElem?_map, Option.map_eq_some_iff] at hid
  exact hid

/-!
# What an endpoint keeps
-/

variable {R : Type} [SlotRing R]

/-- No links in the ring, and no more URBs in flight than the kind allows. -/
structure Endpoint.Straight (ep : Endpoint R) : Prop where
  links : NoLinks (SlotRing.slots ep.ring)
  depth : ep.inFlight.length ≤ Engine.depth ep.info.kind

theorem depth_pos (kind : EndpointKind) : 0 < depth kind := by
  cases kind with
  | control => decide
  | isochronous => decide
  | bulk => decide
  | interrupt => decide

theorem Endpoint.Straight.shorter {ep ep' : Endpoint R} (h : ep.Straight)
    (hring : SlotRing.slots ep'.ring = SlotRing.slots ep.ring)
    (hlength : ep'.inFlight.length ≤ ep.inFlight.length)
    (hkind : ep'.info.kind = ep.info.kind) : ep'.Straight := by
  constructor
  · rw [hring]
    exact h.links
  · rw [hkind]
    exact Nat.le_trans hlength h.depth

theorem Endpoint.Straight.completed {ep ep' : Endpoint R} (h : ep.Straight)
    (hring : SlotRing.slots ep'.ring = (SlotRing.slots ep.ring).tail)
    (hlength : ep'.inFlight.length ≤ ep.inFlight.length)
    (hinfo : ep'.info = ep.info) : ep'.Straight := by
  constructor
  · rw [hring]
    exact h.links.tail
  · rw [hinfo]
    exact Nat.le_trans hlength h.depth

def Straight (key : EndpointKey) (c : Core R) : Prop :=
  forall ep, c.endpoints.lookup key = some ep -> ep.Straight

theorem Straight.of_lookup {key : EndpointKey} {c : Core R} {ep : Endpoint R}
    (hep : c.endpoints.lookup key = some ep) (h : ep.Straight) : Straight key c := by
  intro ep' hep'
  rw [hep] at hep'
  cases hep'
  exact h

theorem Straight.same {key : EndpointKey} {c c' : Core R} (h : Straight key c)
    (hlookup : c'.endpoints.lookup key = c.endpoints.lookup key) : Straight key c' := by
  intro ep hep
  rw [hlookup] at hep
  exact h ep hep

def KeepsKind (key : EndpointKey) (e : Engine R) : Op R -> Prop
  | Op.updateEndpoint k info => k = key -> forall ep, ep ∈ e.endpoints.lookup key ->
      info.kind = ep.info.kind
  | _ => True

def KeepsStraight (key : EndpointKey) (e : Engine R) (op : Op R) : Prop :=
  op.NoLinks key ∧ KeepsKind key e op

theorem markPaused_length (flights : List InFlight) :
    (markPaused flights).length = flights.length :=
  List.length_map _

theorem Change.straight {key : EndpointKey} {e e' : Engine R} {op : Op R}
    (hop : KeepsStraight key e op) (h : Change e e' op) (hok : Straight key e.toCore) :
    Straight key e'.toCore := by
  cases h.seen key with
  | same hview => exact hok.same hview.lookup
  | added hlookup _ => exact Straight.of_lookup hlookup ⟨hop.left rfl, Nat.zero_le _⟩
  | updated hep hlookup _ =>
      have hstraight := hok _ hep
      exact Straight.of_lookup hlookup
        (hstraight.shorter rfl (Nat.le_refl _) (hop.right rfl _ hep))
  | removed _ _ hlookup _ =>
      intro ep hep
      rw [hlookup] at hep
      cases hep
  | reset hep hlookup _ =>
      exact Straight.of_lookup hlookup ((hok _ hep).shorter rfl (Nat.zero_le _) rfl)
  | paused _ hep hlookup _ =>
      exact Straight.of_lookup hlookup
        ((hok _ hep).shorter rfl (Nat.le_of_eq (markPaused_length _)) rfl)
  | synced hep _ _ hlookup _ =>
      exact Straight.of_lookup hlookup ((hok _ hep).shorter rfl (Nat.zero_le _) rfl)
  | dropped _ _ _ hlookup _ => exact hok.same hlookup
  | recorded _ _ hep hsplit _ _ hlookup _ =>
      apply Straight.of_lookup hlookup ((hok _ hep).shorter rfl _ rfl)
      rw [hsplit]
      simp
  | truncated _ _ hep hsplit _ _ _ hlookup _ =>
      apply Straight.of_lookup hlookup ((hok _ hep).shorter rfl _ rfl)
      rw [hsplit]
      simp
  | host hep hlookup _ =>
      exact Straight.of_lookup hlookup ⟨hop.left rfl, (hok _ hep).depth⟩

theorem Target.length_lt {speed : Speed} {key : EndpointKey} {ep : Endpoint R}
    {message : UInt64} {req : SubmitRequest} {stage : Stage}
    (h : Target speed key ep message req stage) : ep.inFlight.length < depth ep.info.kind := by
  cases h with
  | head hempty _ _ _ =>
      rw [hempty]
      exact depth_pos _
  | ahead _ hdepth _ _ _ => exact hdepth

theorem Action.straight {key k : EndpointKey} {e e' : Engine R} (h : Action k e e')
    (haccepting : Accepting key e'.toCore) (hok : Straight key e.toCore) :
    Straight key e'.toCore := by
  by_cases hk : k = key
  · subst hk
    cases h with
    | idle h =>
        rw [h.core]
        exact hok
    | stale hep _ _ _ h =>
        apply Straight.of_lookup (h.lookup (note_put_lookup _ _ _ _))
        exact (hok _ hep).shorter rfl (Nat.zero_le _) rfl
    | applied hep _ hflight _ _ hstage h =>
        rcases applyStage_frame hstage with ⟨hring, hrest, hinfo⟩
        rw [h.core] at haccepting
        apply Straight.of_lookup (h.lookup (complete_lookup _ _ _ _ _ _ _))
        refine (hok _ hep).completed ?_ ?_ hinfo
        · rw [SlotRing.complete_slots haccepting.completed, hring]
        · show _ ≤ _
          rw [hrest, hflight]
          exact Nat.le_succ _
    | settled hep _ _ _ hsettles h =>
        rcases hsettles.frame with ⟨hring, hflights, hinfo⟩
        rw [h.core] at haccepting
        apply Straight.of_lookup (h.lookup (complete_lookup _ _ _ _ _ _ _))
        refine (hok _ hep).completed ?_ (Nat.le_of_eq (congrArg List.length hflights)) hinfo
        rw [SlotRing.complete_slots haccepting.completed, hring]
    | submitted hep htarget _ _ _ h =>
        apply Straight.of_lookup (h.lookup (push_lookup _ _ _ _ _ _))
        constructor
        · exact (hok _ hep).links
        · rw [List.length_append]
          exact htarget.length_lt
    | refused hep _ _ _ _ _ h =>
        rw [h.core] at haccepting
        apply Straight.of_lookup (h.lookup (complete_lookup _ _ _ _ _ _ _))
        refine (hok _ hep).completed ?_ (Nat.le_refl _) rfl
        exact SlotRing.complete_slots haccepting.completed
  · exact hok.same (h.other hk).lookup

/-!
# Runs
-/

/-- Between operations: in step with the ring, and straight. -/
structure InWindow (key : EndpointKey) (e : Engine R) : Prop where
  unmoved : Unmoved key e
  straight : Straight key e.toCore

structure Pumping (key : EndpointKey) (e : Engine R) : Prop where
  unmoving : Unmoving key e
  straight : Straight key e.toCore

theorem Straight.queueClear {key : EndpointKey} {e : Engine R} (h : Straight key e.toCore)
    (queue : List InFlight -> List InFlight) : QueueClear key e queue := by
  intro ep hep
  exact strands_of_noLinks key (h ep hep).links _

theorem Straight.headClear {key : EndpointKey} {e : Engine R} (h : Straight key e.toCore) :
    HeadClear key e :=
  fun ep hep _ => atLink_of_noLinks (h ep hep).links

theorem run_inWindow (rounds : Nat) (device : Client.ExportedDevice)
    (schedule : List (List Client.Step)) (ops : List (Op R)) (key : EndpointKey)
    (hrun : Guarded (step rounds)
      (fun e op => HostAppends key e op ∧ KeepsStraight key e op) (start device schedule) ops)
    (haccepting : Accepting key (run rounds (start device schedule) ops).toCore) :
    InWindow key (run rounds (start device schedule : Engine R) ops) := by
  refine pumping_run_invariant (I := InWindow key) (J := Pumping key) ?_ ?_ ?_ ?_ ?_ ?_ hrun
    ?_ haccepting
  · intro e e' op hop h hok
    constructor
    · exact h.unmoved hop.left (fun _ => hok.straight.headClear) hok.unmoved
    · exact h.straight hop.right hok.straight
  · intro e _ hok
    exact ⟨hok.unmoved.doorbell (hok.straight.queueClear id), hok.straight⟩
  · intro e e' task result hop harrived hkey hreplied hok
    subst hkey
    constructor
    · exact hok.unmoved.callback harrived hreplied (hok.straight.queueClear _)
    · exact (Change.replied harrived hreplied).straight hop.right hok.straight
  · intro e e' h hacc hok
    exact ⟨h.unmoving hacc hok.unmoving, h.straight hacc hok.straight⟩
  · intro k e e' hk h hacc hok
    constructor
    · exact hok.unmoved.sameView (h.tokensOk hok.unmoved.tokens) (h.other hk)
    · exact h.straight hacc hok.straight
  · intro e hok
    exact ⟨hok.unmoving.unmoved, hok.straight⟩
  · exact ⟨start_unmoved key device schedule, by simp [Straight, start]⟩

/-- A URB in flight is for the message at its own position, as the ring is seen from the head. -/
theorem InWindow.peek {key : EndpointKey} {e : Engine R} (h : InWindow key e)
    {ep : Endpoint R} (hep : e.endpoints.lookup key = some ep) {i : Nat} {f : InFlight}
    (hf : ep.inFlight[i]? = some f) :
    exists s, (SlotRing.slots ep.ring)[i]? = some s ∧ s.id = f.message ∧
      Ring.peek ep.ring i = some (f.message, s.transfer) := by
  have hlinks := (h.straight ep hep).links
  rcases (h.unmoved.window ep hep).getElem? hlinks hf with ⟨s, hs, hid⟩
  refine ⟨s, hs, hid, ?_⟩
  rw [SlotRing.peek_eq, messageAt_noLinks hlinks, hs, ← hid]
  rfl

theorem Core.TokensOk.key_unique {c : Core R} (hok : c.TokensOk) {key k : EndpointKey}
    {f g : InFlight} (hf : f ∈ flightsOf c key) (hg : g ∈ flightsOf c k)
    (htoken : f.token = g.token) : key = k := by
  rcases hok.flight_submitted hf with ⟨s, hs, hskey, hsame⟩
  rcases hok.flight_submitted hg with ⟨t, ht, htkey, hsame'⟩
  have heq : s = t := by
    apply hok.submitted_injective s t hs ht
    rw [← hsame.token, ← hsame'.token, htoken]
  rw [← hskey, ← htkey, heq]

theorem InWindow.single {key : EndpointKey} {e : Engine R} (h : InWindow key e)
    {ep : Endpoint R} (hep : e.endpoints.lookup key = some ep) {f : InFlight}
    (hdepth : depth ep.info.kind = 1) (hf : f ∈ ep.inFlight) :
    ep.inFlight = [f] ∧ f.message = (Ring.current ep.ring).1 := by
  have hlength := (h.straight ep hep).depth
  rw [hdepth] at hlength
  cases hflight : ep.inFlight with
  | nil =>
      rw [hflight] at hf
      cases hf
  | cons front rest =>
      have hmessage := h.unmoved.in_sync h.straight.headClear hep hflight
      rw [hflight, List.length_cons] at hlength
      have hrest : rest = [] := List.eq_nil_of_length_eq_zero (by omega)
      rw [hflight, hrest, List.mem_singleton] at hf
      rw [hrest, hf]
      exact ⟨rfl, hmessage⟩

/--
The URBs in flight of an endpoint are for the first messages of its ring, in
order, and for no more of them than its kind allows; their tokens increase, up to
`2^64` submissions, and are no other endpoint's.
-/
theorem in_flight_window (rounds : Nat) (device : Client.ExportedDevice)
    (schedule : List (List Client.Step)) (ops : List (Op R)) (key : EndpointKey)
    (hrun : Guarded (step rounds)
      (fun e op => HostAppends key e op ∧ KeepsStraight key e op) (start device schedule) ops)
    (haccepting : Accepting key (run rounds (start device schedule) ops).toCore)
    (ep : Endpoint R)
    (hep : (run rounds (start device schedule : Engine R) ops).endpoints.lookup key =
      some ep) :
    (forall i f, ep.inFlight[i]? = some f -> exists s,
      (SlotRing.slots ep.ring)[i]? = some s ∧ s.id = f.message ∧
        Ring.peek ep.ring i = some (f.message, s.transfer)) ∧
    ep.inFlight.length ≤ depth ep.info.kind ∧
    (ep.info.kind = EndpointKind.control ∨ ep.info.kind = EndpointKind.interrupt ->
      forall f, f ∈ ep.inFlight ->
        ep.inFlight = [f] ∧ f.message = (Ring.current ep.ring).1) ∧
    ep.inFlight.Pairwise (fun f g => f.token < g.token) ∧
    (forall f, f ∈ ep.inFlight ->
      f.token < (run rounds (start device schedule : Engine R) ops).nextToken ∧
      forall k g, g ∈ flightsOf (run rounds (start device schedule) ops).toCore k ->
        g.token = f.token -> k = key) := by
  have h := run_inWindow rounds device schedule ops key hrun haccepting
  have htokens := h.unmoved.tokens
  have hflights := flightsOf_of_lookup hep
  refine ⟨?_, (h.straight ep hep).depth, ?_, ?_, ?_⟩
  · intro i f hf
    exact h.peek hep hf
  · intro hkind f hf
    apply h.single hep _ hf
    rcases hkind with hcontrol | hinterrupt
    · rw [hcontrol]
      rfl
    · rw [hinterrupt]
      rfl
  · rw [← hflights]
    exact htokens.flight_sorted key
  · intro f hf
    rw [← hflights] at hf
    refine ⟨htokens.flight_lt hf, ?_⟩
    intro k g hg htoken
    exact htokens.key_unique hg hf htoken

theorem in_flight_window_of_reads :
    let key : EndpointKey := (1, 0x81)
    let ops :=
      [Op.addEndpoint key { kind := .bulk, maxPacketSize := 512, bInterval := 0 } (reads 3),
        Op.doorbell key] ++ answered 1 2 [5, 6] ++ [Op.deliver 0]
    let e := run 8 (start sampleDevice []) ops
    (flightsOf e.toCore key).map InFlight.message = [11, 12] ∧
      forall ep, e.endpoints.lookup key = some ep ->
        (forall i f, ep.inFlight[i]? = some f -> exists s, ep.ring.slots[i]? = some s ∧
          s.id = f.message ∧ Ring.peek ep.ring i = some (f.message, s.transfer)) ∧
        ep.inFlight.length ≤ depth ep.info.kind := by
  intro key ops e
  constructor
  · decide +kernel
  · intro ep hep
    have hrun : Guarded (step 8)
        (fun e op => HostAppends key e op ∧ KeepsStraight key e op)
        (start sampleDevice []) ops := by
      have hquiet : True ∧ True ∧ True := ⟨trivial, trivial, trivial⟩
      exact ⟨⟨trivial, fun _ => by decide, trivial⟩, hquiet, hquiet, hquiet, hquiet, hquiet,
        trivial⟩
    have hwindow := in_flight_window 8 sampleDevice [] ops key hrun (by decide +kernel) ep hep
    exact ⟨hwindow.left, hwindow.right.left⟩

end Engine
end UsbIp
