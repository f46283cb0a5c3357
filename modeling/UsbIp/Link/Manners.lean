import UsbIp.Link.Attaching

/-!
# Programs keep to the protocol

What a server can rely on, from the first byte of a connection to its end: a
program of ours asks one question on each connection and asks it properly, even
if it gives up in the middle, and its session, as long as it issues only what the
server accepts, sends nothing to complain about.
-/

namespace UsbIp
namespace Link

open Foundation
open Protocol
open Client (Text Selector Session ExportedDevice encodeDevlistRequest encodeImportRequest
  encodeBusid opHeader usbipVersion opReqImport)
open Server (Connection Export Line LineStep Stage)

/-!
# Requests
-/

inductive Proper : Bytes -> Prop where
  | nothing : Proper []
  | devlist : Proper encodeDevlistRequest
  | imports (field : Bytes) : Proper (opHeader usbipVersion opReqImport 0 ++ field)

def unread : Stage -> Bool
  | .header => true
  | _ => false

/-- The task has nothing to complain about, and will not have before the session. -/
structure Line.Mannered (toServer : Bytes) (l : Line) : Prop where
  clean : l.violations = []
  request : l.task = Stage.header -> Proper (l.input ++ toServer)

theorem Line.Mannered.of_later {toServer : Bytes} {l : Line} (hclean : l.violations = [])
    (htask : unread l.task = false) : Line.Mannered toServer l where
  clean := hclean
  request := by
    intro hheader
    rw [hheader] at htask
    cases htask

theorem Line.Mannered.receive {toServer : Bytes} {l : Line} (h : Line.Mannered toServer l)
    (n : Nat) : Line.Mannered (toServer.drop n) (l.receive (toServer.take n)) := by
  unfold Line.receive
  split
  · exact Line.Mannered.of_later h.clean rfl
  · exact Line.Mannered.of_later h.clean rfl
  · constructor
    · exact h.clean
    · intro hheader
      have hproper := h.request hheader
      dsimp only
      rw [List.append_assoc, List.take_append_drop]
      exact hproper

theorem Line.Mannered.read_header {toServer : Bytes} {l : Line} (h : Line.Mannered toServer l)
    (htask : l.task = Stage.header) (text : Text) (exports : List Export)
    (imported : List String) :
    Line.Mannered toServer (l.read text exports imported).2 := by
  have hproper := h.request htask
  generalize hup : l.input ++ toServer = up at hproper
  cases hproper with
  | nothing =>
      rcases List.append_eq_nil_iff.mp hup with ⟨hinput, _⟩
      have hnone : takeExact Client.opHeaderSize l.input = none := by
        rw [hinput]
        rfl
      simp only [Line.read, htask, hnone]
      exact h
  | devlist =>
      rw [← List.append_nil encodeDevlistRequest] at hup
      rcases takeExact_front hup (Client.opHeader_length _ _ _) with
        ⟨rest, htake, _⟩ | hnone
      · simp only [Line.read, htask, htake, request_devlist]
        exact Line.Mannered.of_later h.clean rfl
      · simp only [Line.read, htask, hnone]
        exact h
  | imports field =>
      rcases takeExact_front hup (Client.opHeader_length _ _ _) with
        ⟨rest, htake, _⟩ | hnone
      · simp only [Line.read, htask, htake, request_import]
        exact Line.Mannered.of_later h.clean rfl
      · simp only [Line.read, htask, hnone]
        exact h

theorem Line.Mannered.task {toServer : Bytes} {l : Line} (h : Line.Mannered toServer l)
    (text : Text) (exports : List Export) (imported : List String) {st : LineStep}
    (hst : isTasks st = true) :
    Line.Mannered toServer (l.step text exports imported st).2 := by
  cases st with
  | receive bytes => cases hst
  | readFails =>
      simp only [Line.step, Line.readFails]
      split
      · exact Line.Mannered.of_later h.clean rfl
      · exact Line.Mannered.of_later h.clean rfl
      · exact h
  | read =>
      by_cases hheader : l.task = Stage.header
      · exact h.read_header hheader text exports imported
      · simp only [Line.step, Line.read]
        split
        · rename_i htask
          exact absurd htask hheader
        · split
          · unfold Line.import
            dsimp only
            split
            · split
              · exact Line.Mannered.of_later h.clean rfl
              · exact Line.Mannered.of_later h.clean rfl
            · exact Line.Mannered.of_later h.clean rfl
          · exact h
        · exact h
  | write =>
      simp only [Line.step, Line.write]
      split
      · exact Line.Mannered.of_later h.clean rfl
      · exact Line.Mannered.of_later h.clean rfl
      · exact Line.Mannered.of_later h.clean rfl
      · exact h
  | writeFails n =>
      simp only [Line.step, Line.writeFails]
      split
      · split
        · split
          · exact Line.Mannered.of_later h.clean rfl
          · exact Line.Mannered.of_later h.clean rfl
        · exact h
      · exact h
  | serve st =>
      simp only [Line.step, Line.serve]
      split
      · split
        · exact h
        · exact Line.Mannered.of_later h.clean rfl
      · exact h
  | leave =>
      simp only [Line.step, Line.leave]
      split
      · split
        · exact Line.Mannered.of_later h.clean rfl
        · exact h
      · exact h

/-!
# Connections
-/

def Wire.Mannered (w : Wire) : Prop :=
  w.caller = Caller.stranger ∨ Line.Mannered w.toServer w.line

theorem Wire.Mannered.of_caller {w : Wire} (h : w.Mannered) {caller : Caller}
    (hstays : w.caller = Caller.stranger -> caller = Caller.stranger) :
    Wire.Mannered { w with caller := caller } := by
  rcases h with hstranger | hline
  · exact Or.inl (hstays hstranger)
  · exact Or.inr hline

theorem Wire.Mannered.client {text : Text} {exports : List Export} {w : Wire} (h : w.Mannered)
    (hsound : w.Sound text exports) (st : Client.Step) : (w.clientStep st).Mannered := by
  unfold Wire.clientStep
  split
  · rename_i selector session hcaller
    split
    · -- A session is behind the header.
      unfold Wire.Sound at hsound
      rw [hcaller] at hsound
      rcases hsound with ⟨device, e, _, _, hserving⟩
      rcases h with hstranger | hline
      · rw [hcaller] at hstranger
        cases hstranger
      · refine Or.inr (Line.Mannered.of_later hline.clean ?_)
        show unread w.line.task = false
        generalize w.line.task = task at hserving
        cases hserving with
        | urbs => rfl
        | returned => rfl
    · exact h
  · exact h

theorem Wire.Mannered.step {text : Text} {exports : List Export} {w : Wire} (h : w.Mannered)
    (hsound : w.Sound text exports) (imported : List String) (st : WireStep) :
    (w.step text exports imported st).2.Mannered := by
  cases st with
  | writes bytes =>
      simp only [Wire.step]
      split
      · rename_i hcaller
        exact Or.inl hcaller
      · exact h
  | toServer n =>
      rcases h with hstranger | hline
      · exact Or.inl hstranger
      · exact Or.inr (hline.receive n)
  | toClient n =>
      simp only [Wire.step]
      split
      · exact h
      · exact h.of_caller fun hcaller => by rw [hcaller]; rfl
  | hangUp =>
      simp only [Wire.step, Wire.hangUp]
      split
      · split
        · rename_i selector session hcaller
          exact h.of_caller fun hstranger => by
            rw [hcaller] at hstranger
            cases hstranger
        · exact h.of_caller fun hcaller => by rw [hcaller]; rfl
      · exact h
  | reads => exact h.of_caller fun hcaller => by rw [hcaller]; rfl
  | fails reason => exact h.of_caller fun hcaller => by rw [hcaller]; rfl
  | client st => exact h.client hsound st
  | server st =>
      simp only [Wire.step]
      split
      · rename_i hst
        rcases h with hstranger | hline
        · exact Or.inl hstranger
        · exact Or.inr (hline.task text exports imported hst)
      · exact h

theorem Wire.import_mannered (text : Text) (selector : Selector) (device : ExportedDevice) :
    (Wire.import text selector device).Mannered := by
  unfold Wire.import
  cases hfield : encodeBusid text device.busid with
  | error e =>
      have hrequest : encodeImportRequest text device.busid = .error e := by
        unfold encodeImportRequest
        rw [hfield]
        rfl
      rw [hrequest]
      exact Or.inr ⟨rfl, fun _ => Proper.nothing⟩
  | ok field =>
      rw [Client.encodeImportRequest_ok hfield]
      exact Or.inr ⟨rfl, fun _ => Proper.imports field⟩

/-!
# Runs
-/

def Network.Mannered (n : Network) : Prop :=
  forall w, w ∈ n.wires -> w.Mannered

theorem Network.Mannered.step {text : Text} {exports : List Export} {n : Network}
    (h : n.Mannered) (hsound : n.Sound text exports) (st : NetworkStep) :
    (n.step text st).Mannered := by
  intro w hw
  cases Network.step_yields hw with
  | kept hmem => exact h w hmem
  | dialled selector => exact Or.inr ⟨rfl, fun _ => Proper.devlist⟩
  | stranger => exact Or.inl rfl
  | @left i v selector device hmem hcaller =>
      exact (h v hmem).of_caller fun hstranger => by
        rw [hcaller] at hstranger
        cases hstranger
  | redialled hmem hcaller => exact Wire.import_mannered text _ _
  | @moved i v st hv =>
      have hmem := List.mem_of_getElem? hv
      rw [hsound.served]
      exact (h v hmem).step (hsound.wires v hmem) n.imported st

theorem Network.Run.mannered {text : Text} {exports : List Export}
    (hex : Exportable text exports) {steps : List NetworkStep}
    (h : Network.Run text exports steps) : (Network.after text exports steps).Mannered := by
  have hboth := invariant_of_guarded
    (I := fun n : Network => n.Sound text exports ∧ n.Mannered)
    (fun _ st hl hinv => ⟨hinv.left.step hex hl, hinv.right.step hinv.left st⟩) h
    ⟨Network.start_sound text exports, by
      intro w hw
      cases hw⟩
  exact hboth.right

/-!
# Results
-/

/--
In every allowed run, the server has nothing to complain about on a connection of
a program of ours: not in the request, even where the program gives up, nor, as
sessions are polite and outcomes fit, in the session; and the session closes only
for a reason that is not a bad reply.
-/
theorem programs_give_no_offence {text : Text} {exports : List Export}
    (hex : Exportable text exports) {steps : List NetworkStep}
    (hrun : Network.Run text exports steps) {w : Wire}
    (hw : w ∈ (Network.after text exports steps).wires)
    (hours : w.caller ≠ Caller.stranger) :
    w.line.violations = [] ∧
      forall selector session, w.caller = Caller.attached selector session ->
        (forall e c, w.line.task = Stage.urbs e c ∨ w.line.task = Stage.returned e c ->
          c.violations = []) ∧
        forall reason, session.shared.state.closed = some reason -> Benign reason := by
  constructor
  · rcases hrun.mannered hex w hw with hstranger | hline
    · exact absurd hstranger hours
    · exact hline.clean
  · intro selector session hattached
    have hsound := (hrun.sound hex).wires w hw
    unfold Wire.Sound at hsound
    rw [hattached] at hsound
    rcases hsound with ⟨device, e, _, hexport, hserving⟩
    have hdevnum := hex.devnum e (findExport_mem hexport)
    have hsync : forall c : Connection, Began e ⟨session, c, w.toServer, w.toClient⟩ ->
        System.Sync ⟨session, c, w.toServer, w.toClient⟩ := by
      rintro c ⟨moves, hmoves, hafter⟩
      rw [← hafter]
      exact hmoves.sync hdevnum
    generalize w.line.task = task at hserving
    cases hserving with
    | @urbs c hbegan =>
        constructor
        · rintro e' c' (hsame | hsame)
          · cases hsame
            exact (hsync c hbegan).clean
          · cases hsame
        · exact (hsync c hbegan).closed
    | @returned c _ hbegan =>
        constructor
        · rintro e' c' (hsame | hsame)
          · cases hsame
          · cases hsame
            exact (hsync c hbegan).clean
        · exact (hsync c hbegan).closed

theorem programs_give_no_offence_sample :
    sampleWire.line.violations = [] ∧
      forall selector session, sampleWire.caller = Caller.attached selector session ->
        (forall e c, sampleWire.line.task = Stage.urbs e c ∨
          sampleWire.line.task = Stage.returned e c -> c.violations = []) ∧
        forall reason, session.shared.state.closed = some reason -> Benign reason :=
  programs_give_no_offence sampleExports_exportable sampleAttach_run
    (List.mem_of_getElem? sampleAttach_wire) (by
      intro hsame
      cases hsame)

end Link
end UsbIp
