import UsbIp.Link.Serving

/-!
# Runs of the two programs

Every allowed run of a session against its server, with any interleaving of the
two and any way the streams are cut, shows as a run of the dialogue.  In such a
run neither side ever takes the other's bytes for something they are not.
-/

namespace UsbIp
namespace Link

open Foundation
open Protocol
open Client (Shared SubmitRequest Session ExportedDevice)
open Server (Urb Urbs Answer Outcome Completion Job Connection urbOf unlinkStatus)

/-!
# The connection
-/

theorem System.Sync.receive_server {l : System} (hl : l.Sync) (n : Nat) :
    (l.step (Step.toServer n)).Sync where
  ok := hl.ok
  output := hl.output
  devid := hl.devid
  good := hl.good
  upstream := by
    have hsame : (l.step (Step.toServer n)).upstream = l.upstream := by
      have hcut := List.take_append_drop n l.toServer
      unfold System.upstream System.step Connection.step
      dsimp only
      rw [List.append_assoc, ← List.append_assoc (l.toServer.take n), hcut]
    rw [hsame]
    exact hl.upstream
  downstream := hl.downstream
  tx := hl.tx
  clean := hl.clean
  failed := hl.failed
  closed := hl.closed

theorem System.Sync.receive_client {l : System} (hl : l.Sync) (n : Nat) :
    System.Sync
      { l with
        client := { l.client with input := l.client.input ++ l.toClient.take n }
        toClient := l.toClient.drop n } where
  ok := hl.ok
  output := hl.output
  devid := hl.devid
  good := hl.good
  upstream := hl.upstream
  downstream := by
    intro hopen
    rcases hl.downstream hopen with ⟨lost, hdown, hlost⟩
    refine ⟨lost, ?_, hlost⟩
    have hcut := List.take_append_drop n l.toClient
    unfold System.downstream at hdown ⊢
    dsimp only
    rw [List.append_assoc l.client.input, ← List.append_assoc (l.toClient.take n), hcut]
    exact hdown
  tx := hl.tx
  clean := hl.clean
  failed := hl.failed
  closed := hl.closed

theorem System.Sync.hangUp {l : System} (hl : l.Sync) :
    System.Sync { l with client := l.client.step Client.Step.hangUp } where
  ok := hl.ok
  output := hl.output
  devid := hl.devid
  good := hl.good
  upstream := hl.upstream
  downstream := hl.downstream
  tx := hl.tx
  clean := hl.clean
  failed := hl.failed
  closed := hl.closed

/-!
# Steps and runs
-/

theorem System.Sync.step {l : System} (hl : l.Sync) {st : Step} (hallowed : l.Allowed st) :
    (l.step st).Sync ∧ Moved l.dialogue (l.step st).dialogue := by
  cases st with
  | client st =>
      simp only [System.step]
      split
      · rename_i hown
        exact hl.client hown hallowed
      · exact ⟨hl, Or.inl rfl⟩
  | server st =>
      simp only [System.step]
      split
      · rename_i hown
        exact hl.server hown hallowed
      · exact ⟨hl, Or.inl rfl⟩
  | toServer n => exact ⟨hl.receive_server n, Or.inl rfl⟩
  | toClient n =>
      simp only [System.step]
      split
      · exact ⟨hl, Or.inl rfl⟩
      · rename_i hended
        simp only [Session.step, if_neg hended]
        exact ⟨hl.receive_client n, Or.inl rfl⟩
  | hangUp =>
      simp only [System.step]
      split
      · exact ⟨hl.hangUp, Or.inl rfl⟩
      · exact ⟨hl, Or.inl rfl⟩

theorem exportDevid_eq {device : ExportedDevice} (h : device.devnum.toNat < 65536) :
    exportDevid device = device.devid := by
  unfold exportDevid ExportedDevice.devid
  have hmask : device.devnum &&& 0xffff = device.devnum := by
    apply UInt32.toNat_inj.mp
    rw [UInt32.toNat_and]
    exact (Nat.and_two_pow_sub_one_eq_mod device.devnum.toNat 16).trans (Nat.mod_eq_of_lt h)
  rw [hmask]

/--
An allowed run of a session and its server from the import on: all commands are
polite and have unused numbers, and all outcomes fit, so none is a raw reply.
-/
def System.Run (device : ExportedDevice) (endpoints : List (UInt8 × UInt8))
    (steps : List Step) : Prop :=
  Guarded System.step System.Allowed (System.start device endpoints) steps

instance (device : ExportedDevice) (endpoints : List (UInt8 × UInt8)) (steps : List Step) :
    Decidable (System.Run device endpoints steps) :=
  inferInstanceAs (Decidable (Guarded _ _ _ _))

def System.after (device : ExportedDevice) (endpoints : List (UInt8 × UInt8))
    (steps : List Step) : System :=
  steps.foldl System.step (System.start device endpoints)

theorem System.Run.sync {device : ExportedDevice} {endpoints : List (UInt8 × UInt8)}
    {steps : List Step} (h : System.Run device endpoints steps)
    (hdevnum : device.devnum.toNat < 65536) : (System.after device endpoints steps).Sync :=
  invariant_of_guarded (fun _ _ hl hinv => (hinv.step hl).left) h
    (System.start_sync endpoints (exportDevid_eq hdevnum))

theorem System.Run.dialogue {device : ExportedDevice} {endpoints : List (UInt8 × UInt8)}
    {steps : List Step} (h : System.Run device endpoints steps)
    (hdevnum : device.devnum.toNat < 65536) :
    exists moves,
      Guarded Dialogue.step Dialogue.Allowed (Dialogue.start device.devid) moves ∧
        (System.after device endpoints steps).dialogue =
          moves.foldl Dialogue.step (Dialogue.start device.devid) :=
  simulation_of_guarded (fun _ _ hl hinv => hinv.step hl) h
    (System.start_sync endpoints (exportDevid_eq hdevnum))

end Link
end UsbIp
