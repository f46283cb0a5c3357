import UsbIp.Client.Resolution

/-!
# What becomes of a registered transfer

A caller that keeps the number of a transfer wants to know what the steps of
other tasks can do to it.  They can take it out of the table, but not put it
back: an entry with an old reply channel was there all along.  And they cannot
lose its unlink while it is still registered.
-/

namespace UsbIp
namespace Client

open Foundation
open Protocol

/-- How the tables of a later state relate to those of an earlier one. -/
structure Shared.Tracks (s s' : Shared) : Prop where
  channels_le : s.channels ≤ s'.channels
  pending_back : forall n p, s'.state.submits.lookup n = some p ->
    p.reply < s.channels -> s.state.submits.lookup n = some p
  unlinking_kept : forall u n p, s.state.unlinks.lookup u = some n ->
    s'.state.submits.lookup n = some p -> p.reply < s.channels ->
    exists v, s'.state.unlinks.lookup v = some n
  closed_kept : s.state.closed.isSome = true -> s'.state.closed.isSome = true
  issued_prefix : s.issued <+: s'.issued
  sent_kept : s.sent <:+ s'.sent

theorem Shared.Tracks.refl (s : Shared) : s.Tracks s where
  channels_le := Nat.le_refl _
  pending_back := fun _ _ hp _ => hp
  unlinking_kept := fun u _ _ hu _ _ => ⟨u, hu⟩
  closed_kept := fun h => h
  issued_prefix := List.prefix_refl _
  sent_kept := List.suffix_refl _

theorem Shared.Tracks.trans {s t u : Shared} (hst : s.Tracks t) (htu : t.Tracks u) :
    s.Tracks u where
  channels_le := Nat.le_trans hst.channels_le htu.channels_le
  pending_back := by
    intro n p hp hreply
    have ht : t.state.submits.lookup n = some p :=
      htu.pending_back n p hp (Nat.lt_of_lt_of_le hreply hst.channels_le)
    exact hst.pending_back n p ht hreply
  unlinking_kept := by
    intro v n p hv hp hreply
    have hlt : p.reply < t.channels := Nat.lt_of_lt_of_le hreply hst.channels_le
    have ht : t.state.submits.lookup n = some p := htu.pending_back n p hp hlt
    rcases hst.unlinking_kept v n p hv ht hreply with ⟨w, hw⟩
    exact htu.unlinking_kept w n p hw hp hlt
  closed_kept := fun h => htu.closed_kept (hst.closed_kept h)
  issued_prefix := hst.issued_prefix.trans htu.issued_prefix
  sent_kept := hst.sent_kept.trans htu.sent_kept

/-!
# One locked section
-/

theorem Shared.Tracks.register (s : Shared) (req : SubmitRequest) (seqnum : UInt32) :
    s.Tracks (s.register req seqnum { s.state with nextSeqnum := seqnum }) where
  channels_le := Nat.le_succ _
  pending_back := by
    intro n p hp hreply
    rw [Shared.register, Table.lookup_insert_eq] at hp
    split at hp
    · cases hp
      exact absurd hreply (Nat.lt_irrefl _)
    · exact hp
  unlinking_kept := fun u _ _ hu _ _ => ⟨u, hu⟩
  closed_kept := fun h => h
  issued_prefix := by
    rw [s.register_issued]
    exact List.prefix_append _ _
  sent_kept := List.suffix_refl _

theorem Shared.Tracks.registerUnlink {s : Shared} {target seqnum : UInt32} {reply : Nat}
    (hfree : s.state.Free seqnum) :
    s.Tracks (s.registerUnlink target reply seqnum
      { s.state with nextSeqnum := seqnum }) where
  channels_le := Nat.le_refl _
  pending_back := fun _ _ hp _ => hp
  unlinking_kept := by
    intro u n p hu _ _
    refine ⟨u, ?_⟩
    rw [Shared.registerUnlink, Table.lookup_insert_eq, if_neg]
    · exact hu
    · intro hsame
      rw [hsame] at hu
      exact hfree.right.right (Table.mem_iff_lookup.mpr ⟨n, hu⟩)
  closed_kept := fun h => h
  issued_prefix := by
    rw [s.registerUnlink_issued]
    exact List.prefix_append _ _
  sent_kept := List.suffix_refl _

theorem Shared.Tracks.close (s : Shared) (reason : String) : s.Tracks (s.close reason) := by
  cases hopen : s.state.closed with
  | some earlier =>
      have hsame : s.close reason = s := by
        simp [Shared.close, hopen]
      rw [hsame]
      exact Shared.Tracks.refl s
  | none =>
      have hempty : (s.close reason).state.submits = ∅ := by
        simp [Shared.close, hopen]
      exact
        { channels_le := by simp [Shared.close, hopen]
          pending_back := by
            intro n p hp
            simp [hempty] at hp
          unlinking_kept := by
            intro u n p _ hp
            simp [hempty] at hp
          closed_kept := by simp [hopen]
          issued_prefix := ⟨[], (List.append_nil _).trans (s.close_issued reason).symm⟩
          sent_kept := by
            simp only [Shared.close, hopen]
            exact List.suffix_append _ _ }

theorem Shared.Tracks.finishSubmit (s : Shared) (ret : RetSubmit) :
    s.Tracks (s.finishSubmit ret) where
  channels_le := Nat.le_refl _
  pending_back := by
    intro n p hp _
    exact (Table.lookup_of_erase hp).right
  unlinking_kept := by
    intro u n p hu hp _
    have hne := (Table.lookup_of_erase hp).left
    exact ⟨u, Table.lookup_retain_iff.mpr ⟨hu, by simpa using hne⟩⟩
  closed_kept := fun h => h
  issued_prefix := ⟨[], (List.append_nil _).trans (s.finishSubmit_issued ret).symm⟩
  sent_kept := by
    simp only [Shared.finishSubmit]
    split
    · exact List.suffix_cons _ _
    · exact List.suffix_refl _

theorem Shared.Tracks.finishUnlink (s : Shared) (ret : RetUnlink) :
    s.Tracks (s.finishUnlink ret) := by
  have hprefix : s.issued <+: (s.finishUnlink ret).issued :=
    ⟨[], (List.append_nil _).trans (s.finishUnlink_issued ret).symm⟩
  revert hprefix
  unfold Shared.finishUnlink
  cases htarget : s.state.unlinks.lookup ret.seqnum with
  | none =>
      intro hprefix
      simp only [htarget] at hprefix ⊢
      exact
        { channels_le := Nat.le_refl _
          pending_back := fun _ _ hp _ => hp
          unlinking_kept := fun u _ _ hu _ _ => ⟨u, hu⟩
          closed_kept := fun h => h
          issued_prefix := hprefix
          sent_kept := List.suffix_refl _ }
  | some target =>
      have hkept : forall u n, s.state.unlinks.lookup u = some n -> n ≠ target ->
          (s.state.unlinks.erase ret.seqnum).lookup u = some n := by
        intro u n hu hne
        rw [Table.lookup_erase_eq, if_neg]
        · exact hu
        · intro hsame
          rw [hsame, htarget] at hu
          cases hu
          exact hne rfl
      cases hp : s.state.submits.lookup target with
      | none =>
          intro hprefix
          simp only [htarget, hp] at hprefix ⊢
          exact
            { channels_le := Nat.le_refl _
              pending_back := fun _ _ hq _ => hq
              unlinking_kept := by
                intro u n q hu hq _
                refine ⟨u, hkept u n hu ?_⟩
                intro hsame
                change s.state.submits.lookup n = some q at hq
                rw [hsame, hp] at hq
                cases hq
              closed_kept := fun h => h
              issued_prefix := hprefix
              sent_kept := List.suffix_refl _ }
      | some p =>
          intro hprefix
          simp only [htarget, hp] at hprefix ⊢
          exact
            { channels_le := Nat.le_refl _
              pending_back := by
                intro n q hq _
                exact (Table.lookup_of_erase hq).right
              unlinking_kept := by
                intro u n q hu hq _
                exact ⟨u, hkept u n hu (Table.lookup_of_erase hq).left⟩
              closed_kept := fun h => h
              issued_prefix := hprefix
              sent_kept := List.suffix_cons _ _ }

theorem Section.tracks {request : Option SubmitRequest} {s s' : Shared}
    (hstep : Section request s s') : s.Tracks s' := by
  cases hstep with
  | submit h =>
      rcases Shared.submit_cases h with ⟨_, _, rfl, _⟩ | ⟨seqnum, _, _, _, _, rfl⟩
      · exact Shared.Tracks.refl _
      · exact Shared.Tracks.register s _ seqnum
  | unlink h =>
      rcases Shared.unlink_cases h with ⟨rfl, _⟩ | ⟨p, seqnum, _, _, _, hfree, rfl⟩
      · exact Shared.Tracks.refl _
      · exact Shared.Tracks.registerUnlink hfree.free
  | close reason => exact Shared.Tracks.close s reason
  | finishSubmit ret => exact Shared.Tracks.finishSubmit s ret
  | finishUnlink ret => exact Shared.Tracks.finishUnlink s ret

/-!
# Runs
-/

theorem Session.step_tracks (s : Session) (st : Step) :
    s.shared.Tracks (s.step st).shared := by
  rcases s.step_shared st with ⟨frames, heq⟩ | hsection
  · rw [heq]
    exact
      { channels_le := Nat.le_refl _
        pending_back := fun _ _ hp _ => hp
        unlinking_kept := fun u _ _ hu _ _ => ⟨u, hu⟩
        closed_kept := fun h => h
        issued_prefix := List.prefix_refl _
        sent_kept := List.suffix_refl _ }
  · exact hsection.tracks

def Session.Reaches (s s' : Session) : Prop :=
  exists steps, s' = List.foldl Session.step s steps

theorem Session.Reaches.refl (s : Session) : s.Reaches s :=
  ⟨[], rfl⟩

theorem Session.Reaches.trans {s t u : Session} (hst : s.Reaches t) (htu : t.Reaches u) :
    s.Reaches u := by
  rcases hst with ⟨front, rfl⟩
  rcases htu with ⟨back, rfl⟩
  exact ⟨front ++ back, (List.foldl_append ..).symm⟩

theorem Session.Reaches.step (s : Session) (st : Step) : s.Reaches (s.step st) :=
  ⟨[st], rfl⟩

theorem Session.Reaches.reachable {s s' : Session} (h : s.Reaches s')
    (hs : s.Reachable) : s'.Reachable := by
  rcases hs with ⟨device, front, rfl⟩
  rcases h with ⟨back, rfl⟩
  exact ⟨device, front ++ back, (List.foldl_append ..).symm⟩

theorem Session.Reaches.tracks {s s' : Session} (h : s.Reaches s') :
    s.shared.Tracks s'.shared := by
  rcases h with ⟨steps, rfl⟩
  exact relation_of_step (r := fun s s' : Session => s.shared.Tracks s'.shared)
    (fun s => Shared.Tracks.refl s.shared) (fun _ _ _ h h' => h.trans h')
    (fun s st => s.step_tracks st) s steps

theorem Section.log {request : Option SubmitRequest} {s s' : Shared}
    (hstep : Section request s s') : s.log <:+ s'.log := by
  cases hstep with
  | submit h =>
      rcases Shared.submit_cases h with ⟨_, _, rfl, _⟩ | ⟨seqnum, _, _, _, _, rfl⟩
      · exact List.suffix_refl _
      · exact List.suffix_cons _ _
  | unlink h =>
      rcases Shared.unlink_cases h with ⟨rfl, _⟩ | ⟨p, seqnum, _, _, _, _, rfl⟩
      · exact List.suffix_refl _
      · exact List.suffix_cons _ _
  | close reason =>
      unfold Shared.close
      split
      · exact List.suffix_refl _
      · exact List.suffix_cons _ _
  | finishSubmit ret => exact List.suffix_cons _ _
  | finishUnlink ret =>
      rw [s.finishUnlink_log]
      exact List.suffix_cons _ _

theorem Session.Reaches.log {s s' : Session} (h : s.Reaches s') :
    s.shared.log <:+ s'.shared.log := by
  rcases h with ⟨steps, rfl⟩
  refine relation_of_step (r := fun s s' : Session => s.shared.log <:+ s'.shared.log)
    (fun s => List.suffix_refl _) (fun _ _ _ h h' => h.trans h') ?_ s steps
  intro s st
  rcases s.step_shared st with ⟨frames, heq⟩ | hsection
  · have hlog : (s.step st).shared.log = s.shared.log := by rw [heq]
    exact ⟨[], hlog.symm⟩
  · exact hsection.log

theorem Session.Reaches.open {s s' : Session} (h : s.Reaches s')
    (hopen : s'.shared.state.closed = none) : s.shared.state.closed.isSome = false := by
  cases hclosed : s.shared.state.closed.isSome with
  | false => rfl
  | true =>
      have hkept := h.tracks.closed_kept hclosed
      rw [hopen] at hkept
      cases hkept

end Client
end UsbIp
