import UsbIp.Engine.Tokens

/-!
# No orphaned URB

URBs leave the queues at eight places.  Each of them must unlink exactly those
whose reply has not been delivered, or a read stays on the server and eats the
data of a later one.  The invariant follows every submission of the engine whose
number is still registered in the session: it is in flight without a result, its
unlink is under way, or it is among those that are about to be unlinked.
-/

namespace UsbIp
namespace Engine

open Foundation
open Protocol
open Hci
open Client (SubmitRequest TransferResult Session)

variable {R : Type}

/-!
# Tracked submissions
-/

/-- Where a registered submission is; `gone` is still to be unlinked. -/
def Core.Accounts (c : Core R) (s : Client.Shared) (gone : List InFlight)
    (sub : Submission R) (n : UInt32) : Prop :=
  (exists f, f ∈ flightsOf c sub.key ∧ f.token = sub.flight.token ∧ f.result = none) ∨
    (exists u, s.state.unlinks.lookup u = some n) ∨
    exists f, f ∈ gone ∧ f.result = none ∧ f.seqnum = n

def Core.Tracked (c : Core R) (s : Client.Shared) (gone : List InFlight) : Prop :=
  forall sub, Event.submitted sub ∈ c.log ->
    forall n p, s.state.submits.lookup n = some p -> p.reply = sub.reply ->
      n = sub.flight.seqnum ∧ c.Accounts s gone sub n

def Core.RepliesBelow (c : Core R) (s : Client.Shared) : Prop :=
  forall sub, Event.submitted sub ∈ c.log -> sub.reply < s.channels

theorem Core.Tracked.mono {c : Core R} {s : Client.Shared} {gone more : List InFlight}
    (h : c.Tracked s gone) (hmore : forall f, f ∈ gone -> f ∈ more) :
    c.Tracked s more := by
  intro sub hsub n p hp hreply
  rcases h sub hsub n p hp hreply with ⟨hn, hflight | hunlink | ⟨f, hf, hrest⟩⟩
  · exact ⟨hn, Or.inl hflight⟩
  · exact ⟨hn, Or.inr (Or.inl hunlink)⟩
  · exact ⟨hn, Or.inr (Or.inr ⟨f, hmore f hf, hrest⟩)⟩

theorem Core.Tracked.session {c : Core R} {s s' : Client.Shared} {gone : List InFlight}
    (h : c.Tracked s gone) (hbelow : c.RepliesBelow s) (htracks : s.Tracks s') :
    c.Tracked s' gone := by
  intro sub hsub n p hp hreply
  have hlt : p.reply < s.channels := hreply ▸ hbelow sub hsub
  have hp' := htracks.pending_back n p hp hlt
  rcases h sub hsub n p hp' hreply with ⟨hn, hflight | ⟨u, hu⟩ | hgone⟩
  · exact ⟨hn, Or.inl hflight⟩
  · exact ⟨hn, Or.inr (Or.inl (htracks.unlinking_kept u n p hu hp hlt))⟩
  · exact ⟨hn, Or.inr (Or.inr hgone)⟩

theorem Core.Tracked.cancelled {c : Core R} {s s' : Session} {gone : List InFlight}
    (h : c.Tracked s.shared gone) (hbelow : c.RepliesBelow s.shared)
    (hreaches : s.Reaches s') (hcancelled : Cancelled s s' gone) :
    c.Tracked s'.shared [] := by
  intro sub hsub n p hp hreply
  rcases h.session hbelow hreaches.tracks sub hsub n p hp hreply with
    ⟨hn, hflight | hunlink | ⟨f, hf, hresult, hseqnum⟩⟩
  · exact ⟨hn, Or.inl hflight⟩
  · exact ⟨hn, Or.inr (Or.inl hunlink)⟩
  · refine ⟨hn, Or.inr (Or.inl ?_)⟩
    subst hseqnum
    exact hcancelled f hf hresult p hp (hreply ▸ hbelow sub hsub)

theorem Core.Tracked.note {c : Core R} {s : Client.Shared} {gone : List InFlight}
    (h : c.Tracked s gone) {ev : Event R} (hev : forall sub, ev ≠ Event.submitted sub) :
    (c.note ev).Tracked s gone := by
  intro sub hsub n p hp hreply
  rcases List.mem_cons.mp hsub with hnew | hsub
  · exact absurd hnew.symm (hev sub)
  · exact h sub hsub n p hp hreply

theorem flightsOf_takeOut {c : Core R} {key k : EndpointKey} {f : InFlight}
    (h : f ∈ flightsOf (takeOut c key) k) : f ∈ flightsOf c k := by
  unfold takeOut at h
  split at h
  · exact h
  · rw [flightsOf_note, flightsOf_note, flightsOf_erase] at h
    split at h
    · cases h
    · exact h

theorem submitted_of_note {c : Core R} {ev : Event R}
    (hev : forall sub, ev ≠ Event.submitted sub) {sub : Submission R}
    (h : Event.submitted sub ∈ (c.note ev).log) : Event.submitted sub ∈ c.log := by
  rcases List.mem_cons.mp h with hnew | hold
  · exact absurd hnew.symm (hev sub)
  · exact hold

theorem Core.Tracked.reply {c : Core R} {s : Client.Shared} {gone : List InFlight}
    (h : c.Tracked s gone) (task : Task) (result : TransferResult) :
    (c.reply task result).Tracked s gone :=
  Core.Tracked.note (c := { c with tasks := c.tasks.filter fun t => t.reply ≠ task.reply })
    h (by simp)

theorem takeOut_submitted {c : Core R} {key : EndpointKey} {sub : Submission R}
    (h : Event.submitted sub ∈ (takeOut c key).log) : Event.submitted sub ∈ c.log := by
  unfold takeOut at h
  split at h
  · exact h
  · exact submitted_of_note (c := { c with endpoints := c.endpoints.erase key }) (by simp)
      (submitted_of_note (by simp) h)

/-!
# Changes of the queues
-/

variable [Ring R]

def Core.Answered (c : Core R) (s : Client.Shared) (token : Nat) : Prop :=
  forall sub, Event.submitted sub ∈ c.log -> sub.flight.token = token ->
    forall n p, s.state.submits.lookup n = some p -> p.reply ≠ sub.reply

theorem Core.TokensOk.flight_seqnum {c : Core R} (hok : c.TokensOk)
    {sub : Submission R} (hsub : Event.submitted sub ∈ c.log) {key : EndpointKey}
    {f : InFlight} (hf : f ∈ flightsOf c key) (htoken : f.token = sub.flight.token) :
    f.seqnum = sub.flight.seqnum := by
  rcases hok.flight_submitted hf with ⟨s, hs, _, hsame⟩
  have heq : s = sub := hok.submitted_injective s sub hs hsub (hsame.token.symm.trans htoken)
  rw [hsame.seqnum, heq]

/-- Entries on the server stay in the queue or are still to be unlinked. -/
theorem Core.Tracked.flights {c c' : Core R} {s : Client.Shared}
    {gone more : List InFlight} (h : c.Tracked s gone) (hok : c.TokensOk)
    (hlog : forall sub, Event.submitted sub ∈ c'.log -> Event.submitted sub ∈ c.log)
    (hmore : forall f, f ∈ gone -> f ∈ more)
    (hflights : forall key f, f ∈ flightsOf c key -> f.result = none ->
      (exists g, g ∈ flightsOf c' key ∧ g.token = f.token ∧ g.result = none) ∨
        f ∈ more ∨ c.Answered s f.token) :
    c'.Tracked s more := by
  intro sub hsub n p hp hreply
  have hsub' := hlog sub hsub
  rcases h.mono hmore sub hsub' n p hp hreply with
    ⟨hn, ⟨f, hf, htoken, hresult⟩ | hunlink | hgone⟩
  · constructor
    · exact hn
    · rcases hflights sub.key f hf hresult with ⟨g, hg, hgtoken, hgresult⟩ | hmem | hsent
      · exact Or.inl ⟨g, hg, hgtoken.trans htoken, hgresult⟩
      · refine Or.inr (Or.inr ⟨f, hmem, hresult, ?_⟩)
        rw [hn]
        exact hok.flight_seqnum hsub' hf htoken
      · exact absurd hreply (hsent sub hsub' htoken.symm n p hp)
  · exact ⟨hn, Or.inr (Or.inl hunlink)⟩
  · exact ⟨hn, Or.inr (Or.inr hgone)⟩

theorem Core.Tracked.put {c : Core R} {s : Client.Shared} (h : c.Tracked s [])
    (hok : c.TokensOk) {key : EndpointKey} {ep : Endpoint R} {gone : List InFlight}
    (hflights : forall f, f ∈ flightsOf c key -> f.result = none ->
      (exists g, g ∈ ep.inFlight ∧ g.token = f.token ∧ g.result = none) ∨
        f ∈ gone ∨ c.Answered s f.token) :
    (c.put key ep).Tracked s gone := by
  refine h.flights hok (fun _ hsub => hsub) (fun f hf => by cases hf) ?_
  intro k f hf hresult
  rw [flightsOf_put]
  split
  · rename_i hk
    subst hk
    exact hflights f hf hresult
  · exact Or.inl ⟨f, hf, rfl, hresult⟩

theorem Core.Tracked.takeOut {c : Core R} {s : Client.Shared} {gone : List InFlight}
    (h : c.Tracked s gone) (hok : c.TokensOk) (key : EndpointKey) :
    (takeOut c key).Tracked s (gone ++ flightsOf c key) := by
  unfold Engine.takeOut
  split
  · exact h.mono fun f hf => List.mem_append_left _ hf
  · refine (Core.Tracked.note ?_ (by simp)).note (by simp)
    refine h.flights hok (fun _ hsub => hsub)
      (fun f hf => List.mem_append_left _ hf) ?_
    intro k f hf hresult
    rw [flightsOf_erase]
    split
    · rename_i hk
      subst hk
      exact Or.inr (Or.inl (List.mem_append_right _ hf))
    · exact Or.inl ⟨f, hf, rfl, hresult⟩

theorem Core.Tracked.takeOutAll {c : Core R} {s : Client.Shared}
    {gone : List InFlight} (h : c.Tracked s gone) (hok : c.TokensOk)
    (keys : List EndpointKey) :
    (keys.foldl Engine.takeOut c).Tracked s (gone ++ keys.flatMap (flightsOf c)) := by
  induction keys generalizing c gone with
  | nil => simpa using h
  | cons key keys ih =>
      apply (ih (h.takeOut hok key) (hok.takeOut key)).mono
      intro f hf
      simp only [List.mem_append, List.mem_flatMap, List.flatMap_cons] at hf ⊢
      rcases hf with (hf | hf) | ⟨k, hk, hf⟩
      · exact Or.inl hf
      · exact Or.inr (Or.inl hf)
      · exact Or.inr (Or.inr ⟨k, hk, flightsOf_takeOut hf⟩)

/-!
# The invariant
-/

structure OrphanFree (e : Engine R) : Prop where
  reachable : e.session.Reachable
  tokens : e.toCore.TokensOk
  below : e.toCore.RepliesBelow e.session.shared
  tracked : e.stuck = false -> e.toCore.Tracked e.session.shared []

theorem OrphanFree.moves {e e' : Engine R} (hok : e.OrphanFree) {c : Core R}
    {gone : List InFlight} (h : Moves e e' c gone) (htokens : c.TokensOk)
    (hlog : forall sub, Event.submitted sub ∈ c.log -> Event.submitted sub ∈ e.log)
    (htracked : e.toCore.Tracked e.session.shared [] -> c.Tracked e.session.shared gone) :
    e'.OrphanFree := by
  have hbelow : c.RepliesBelow e.session.shared := fun sub hsub => hok.below sub (hlog sub hsub)
  constructor
  · exact h.session.reachable hok.reachable
  · rw [h.core]
    exact htokens
  · rw [h.core]
    intro sub hsub
    exact Nat.lt_of_lt_of_le (hbelow sub hsub) h.session.tracks.channels_le
  · intro hstuck
    rw [h.core]
    exact (htracked (hok.tracked (h.not_stuck hstuck))).cancelled hbelow h.session
      (h.cancels hok.reachable hstuck)

theorem OrphanFree.answered {e : Engine R} (hok : e.OrphanFree) {task : Task}
    {result : TransferResult} (htask : task ∈ e.tasks)
    (hsent : (task.reply, result) ∈ e.session.shared.sent) :
    e.toCore.Answered e.session.shared task.token := by
  intro sub hsub htoken n p hp hreply
  rcases hok.tokens.task_from task htask with ⟨s, hs, _, hstoken, hsreply⟩
  have hsame : s = sub :=
    hok.tokens.submitted_injective s sub hs hsub (hstoken.trans htoken.symm)
  subst hsame
  have hnone := (Client.Session.repliesOk hok.reachable).answers_of_pending hp
  rw [hreply, hsreply] at hnone
  have hmem := List.filterMap_eq_nil_iff.mp hnone _ hsent
  simp at hmem

theorem OrphanFree.push {e e' : Engine R} (hok : e.OrphanFree) {key : EndpointKey}
    {ep : Endpoint R} (hep : e.endpoints.lookup key = some ep) {s : Session}
    (hs : e.session.Reaches s) {message : UInt64} {req : SubmitRequest} {stage : Stage}
    {seqnum : UInt32} {reply : Nat} {shared : Client.Shared} {cmd : CmdSubmit}
    (hsubmit : s.shared.submit req = some (.ok (seqnum, reply), shared))
    (hsession : e'.session = { s with shared := shared })
    (htokens : (e.toCore.push key ep (newFlight e.nextToken message req stage seqnum)
      reply cmd).TokensOk)
    (h : Moves e e' (e.toCore.push key ep
      (newFlight e.nextToken message req stage seqnum) reply cmd) []) :
    e'.OrphanFree := by
  have hreplies := Client.Session.repliesOk (hs.reachable hok.reachable)
  rcases Client.Shared.submit_cases hsubmit with ⟨_, herr, _⟩ | ⟨n, hn, _, _, _, hshared⟩
  · cases herr
  cases hn
  have hchannels : s.shared.channels < e'.session.shared.channels := by
    rw [hsession, hshared]
    exact Nat.lt_succ_self _
  have hbelow : forall sub, Event.submitted sub ∈ e.log -> sub.reply < s.shared.channels :=
    fun sub hsub => Nat.lt_of_lt_of_le (hok.below sub hsub) hs.tracks.channels_le
  refine ⟨h.session.reachable hok.reachable, by rw [h.core]; exact htokens, ?_, ?_⟩
  · rw [h.core]
    intro sub hsub
    rcases List.mem_cons.mp hsub with hnew | hsub
    · rw [Event.submitted.injEq] at hnew
      rw [hnew]
      exact hchannels
    · exact Nat.lt_trans (hbelow sub hsub) hchannels
  · intro hstuck
    have htracked := (hok.tracked (h.not_stuck hstuck)).session hok.below hs.tracks
    rw [h.core]
    intro sub hsub n p hp hreply
    rw [hsession, hshared] at hp ⊢
    change (s.shared.state.submits.insert seqnum _).lookup n = some p at hp
    rw [Table.lookup_insert_eq] at hp
    rcases List.mem_cons.mp hsub with hnew | hsub
    · rw [Event.submitted.injEq] at hnew
      subst hnew
      split at hp
      · rename_i hseq
        refine ⟨hseq, Or.inl ⟨newFlight e.nextToken message req stage seqnum, ?_, rfl, rfl⟩⟩
        rw [flightsOf_push hep, if_pos rfl]
        exact List.mem_append_right _ List.mem_cons_self
      · exact absurd hreply (Nat.ne_of_lt (hreplies.reply_lt hp))
    · split at hp
      · cases hp
        exact absurd hreply.symm (Nat.ne_of_lt (hbelow sub hsub))
      · rcases htracked sub hsub n p hp hreply with ⟨hn, ⟨f, hf, hrest⟩ | hunlink | ⟨f, hf, _⟩⟩
        · refine ⟨hn, Or.inl ⟨f, ?_, hrest⟩⟩
          rw [flightsOf_push hep]
          split
          · rename_i hk
            rw [hk] at hf
            exact List.mem_append_left _ hf
          · exact hf
        · exact ⟨hn, Or.inr (Or.inl hunlink)⟩
        · cases hf

/-!
# Actions and changes
-/

theorem Action.orphanFree {key : EndpointKey} {e e' : Engine R} (h : Action key e e')
    (hok : e.OrphanFree) : e'.OrphanFree := by
  have htokens := h.tokensOk hok.tokens
  cases h with
  | idle h => exact hok.moves h hok.tokens (fun _ hsub => hsub) fun htracked => htracked
  | stale hep _ _ _ h =>
      rw [h.core] at htokens
      apply hok.moves h htokens (fun _ => submitted_of_note (by simp))
      intro htracked
      refine (htracked.put hok.tokens ?_).note (by simp)
      intro f hf _
      rw [← flightsOf_of_lookup hep]
      exact Or.inr (Or.inl hf)
  | applied hep _ hflight _ hresult hstage h =>
      rw [h.core] at htokens
      apply hok.moves h htokens (fun _ => submitted_of_note (by simp))
      intro htracked
      refine (htracked.put hok.tokens ?_).note (by simp)
      intro f hf hnone
      rw [flightsOf_of_lookup hep, hflight] at hf
      rcases List.mem_cons.mp hf with rfl | hf
      · rw [hresult] at hnone
        cases hnone
      · refine Or.inl ⟨f, ?_, rfl, hnone⟩
        rw [(applyStage_frame hstage).right.left]
        exact hf
  | settled hep _ hempty _ hsettles h =>
      rw [h.core] at htokens
      apply hok.moves h htokens (fun _ => submitted_of_note (by simp))
      intro htracked
      refine (htracked.put hok.tokens ?_).note (by simp)
      intro f hf _
      rw [flightsOf_of_lookup hep, hempty] at hf
      cases hf
  | submitted hep _ hs hsubmit hsession h =>
      rw [h.core] at htokens
      exact hok.push hep hs hsubmit hsession htokens h
  | refused hep _ hempty _ _ _ h =>
      rw [h.core] at htokens
      apply hok.moves h htokens (fun _ => submitted_of_note (by simp))
      intro htracked
      refine (htracked.put hok.tokens ?_).note (by simp)
      intro f hf _
      rw [flightsOf_of_lookup hep, hempty] at hf
      cases hf

theorem Replied.orphanFree {task : Task} {result : TransferResult} {e e' : Engine R}
    (h : Replied task result e e') (htask : task ∈ e.tasks)
    (hsent : (task.reply, result) ∈ e.session.shared.sent) (hok : e.OrphanFree) :
    e'.OrphanFree := by
  have htokens := h.tokensOk htask hok.tokens
  have hreply := hok.tokens.reply htask result
  have hanswered : (e.toCore.reply task result).Answered e.session.shared task.token := by
    intro sub hsub
    exact hok.answered htask hsent sub (submitted_of_note (by simp) hsub)
  cases h with
  | dropped _ h =>
      apply hok.moves h hreply (fun _ => submitted_of_note (by simp))
      intro htracked
      exact htracked.reply task result
  | @recorded ep front back f hep hsplit htoken _ h =>
      rw [h.core] at htokens
      apply hok.moves h htokens (fun _ => submitted_of_note (by simp))
      intro htracked
      apply (htracked.reply task result).put hreply
      intro g hg hnone
      have hflights : flightsOf (e.toCore.reply task result) task.key =
          front ++ f :: back := (flightsOf_of_lookup hep).trans hsplit
      rw [hflights] at hg
      rcases List.mem_append.mp hg with hg | hg
      · exact Or.inl ⟨g, List.mem_append_left _ hg, rfl, hnone⟩
      · rcases List.mem_cons.mp hg with rfl | hg
        · rw [htoken]
          exact Or.inr (Or.inr hanswered)
        · exact Or.inl ⟨g, List.mem_append_right _ (List.mem_cons_of_mem _ hg), rfl, hnone⟩
  | @truncated ep front back f hep hsplit htoken _ _ h =>
      rw [h.core] at htokens
      refine hok.moves h htokens
        (fun _ hsub => submitted_of_note (by simp) (submitted_of_note (by simp) hsub)) ?_
      intro htracked
      refine ((htracked.reply task result).put hreply ?_).note (by simp)
      intro g hg hnone
      have hflights : flightsOf (e.toCore.reply task result) task.key =
          front ++ f :: back := (flightsOf_of_lookup hep).trans hsplit
      rw [hflights] at hg
      rcases List.mem_append.mp hg with hg | hg
      · exact Or.inl ⟨g, hg, rfl, hnone⟩
      · rcases List.mem_cons.mp hg with rfl | hg
        · rw [htoken]
          exact Or.inr (Or.inr hanswered)
        · exact Or.inr (Or.inl hg)

theorem Change.orphanFree {e e' : Engine R} {op : Op R} (h : Change e e' op)
    (hok : e.OrphanFree) : e'.OrphanFree := by
  have htokens := h.tokensOk hok.tokens
  have hkeep : forall {key : EndpointKey} {ep ep' : Endpoint R},
      e.endpoints.lookup key = some ep -> ep'.inFlight = ep.inFlight ->
        e.toCore.Tracked e.session.shared [] ->
          (e.toCore.put key ep').Tracked e.session.shared [] := by
    intro key ep ep' hep hsame htracked
    apply htracked.put hok.tokens
    intro f hf hnone
    rw [flightsOf_of_lookup hep, ← hsame] at hf
    exact Or.inl ⟨f, hf, rfl, hnone⟩
  have hremove : forall (keys : List EndpointKey),
      Moves e e' (keys.foldl takeOut e.toCore) (keys.flatMap (flightsOf e.toCore)) ->
        e'.OrphanFree := by
    intro keys h
    rw [h.core] at htokens
    refine hok.moves h htokens ?_ ?_
    · intro sub
      exact invariant_of_step
        (I := fun c : Core R => Event.submitted sub ∈ c.log -> Event.submitted sub ∈ e.log)
        (fun c key hc hsub => hc (takeOut_submitted hsub)) keys fun hsub => hsub
    · intro htracked
      simpa using htracked.takeOutAll hok.tokens keys
  cases h with
  | added h =>
      rw [h.core] at htokens
      refine hok.moves h htokens
        (fun _ hsub => submitted_of_note (by simp) (submitted_of_note (by simp) hsub)) ?_
      intro htracked
      refine ((htracked.put hok.tokens ?_).note (by simp)).note (by simp)
      intro f hf _
      exact Or.inr (Or.inl hf)
  | updated hep h =>
      rw [h.core] at htokens
      exact hok.moves h htokens (fun _ hsub => hsub) (hkeep hep rfl)
  | removed h => exact hremove _ h
  | removedDevice _ h => exact hremove _ h
  | reset hep h =>
      rw [h.core] at htokens
      refine hok.moves h htokens
        (fun _ hsub => submitted_of_note (by simp) (submitted_of_note (by simp) hsub)) ?_
      intro htracked
      refine ((htracked.put hok.tokens ?_).note (by simp)).note (by simp)
      intro f hf _
      rw [← flightsOf_of_lookup hep]
      exact Or.inr (Or.inl hf)
  | @paused key ep _ hep h =>
      rw [h.core] at htokens
      apply hok.moves h htokens (fun _ hsub => hsub)
      intro htracked
      apply htracked.put hok.tokens
      intro f hf hnone
      rw [flightsOf_of_lookup hep] at hf
      refine Or.inl ⟨_, List.mem_map_of_mem hf, ?_⟩
      split
      · exact ⟨rfl, hnone⟩
      · exact ⟨rfl, hnone⟩
  | synced hep _ _ h =>
      rw [h.core] at htokens
      apply hok.moves h htokens (fun _ => submitted_of_note (by simp))
      intro htracked
      refine (htracked.put hok.tokens ?_).note (by simp)
      intro f hf _
      rw [← flightsOf_of_lookup hep]
      exact Or.inr (Or.inl hf)
  | replied harrived h =>
      rcases arrived_eq_some harrived with ⟨htask, _, hsent⟩
      exact h.orphanFree htask hsent hok
  | session h => exact hok.moves h hok.tokens (fun _ hsub => hsub) fun htracked => htracked
  | host hep h =>
      rw [h.core] at htokens
      exact hok.moves h htokens (fun _ hsub => hsub) (hkeep hep rfl)

theorem run_orphanFree (rounds : Nat) (device : Client.ExportedDevice)
    (schedule : List (List Client.Step)) (ops : List (Op R)) :
    (run rounds (start device schedule : Engine R) ops).OrphanFree := by
  refine run_invariant (I := OrphanFree) (fun _ _ _ h hok => h.orphanFree hok)
    (fun _ _ _ h hok => h.orphanFree hok) rounds ops ?_
  constructor
  · exact ⟨device, [], rfl⟩
  · exact start_tokensOk device schedule
  · intro sub hsub
    cases hsub
  · intro _ sub hsub
    cases hsub

/-!
# The guarantee to the device
-/

/--
Whenever the engine has returned from all its operations, fewer than `2^64`
submissions in, a URB of its that is still registered in the session is in flight
without a result, or its unlink is under way.
-/
theorem registered_urb_in_flight_or_unlinking (rounds : Nat)
    (device : Client.ExportedDevice) (schedule : List (List Client.Step))
    (ops : List (Op R))
    (hreturned : (run rounds (start device schedule : Engine R) ops).stuck = false) :
    let e := run rounds (start device schedule : Engine R) ops
    forall sub, Event.submitted sub ∈ e.log ->
      forall n p, e.session.shared.state.submits.lookup n = some p -> p.reply = sub.reply ->
        (exists ep f, e.endpoints.lookup sub.key = some ep ∧ f ∈ ep.inFlight ∧
          f.result = none ∧ f.seqnum = n) ∨
        exists u, e.session.shared.state.unlinks.lookup u = some n := by
  intro e sub hsub n p hp hreply
  have hok : e.OrphanFree := run_orphanFree rounds device schedule ops
  rcases hok.tracked hreturned sub hsub n p hp hreply with
    ⟨hn, ⟨f, hf, htoken, hresult⟩ | hunlink | ⟨f, hf, _⟩⟩
  · left
    have hseqnum := hok.tokens.flight_seqnum hsub hf htoken
    cases hep : e.endpoints.lookup sub.key with
    | none =>
        simp [flightsOf, hep] at hf
    | some ep =>
        rw [flightsOf_of_lookup hep] at hf
        exact ⟨ep, f, rfl, hf, hresult, hseqnum.trans hn.symm⟩
  · exact Or.inr hunlink
  · cases hf

theorem registered_urb_in_flight_or_unlinking_removed :
    let key : EndpointKey := (1, 0x81)
    let ring : QueueRing :=
      { active := true
        slots := [⟨10, .normal 2, [0, 0], rfl⟩, ⟨11, .normal 2, [0, 0], rfl⟩]
        next := 12 }
    let ops :=
      [Op.addEndpoint key { kind := .bulk, maxPacketSize := 512, bInterval := 0 } ring,
        Op.doorbell key, Op.removeEndpoint key]
    let e := run 8 (start sampleDevice []) ops
    e.session.shared.state.submits.keys = [2, 1] ∧
      forall sub, Event.submitted sub ∈ e.log ->
        forall n p, e.session.shared.state.submits.lookup n = some p ->
          p.reply = sub.reply ->
          (exists ep f, e.endpoints.lookup sub.key = some ep ∧ f ∈ ep.inFlight ∧
            f.result = none ∧ f.seqnum = n) ∨
          exists u, e.session.shared.state.unlinks.lookup u = some n := by
  intro key ring ops e
  constructor
  · decide +kernel
  · exact registered_urb_in_flight_or_unlinking 8 sampleDevice [] ops (by decide +kernel)

end Engine
end UsbIp
