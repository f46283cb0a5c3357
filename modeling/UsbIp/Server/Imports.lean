import UsbIp.Server.Listener

/-!
# Who has a device

The results about every run of a server, with any number of clients and
whatever they send: a device is never served on two connections, a request for
an import is decided by whether another connection has the device, and a device
comes back when its client is gone.
-/

namespace UsbIp
namespace Server

open Foundation
open Protocol
open Client (Text cString busidSize)

/-!
# What is held
-/

theorem Listener.holds_at {s : Listener} {i : Nat} {l : Line} {busid : String}
    (hline : s.lines[i]? = some l) (hholds : l.holds = some busid) :
    (s.lines.map Line.holds)[i]? = some (some busid) := by
  rw [List.getElem?_map, hline, Option.map_some, hholds]

theorem Listener.Exclusive.free_iff {s : Listener} (h : s.Exclusive) {busid : String} :
    busid ∉ s.imported <->
      forall (i : Nat) l, s.lines[i]? = some l -> l.holds ≠ some busid := by
  constructor
  · intro hfree i l hline hholds
    exact hfree (h.mem_iff.mpr ⟨i, Listener.holds_at hline hholds⟩)
  · intro hnone hmem
    rcases h.mem_iff.mp hmem with ⟨i, hi⟩
    rw [List.getElem?_map, Option.map_eq_some_iff] at hi
    rcases hi with ⟨l, hline, hholds⟩
    exact hnone i l hline hholds

def Line.serves (l : Line) : Option Export :=
  match l.task with
  | Stage.granted e => some e
  | Stage.urbs e _ => some e
  | _ => none

def IsFirst (exports : List Export) (served : Option Export) : Prop :=
  forall e, served = some e -> findExport exports e.busid = some e

theorem IsFirst.none (exports : List Export) : IsFirst exports none := by
  intro e h
  cases h

theorem Line.serves_of_free {l : Line} (h : l.task.free = true) : l.serves = none := by
  cases htask : l.task with
  | granted e =>
      rw [htask] at h
      cases h
  | urbs e c =>
      rw [htask] at h
      cases h
  | _ => simp only [Line.serves, htask]

theorem Stage.Moves.first {exports : List Export} {imported imported' : List String}
    {l l' : Line} (h : Stage.Moves exports imported l.task imported' l'.task)
    (hfirst : IsFirst exports l.serves) : IsFirst exports l'.serves := by
  generalize htask : l.task = task at h
  generalize htask' : l'.task = task' at h
  simp only [Line.serves, htask] at hfirst
  cases h with
  | stay =>
      simp only [Line.serves, htask']
      exact hfirst
  | passes _ hfree' =>
      rw [Line.serves_of_free (htask' ▸ hfree')]
      exact IsFirst.none exports
  | grants _ hfind _ =>
      simp only [Line.serves, htask']
      intro e' hserves
      cases hserves
      exact hfind
  | begins =>
      simp only [Line.serves, htask']
      exact hfirst
  | serves =>
      simp only [Line.serves, htask']
      exact hfirst
  | fails =>
      simp only [Line.serves, htask']
      exact IsFirst.none exports
  | returns =>
      simp only [Line.serves, htask']
      exact IsFirst.none exports

/-!
# The end of a connection
-/

/-- A loop that has stopped has told the writer, or the writer has stopped. -/
def Connection.Winds (c : Connection) : Prop :=
  c.phase = Phase.stopped -> c.writing = false ∨ none ∈ c.tx

theorem Connection.Winds.of_going {c : Connection} (h : c.phase ≠ Phase.stopped) : c.Winds :=
  fun hstopped => absurd hstopped h

theorem Connection.stop_winds (c : Connection) : c.stop.Winds := by
  intro _
  exact Or.inr (List.mem_append_right c.tx (List.mem_singleton.mpr rfl))

theorem Connection.check_phase (c : Connection) (bad : Prop) [Decidable bad] (text : String) :
    (c.check bad text).phase = c.phase := by
  unfold Connection.check
  split <;> rfl

theorem Connection.handle_winds {c : Connection} (hgoing : c.phase ≠ Phase.stopped)
    (header : Bytes) : (c.handle header).Winds := by
  have hsubmit : forall (c : Connection) (urb : Urb), (c.readSubmit urb).Winds := by
    intro c urb
    simp only [Connection.readSubmit]
    split
    · exact Connection.stop_winds _
    · apply Connection.Winds.of_going
      intro hphase
      cases hphase
  unfold Connection.handle
  dsimp only
  split
  · exact hsubmit _ _
  · split
    · apply Connection.Winds.of_going
      simp only [Connection.readUnlink, Connection.check_phase]
      exact hgoing
    · exact Connection.stop_winds _

theorem Connection.readBody_winds {c : Connection} {urb : Urb}
    (hphase : c.phase ≠ Phase.stopped) : (c.readBody urb).Winds := by
  unfold Connection.readBody
  split
  · exact Connection.Winds.of_going hphase
  · split
    · exact Connection.stop_winds _
    · split
      · exact Connection.Winds.of_going hphase
      · unfold Connection.submitted
        split
        · exact Connection.stop_winds _
        · apply Connection.Winds.of_going
          intro hheader
          cases hheader

theorem Connection.Winds.step {c : Connection} (h : c.Winds) (st : Step) : (c.step st).Winds := by
  cases st with
  | receive bytes => exact h
  | readFails =>
      simp only [Connection.step]
      split
      · exact h
      · exact Connection.stop_winds c
  | read =>
      simp only [Connection.step, Connection.read]
      split
      · rename_i hphase
        have hgoing : c.phase ≠ Phase.stopped := by
          rw [hphase]
          intro hsame
          cases hsame
        split
        · exact h
        · rename_i header rest _
          exact Connection.handle_winds (c := { c with input := rest }) hgoing header
      · rename_i urb hphase
        apply Connection.readBody_winds
        rw [hphase]
        intro hsame
        cases hsame
      · exact h
  | finish address outcome =>
      intro hstopped
      rcases h hstopped with hwriting | hend
      · exact Or.inl hwriting
      · exact Or.inr (List.mem_append_left _ hend)
  | skip address => exact h
  | write =>
      simp only [Connection.step, Connection.write]
      split
      · rename_i frame rest hwriting htx
        intro hstopped
        rcases h hstopped with hclosed | hend
        · rw [hwriting] at hclosed
          cases hclosed
        · rw [htx] at hend
          refine Or.inr ?_
          simpa using hend
      · exact fun _ => Or.inl rfl
      · exact h
  | writeFails n =>
      simp only [Connection.step, Connection.writeFails]
      split
      · exact fun _ => Or.inl rfl
      · exact h

theorem Connection.writes_end {c : Connection} (hphase : c.phase = Phase.stopped)
    (h : c.Winds) : exists n,
      ((List.replicate n Step.write).foldl Connection.step c).returns = true := by
  generalize hlen : c.tx.length = k
  induction k generalizing c with
  | zero =>
      have hwriting : c.writing = false := by
        rcases h hphase with hclosed | hend
        · exact hclosed
        · rw [List.eq_nil_of_length_eq_zero hlen] at hend
          cases hend
      exact ⟨0, decide_eq_true ⟨hphase, hwriting⟩⟩
  | succ k ih =>
      cases hwriting : c.writing with
      | false => exact ⟨0, decide_eq_true ⟨hphase, hwriting⟩⟩
      | true =>
          have hnext : (c.step Step.write).phase = Phase.stopped ∧
              (c.step Step.write).tx.length = k := by
            cases htx : c.tx with
            | nil =>
                rw [htx] at hlen
                cases hlen
            | cons frame rest =>
                rw [htx] at hlen
                have hrest : rest.length = k := Nat.succ.inj hlen
                cases frame with
                | none =>
                    simp only [Connection.step, Connection.write, hwriting, htx]
                    exact ⟨hphase, hrest⟩
                | some frame =>
                    simp only [Connection.step, Connection.write, hwriting, htx]
                    exact ⟨hphase, hrest⟩
          rcases ih hnext.left (h.step Step.write) hnext.right with ⟨n, hn⟩
          refine ⟨n + 1, ?_⟩
          rw [List.replicate_succ, List.foldl_cons]
          exact hn

def Line.connection (l : Line) : Option Connection :=
  match l.task with
  | Stage.urbs _ c => some c
  | _ => none

def Line.Winds (l : Line) : Prop :=
  forall c, l.connection = some c -> c.Winds

theorem Line.winds_of_none {l : Line} (h : l.connection = none) : l.Winds := by
  intro c hc
  rw [h] at hc
  cases hc

theorem Line.connection_of_free {l : Line} (h : l.task.free = true) : l.connection = none := by
  cases htask : l.task with
  | urbs e c =>
      rw [htask] at h
      cases h
  | _ => simp only [Line.connection, htask]

theorem Stage.Moves.winds {exports : List Export} {imported imported' : List String}
    {l l' : Line} (h : Stage.Moves exports imported l.task imported' l'.task)
    (hwinds : l.Winds) : l'.Winds := by
  generalize htask : l.task = task at h
  generalize htask' : l'.task = task' at h
  simp only [Line.Winds, Line.connection, htask] at hwinds
  cases h with
  | stay =>
      simp only [Line.Winds, Line.connection, htask']
      exact hwinds
  | passes _ hfree' => exact Line.winds_of_none (Line.connection_of_free (htask' ▸ hfree'))
  | grants =>
      apply Line.winds_of_none
      simp only [Line.connection, htask']
  | begins =>
      simp only [Line.Winds, Line.connection, htask']
      intro c hc
      cases hc
      apply Connection.Winds.of_going
      intro hphase
      cases hphase
  | serves =>
      simp only [Line.Winds, Line.connection, htask']
      intro c hc
      cases hc
      exact (hwinds _ rfl).step _
  | fails =>
      apply Line.winds_of_none
      simp only [Line.connection, htask']
  | returns =>
      apply Line.winds_of_none
      simp only [Line.connection, htask']

/-!
# What holds of all connections
-/

structure Listener.Good (exports : List Export) (s : Listener) : Prop where
  served : s.exports = exports
  exclusive : s.Exclusive
  first : forall l, l ∈ s.lines -> IsFirst exports l.serves
  winds : forall l, l ∈ s.lines -> l.Winds

theorem Listener.Good.step {exports : List Export} {s : Listener} (h : s.Good exports)
    (text : Text) (st : ListenerStep) : (s.step text st).Good exports where
  served := (Listener.step_exports text s st).trans h.served
  exclusive := h.exclusive.step text st
  first := by
    intro l hl
    rcases Listener.mem_step hl with hold | rfl | ⟨k, m, hk, rfl⟩
    · exact h.first l hold
    · exact IsFirst.none exports
    · have hmoves := k.step_moves text s.exports s.imported m
      rw [h.served] at hmoves ⊢
      exact hmoves.first (h.first k hk)
  winds := by
    intro l hl
    rcases Listener.mem_step hl with hold | rfl | ⟨k, m, hk, rfl⟩
    · exact h.winds l hold
    · exact Line.winds_of_none rfl
    · exact (k.step_moves text s.exports s.imported m).winds (h.winds k hk)

theorem Listener.start_good (exports : List Export) :
    (Listener.start exports).Good exports where
  served := rfl
  exclusive := Listener.start_exclusive exports
  first := by
    intro l hl
    cases hl
  winds := by
    intro l hl
    cases hl

theorem Listener.after_good (text : Text) (exports : List Export) (steps : List ListenerStep) :
    (Listener.after text exports steps).Good exports :=
  invariant_of_step (fun _ st h => h.step text st) steps (Listener.start_good exports)

/-!
# Steps of one connection
-/

def Line.steps (text : Text) (exports : List Export) (before : List String × Line)
    (sts : List LineStep) : List String × Line :=
  sts.foldl (fun p st => p.2.step text exports p.1 st) before

theorem Listener.steps_line (text : Text) {s : Listener} {i : Nat} {l : Line}
    (hline : s.lines[i]? = some l) (sts : List LineStep) :
    (sts.map (ListenerStep.line i)).foldl (Listener.step text) s =
      { s with
        imported := (Line.steps text s.exports (s.imported, l) sts).1
        lines := s.lines.set i (Line.steps text s.exports (s.imported, l) sts).2 } := by
  induction sts generalizing s l with
  | nil =>
      show s = { s with imported := s.imported, lines := s.lines.set i l }
      rw [set_same_index hline]
  | cons st sts ih =>
      have hstep : s.step text (ListenerStep.line i st) =
          { s with
            imported := (l.step text s.exports s.imported st).1
            lines := s.lines.set i (l.step text s.exports s.imported st).2 } := by
        simp only [Listener.step, hline]
      have hnext := getElem?_set_index hline (l.step text s.exports s.imported st).2
      rw [List.map_cons, List.foldl_cons, hstep, ih hnext]
      dsimp only
      rw [List.set_set]
      rfl

/-- What a task does once its client is gone. -/
def LineStep.isLast : LineStep -> Bool
  | LineStep.writeFails _ => true
  | LineStep.serve Step.readFails => true
  | LineStep.serve Step.write => true
  | LineStep.leave => true
  | _ => false

theorem Line.steps_serve (text : Text) (exports : List Export) (imported : List String)
    (e : Export) (sts : List Step) (hown : forall st, st ∈ sts -> isReceive st = false) (l : Line)
    (c : Connection) (htask : l.task = Stage.urbs e c) :
    Line.steps text exports (imported, l) (sts.map LineStep.serve) =
      (imported, { l with task := Stage.urbs e (sts.foldl Connection.step c) }) := by
  induction sts generalizing l c with
  | nil =>
      show (imported, l) = (imported, { l with task := Stage.urbs e c })
      rw [← htask]
  | cons st sts ih =>
      have hst : ¬ isReceive st = true := by
        rw [hown st List.mem_cons_self]
        decide
      have hstep : l.step text exports imported (LineStep.serve st) =
          (imported, { l with task := Stage.urbs e (c.step st) }) := by
        simp only [Line.step, Line.serve, htask, if_neg hst]
      have hrest := ih (fun st' h => hown st' (List.mem_cons_of_mem st h))
        { l with task := Stage.urbs e (c.step st) } (c.step st) rfl
      unfold Line.steps at hrest ⊢
      rw [List.map_cons, List.foldl_cons, hstep, hrest]
      rfl

theorem not_mem_strike (imported : List String) (busid : String) :
    busid ∉ strike imported busid := by
  unfold strike
  intro hmem
  have hne := (List.mem_filter.mp hmem).right
  simp at hne

/-- A task whose client is gone gives its device back. -/
theorem Line.gives_back (text : Text) (exports : List Export) (imported : List String) {l : Line}
    (hwinds : l.Winds) {busid : String} (hholds : l.holds = some busid) :
    exists sts : List LineStep, (forall st, st ∈ sts -> st.isLast = true) ∧
      busid ∉ (Line.steps text exports (imported, l) sts).1 := by
  cases htask : l.task with
  | granted e =>
      have hbusid : e.busid = busid := by
        simpa only [Line.holds, htask, Option.some.injEq] using hholds
      refine ⟨[LineStep.writeFails 0], ?_, ?_⟩
      · intro st hst
        rw [List.mem_singleton.mp hst]
        rfl
      · have hlong : 0 < (grantReply e).length := by
          unfold grantReply
          rw [List.length_append, Client.opHeader_length]
          exact Nat.lt_of_lt_of_le (by decide) (Nat.le_add_right _ _)
        show busid ∉ (l.writeFails exports imported 0).1
        simp only [Line.writeFails, Line.reply, htask, if_pos hlong, hbusid]
        exact not_mem_strike imported busid
  | urbs e c =>
      have hbusid : e.busid = busid := by
        simpa only [Line.holds, htask, Option.some.injEq] using hholds
      have hcwinds : c.Winds := hwinds c (by simp only [Line.connection, htask])
      have hphase : (c.step Step.readFails).phase = Phase.stopped := by
        simp only [Connection.step]
        split
        · assumption
        · rfl
      rcases Connection.writes_end hphase (hcwinds.step Step.readFails) with ⟨n, hreturns⟩
      have hown : forall st, st ∈ Step.readFails :: List.replicate n Step.write ->
          isReceive st = false := by
        intro st hst
        rcases List.mem_cons.mp hst with rfl | hwrite
        · rfl
        · rw [List.eq_of_mem_replicate hwrite]
          rfl
      refine ⟨(Step.readFails :: List.replicate n Step.write).map LineStep.serve ++
        [LineStep.leave], ?_, ?_⟩
      · intro st hst
        rcases List.mem_append.mp hst with hserve | hleave
        · rcases List.mem_map.mp hserve with ⟨st', hst', rfl⟩
          rcases List.mem_cons.mp hst' with rfl | hwrite
          · rfl
          · rw [List.eq_of_mem_replicate hwrite]
            rfl
        · rw [List.mem_singleton.mp hleave]
          rfl
      · have hserved := Line.steps_serve text exports imported e _ hown l c htask
        unfold Line.steps at hserved ⊢
        rw [List.foldl_append, hserved]
        rw [← List.foldl_cons] at hreturns
        simp only [List.foldl_cons, List.foldl_nil, Line.step, Line.leave] at hreturns ⊢
        rw [if_pos hreturns, hbusid]
        exact not_mem_strike imported busid
  | _ => simp only [Line.holds, htask, reduceCtorEq] at hholds

/-!
# Results
-/

/--
Whatever comes in on whatever connections: no two connections ever have the same
bus id, so no device is served twice at once; what a connection has is the first
export of its bus id; and `imported` has exactly what the connections have.
-/
theorem devices_are_not_shared (text : Text) (exports : List Export) (steps : List ListenerStep) :
    (forall (i j : Nat) l k busid, (Listener.after text exports steps).lines[i]? = some l ->
      (Listener.after text exports steps).lines[j]? = some k ->
      l.holds = some busid -> k.holds = some busid -> i = j) ∧
    (forall l e, l ∈ (Listener.after text exports steps).lines -> l.serves = some e ->
      findExport exports e.busid = some e) ∧
    (forall busid, busid ∈ (Listener.after text exports steps).imported <->
      exists l, l ∈ (Listener.after text exports steps).lines ∧ l.holds = some busid) := by
  have hgood := Listener.after_good text exports steps
  refine ⟨?_, ?_, ?_⟩
  · intro i j l k busid hl hk hheld hheld'
    exact hgood.exclusive.unique (Listener.holds_at hl hheld) (Listener.holds_at hk hheld')
  · intro l e hl hserves
    exact hgood.first l hl e hserves
  · intro busid
    constructor
    · intro hmem
      rcases hgood.exclusive.mem_iff.mp hmem with ⟨i, hi⟩
      rw [List.getElem?_map, Option.map_eq_some_iff] at hi
      rcases hi with ⟨l, hline, hholds⟩
      exact ⟨l, List.mem_of_getElem? hline, hholds⟩
    · rintro ⟨l, hl, hholds⟩
      rcases List.mem_iff_getElem?.mp hl with ⟨i, hi⟩
      exact hgood.exclusive.mem_iff.mpr ⟨i, Listener.holds_at hi hholds⟩

theorem Line.import_granted_iff {exports : List Export} {imported : List String} {l : Line}
    {busid : String} :
    (exists e, (l.import exports imported busid).2.task = Stage.granted e) <->
      (findExport exports busid).isSome ∧ busid ∉ imported := by
  unfold Line.import
  dsimp only
  cases hfind : findExport exports busid with
  | none =>
      constructor
      · rintro ⟨e, he⟩
        cases he
      · rintro ⟨hsome, _⟩
        cases hsome
  | some e =>
      dsimp only
      by_cases hmem : busid ∈ imported
      · rw [if_pos hmem]
        constructor
        · rintro ⟨e', he'⟩
          cases he'
        · rintro ⟨_, hfree⟩
          exact absurd hmem hfree
      · rw [if_neg hmem]
        exact ⟨fun _ => ⟨rfl, hmem⟩, fun _ => ⟨e, rfl⟩⟩

/--
In every state that a server comes to, a request for an import is granted if and
only if the device is exported and no connection has it at that moment.
-/
theorem imports_are_granted_when_free (text : Text) (exports : List Export)
    (steps : List ListenerStep) {i : Nat} {l : Line} {field rest : Bytes}
    (hline : (Listener.after text exports steps).lines[i]? = some l)
    (htask : l.task = Stage.busid) (htake : takeExact busidSize l.input = some (field, rest)) :
    (exists k e, ((Listener.after text exports steps).step text
        (ListenerStep.line i LineStep.read)).lines[i]? = some k ∧ k.task = Stage.granted e) <->
      (findExport exports (cString text field)).isSome ∧
        forall (j : Nat) k, (Listener.after text exports steps).lines[j]? = some k ->
          k.holds ≠ some (cString text field) := by
  have hgood := Listener.after_good text exports steps
  have hstep : (Listener.after text exports steps).step text
      (ListenerStep.line i LineStep.read) =
      { Listener.after text exports steps with
        imported := ({ l with input := rest }.import exports
          (Listener.after text exports steps).imported (cString text field)).1
        lines := (Listener.after text exports steps).lines.set i
          ({ l with input := rest }.import exports
            (Listener.after text exports steps).imported (cString text field)).2 } := by
    simp only [Listener.step, hline, Line.step, Line.read, htask, htake, hgood.served]
  rw [hstep]
  dsimp only
  rw [getElem?_set_index hline, ← hgood.exclusive.free_iff]
  constructor
  · rintro ⟨k, e, hk, he⟩
    cases hk
    exact Line.import_granted_iff.mp ⟨e, he⟩
  · intro h
    rcases Line.import_granted_iff.mpr h with ⟨e, he⟩
    exact ⟨_, e, rfl, he⟩

def sampleExports : List Export :=
  [{ Client.sampleExport with endpoints := [] }]

def sampleRequest : List ListenerStep :=
  [ListenerStep.accept,
    ListenerStep.line 0 (LineStep.receive
      (Client.opHeader Client.usbipVersion Client.opReqImport 0 ++
        Client.padded busidSize "1-1")),
    ListenerStep.line 0 LineStep.read]

def sampleLine : Line :=
  { Line.start with task := Stage.busid, input := Client.padded busidSize "1-1" ++ [] }

theorem sampleRequest_line :
    (Listener.after Text.strict sampleExports sampleRequest).lines[0]? = some sampleLine := rfl

theorem sample_find : findExport sampleExports "1-1" =
    some { Client.sampleExport with endpoints := [] } :=
  List.find?_cons_of_pos (beq_self_eq_true "1-1")

theorem sample_cString : cString Text.strict (Client.padded busidSize "1-1") = "1-1" :=
  Client.cString_padded Text.strict_lossless Client.sampleExport_encodable.busid_nonzero

theorem imports_are_granted_when_free_sample :
    exists k e, ((Listener.after Text.strict sampleExports sampleRequest).step Text.strict
      (ListenerStep.line 0 LineStep.read)).lines[0]? = some k ∧ k.task = Stage.granted e := by
  have htake : takeExact busidSize sampleLine.input =
      some (Client.padded busidSize "1-1", []) :=
    takeExact_append (Client.padded_length Client.sampleExport_encodable.busid_length) []
  apply (imports_are_granted_when_free Text.strict sampleExports sampleRequest
    sampleRequest_line rfl htake).mpr
  rw [sample_cString, sample_find]
  refine ⟨rfl, ?_⟩
  intro j k hk
  have hlines : (Listener.after Text.strict sampleExports sampleRequest).lines = [sampleLine] :=
    rfl
  rw [hlines] at hk
  rw [List.mem_singleton.mp (List.mem_of_getElem? hk)]
  intro hheld
  cases hheld

/--
A device does not stay behind with a client that is gone: in every state that a
server comes to, what is left to the task of a connection brings the device back,
and no other connection is touched.
-/
theorem abandoned_devices_come_back (text : Text) (exports : List Export)
    (steps : List ListenerStep) {i : Nat} {l : Line} {busid : String}
    (hline : (Listener.after text exports steps).lines[i]? = some l)
    (hholds : l.holds = some busid) :
    exists sts : List LineStep, (forall st, st ∈ sts -> st.isLast = true) ∧
      (forall k, k ∈ (Listener.after text exports
          (steps ++ sts.map (ListenerStep.line i))).lines -> k.holds ≠ some busid) ∧
      (forall j : Nat, j ≠ i ->
        (Listener.after text exports (steps ++ sts.map (ListenerStep.line i))).lines[j]? =
          (Listener.after text exports steps).lines[j]?) := by
  have hgood := Listener.after_good text exports steps
  have hwinds := hgood.winds l (List.mem_of_getElem? hline)
  rcases Line.gives_back text exports (Listener.after text exports steps).imported hwinds
    hholds with ⟨sts, hlast, hback⟩
  have hafter : Listener.after text exports (steps ++ sts.map (ListenerStep.line i)) = _ :=
    (List.foldl_append.trans (Listener.steps_line text hline sts) :
      (steps ++ sts.map (ListenerStep.line i)).foldl (Listener.step text)
        (Listener.start exports) = _)
  have hexclusive := (Listener.after_good text exports
    (steps ++ sts.map (ListenerStep.line i))).exclusive
  refine ⟨sts, hlast, ?_, ?_⟩
  · intro k hk
    rcases List.mem_iff_getElem?.mp hk with ⟨j, hj⟩
    refine hexclusive.free_iff.mp ?_ j k hj
    rw [hafter]
    dsimp only
    rw [hgood.served]
    exact hback
  · intro j hj
    rw [hafter]
    exact List.getElem?_set_ne (Ne.symm hj)

theorem abandoned_devices_come_back_sample :
    exists sts : List LineStep, (forall st, st ∈ sts -> st.isLast = true) ∧
      (forall k, k ∈ (Listener.after Text.strict sampleExports
          ((sampleRequest ++ [ListenerStep.line 0 LineStep.read]) ++
            sts.map (ListenerStep.line 0))).lines -> k.holds ≠ some "1-1") ∧
      (forall j : Nat, j ≠ 0 ->
        (Listener.after Text.strict sampleExports
          ((sampleRequest ++ [ListenerStep.line 0 LineStep.read]) ++
            sts.map (ListenerStep.line 0))).lines[j]? =
          (Listener.after Text.strict sampleExports
            (sampleRequest ++ [ListenerStep.line 0 LineStep.read])).lines[j]?) := by
  have htake : takeExact busidSize sampleLine.input =
      some (Client.padded busidSize "1-1", []) :=
    takeExact_append (Client.padded_length Client.sampleExport_encodable.busid_length) []
  have hline : (Listener.after Text.strict sampleExports
      (sampleRequest ++ [ListenerStep.line 0 LineStep.read])).lines[0]? =
      some (({ sampleLine with input := [] }.import sampleExports [] "1-1").2) := by
    have hread : sampleLine.step Text.strict sampleExports [] LineStep.read =
        { sampleLine with input := [] }.import sampleExports [] "1-1" := by
      simp only [Line.step, Line.read, htake]
      rw [sample_cString]
      rfl
    rw [← hread]
    rfl
  have hholds : ({ sampleLine with input := [] }.import sampleExports [] "1-1").2.holds =
      some "1-1" := by
    unfold Line.import
    rw [sample_find]
    rfl
  exact abandoned_devices_come_back Text.strict sampleExports
    (sampleRequest ++ [ListenerStep.line 0 LineStep.read]) hline hholds

end Server
end UsbIp
