import UsbIp.Link.Network

/-!
# From a request to a session

What a program and the server's task of its connection know of each other until
the session starts: what is on its way to the server is what the task waits for,
and what is on its way to the program is a front of the reply.  Where the session
starts, it and the task are the two ends of a system of their own.
-/

namespace UsbIp
namespace Link

open Foundation
open Protocol
open Client (Text Selector Session ExportedDevice cString utf8 padded encodeDevlistRequest
  encodeImportRequest encodeBusid readDevlistReply readImportReply opHeader usbipVersion
  opReqDevlist opReqImport opHeaderSize busidSize devlistReply)
open Server (Connection Export Line LineStep Stage findExport grantReply refusal)

/-!
# What a server exports
-/

def devicesOf (exports : List Export) : List ExportedDevice :=
  exports.map fun e => e.device

def listReply (exports : List Export) : Bytes :=
  devlistReply (exports.map Export.toExport)

/-- The device in the reply to a request for an import, which has no interfaces. -/
def seenDevice (e : Export) : ExportedDevice :=
  { e.device with interfaces := [] }

/-- The devices fit into the messages about them. -/
structure Exportable (text : Text) (exports : List Export) : Prop where
  lossless : text.Lossless
  count : exports.length ≤ 4096
  encodable : forall e, e ∈ exports -> e.Encodable
  devnum : forall e, e ∈ exports -> e.devnum.toNat < 65536

theorem Exportable.list {text : Text} {exports : List Export} (h : Exportable text exports) :
    readDevlistReply text (listReply exports) = .ok (devicesOf exports, []) := by
  have hlen : (exports.map Export.toExport).length ≤ 4096 := by
    rw [List.length_map]
    exact h.count
  have hencodable : forall c, c ∈ exports.map Export.toExport -> c.Encodable := by
    intro c hc
    rcases List.mem_map.mp hc with ⟨e, he, rfl⟩
    exact h.encodable e he
  have hreply := Client.readDevlistReply_reply h.lossless hlen hencodable []
  rw [List.append_nil, List.map_map] at hreply
  exact hreply

theorem findExport_mem {exports : List Export} {busid : String} {e : Export}
    (h : findExport exports busid = some e) : e ∈ exports :=
  List.mem_of_find?_eq_some h

theorem Exportable.grant {text : Text} {exports : List Export} (h : Exportable text exports)
    {busid : String} {e : Export} (he : findExport exports busid = some e) :
    readImportReply text (grantReply e) = .ok (seenDevice e, []) := by
  have hreply := Client.readImportReply_encode h.lossless (h.encodable e (findExport_mem he)) []
  rw [List.append_nil] at hreply
  exact hreply

theorem readImportReply_refusal (text : Text) :
    readImportReply text refusal = .error (.status 1) := by
  unfold readImportReply
  apply Reader.bind_error
  have hheader := Client.readOpHeader_header Client.opRepImport usbipVersion Client.opRepImport 1 []
  rw [List.append_nil, if_neg (not_not_intro rfl), if_pos (by decide)] at hheader
  exact hheader

/-!
# Where the task is
-/

inductive Listing (exports : List Export) : Stage -> Bytes -> Bytes -> Prop where
  | header : Listing exports Stage.header encodeDevlistRequest []
  | devlist : Listing exports Stage.devlist [] []
  | ended {up down : Bytes} : down <+: listReply exports ->
      Listing exports Stage.ended up down

/-- A system of a session and its task that has come about by a run. -/
def Began (e : Export) (l : System) : Prop :=
  exists steps, System.Run (seenDevice e) e.endpoints steps ∧
    System.after (seenDevice e) e.endpoints steps = l

inductive Serving (e : Export) (session : Session) (toServer toClient : Bytes) :
    Stage -> Prop where
  | urbs {c : Connection} : Began e ⟨session, c, toServer, toClient⟩ ->
      Serving e session toServer toClient (Stage.urbs e c)
  | returned {c : Connection} : c.writing = false ->
      Began e ⟨session, c, toServer, toClient⟩ ->
      Serving e session toServer toClient (Stage.returned e c)

theorem Serving.moves {e : Export} {session session' : Session}
    {toServer toServer' toClient toClient' : Bytes} {task : Stage}
    (h : Serving e session toServer toClient task)
    (hmove : forall c : Connection, Began e ⟨session, c, toServer, toClient⟩ ->
      Began e ⟨session', c, toServer', toClient'⟩) :
    Serving e session' toServer' toClient' task := by
  cases h with
  | urbs hbegan => exact Serving.urbs (hmove _ hbegan)
  | returned hwriting hbegan => exact Serving.returned hwriting (hmove _ hbegan)

/-- The task of a request for an import, as far as the session has not started. -/
inductive Importing (exports : List Export) (busid : String) : Stage -> Bytes -> Bytes -> Prop where
  | header : Importing exports busid Stage.header
      (opHeader usbipVersion opReqImport 0 ++ padded busidSize busid) []
  | busid : Importing exports busid Stage.busid (padded busidSize busid) []
  | granted {e : Export} : findExport exports busid = some e ->
      Importing exports busid (Stage.granted e) [] []
  | refused : Importing exports busid Stage.refused [] []
  | cut {e : Export} {up down back : Bytes} : findExport exports busid = some e ->
      down ++ back = grantReply e -> back ≠ [] -> Importing exports busid Stage.ended up down
  | ended {up down : Bytes} : down <+: refusal -> Importing exports busid Stage.ended up down
  | begun {e : Export} {task : Stage} {more : Bytes} : findExport exports busid = some e ->
      Serving e (Session.start (seenDevice e)) [] more task ->
      Importing exports busid task [] (grantReply e ++ more)

theorem Began.start (e : Export) :
    Began e ⟨Session.start (seenDevice e), Connection.start e.devid e.endpoints, [], []⟩ :=
  ⟨[], trivial, rfl⟩

theorem Began.step {e : Export} {l : System} (h : Began e l) (st : Step) (hst : l.Allowed st) :
    Began e (l.step st) := by
  rcases h with ⟨steps, hrun, rfl⟩
  refine ⟨steps ++ [st], ?_, ?_⟩
  · exact Guarded.append hrun ⟨hst, trivial⟩
  · exact List.foldl_append

/-!
# Steps of the task
-/

theorem newBytes_of_written {l l' : Line} {out : Bytes} (hwritten : l'.written = l.written ++ out)
    (htask : forall e c, l.task ≠ Stage.urbs e c) : newBytes l l' = out := by
  unfold newBytes
  rw [hwritten, List.drop_left]
  cases hbefore : l.task with
  | urbs e c => exact absurd hbefore (htask e c)
  | _ => exact List.append_nil out

theorem newBytes_self (l : Line) : newBytes l l = [] := by
  unfold newBytes
  rw [List.drop_length]
  cases l.task with
  | urbs e c => exact List.drop_length
  | _ => rfl

theorem Line.step_ended {l : Line} (h : l.task = Stage.ended) (text : Text) (exports : List Export)
    (imported : List String) {st : LineStep} (hst : isTasks st = true) :
    l.step text exports imported st = (imported, l) := by
  cases st with
  | receive bytes => cases hst
  | _ =>
      simp only [Line.step, Line.readFails, Line.read, Line.write, Line.writeFails, Line.reply,
        Line.serve, Line.leave, h]

theorem request_devlist (l : Line) :
    l.request encodeDevlistRequest =
      { l with task := Stage.devlist, log := l.log ++ [Server.Request.devList] } := rfl

theorem request_import (l : Line) :
    l.request (opHeader usbipVersion opReqImport 0) = { l with task := Stage.busid } := rfl

theorem takeExact_front {n : Nat} {bytes more message tail : Bytes}
    (h : bytes ++ more = message ++ tail) (hlen : message.length = n) :
    (exists rest, takeExact n bytes = some (message, rest) ∧ rest ++ more = tail) ∨
      takeExact n bytes = none := by
  by_cases hle : n ≤ bytes.length
  · rw [← hlen] at hle
    rcases front_of_length h hle with ⟨rest, rfl, htail⟩
    exact Or.inl ⟨rest, takeExact_append hlen rest, htail⟩
  · exact Or.inr (takeExact_short (Nat.lt_of_not_le hle))

theorem Listing.task {exports : List Export} {l : Line} {toServer down : Bytes}
    (h : Listing exports l.task (l.input ++ toServer) down) (text : Text)
    (imported : List String) {st : LineStep} (hst : isTasks st = true) :
    Listing exports (l.step text exports imported st).2.task
      ((l.step text exports imported st).2.input ++ toServer)
      (down ++ newBytes l (l.step text exports imported st).2) := by
  have hstay : Listing exports l.task (l.input ++ toServer) (down ++ newBytes l l) := by
    rw [newBytes_self, List.append_nil]
    exact h
  generalize htask : l.task = task at h
  generalize hup : l.input ++ toServer = up at h
  cases h with
  | header =>
      rw [htask] at hstay
      cases st with
      | receive bytes => cases hst
      | readFails =>
          simp only [Line.step, Line.readFails, htask]
          have hnew : newBytes l { l with task := Stage.ended } = [] :=
            newBytes_of_written (List.append_nil _).symm (by simp [htask])
          rw [hnew]
          exact Listing.ended List.nil_prefix
      | read =>
          rw [← List.append_nil encodeDevlistRequest] at hup
          rcases takeExact_front hup (Client.opHeader_length _ _ _) with
            ⟨rest, htake, hrest⟩ | hnone
          · simp only [Line.step, Line.read, htask, htake, request_devlist, hrest]
            have hnew : newBytes l { l with
                input := rest, task := Stage.devlist, log := l.log ++ [Server.Request.devList] } =
                [] :=
              newBytes_of_written (List.append_nil _).symm (by simp [htask])
            rw [hnew]
            exact Listing.devlist
          · simp only [Line.step, Line.read, htask, hnone]
            exact hstay
      | _ =>
          simp only [Line.step, Line.write, Line.writeFails, Line.reply, Line.serve, Line.leave,
            htask]
          exact hstay
  | devlist =>
      rw [htask] at hstay
      cases st with
      | receive bytes => cases hst
      | write =>
          simp only [Line.step, Line.write, htask]
          rw [newBytes_of_written rfl (by simp [htask])]
          exact Listing.ended (List.prefix_refl _)
      | writeFails n =>
          simp only [Line.step, Line.writeFails, Line.reply, htask]
          split
          · rw [newBytes_of_written rfl (by simp [htask])]
            exact Listing.ended (List.take_prefix _ _)
          · rw [htask]
            exact hstay
      | _ =>
          simp only [Line.step, Line.readFails, Line.read, Line.serve, Line.leave, htask]
          exact hstay
  | ended hdown =>
      rw [Line.step_ended htask text exports imported hst, htask]
      exact Listing.ended (by
        rw [newBytes_self, List.append_nil]
        exact hdown)

theorem Connection.writing_of_returns {c : Connection} (h : c.returns = true) :
    c.writing = false := by
  unfold Connection.returns at h
  exact (of_decide_eq_true h).right

theorem Line.import_importing (exports : List Export) (busid : String) {l : Line}
    (imported : List String) {back : Bytes} (hup : l.input ++ back = []) :
    Importing exports busid (l.import exports imported busid).2.task
        ((l.import exports imported busid).2.input ++ back) [] ∧
      (l.import exports imported busid).2.written = l.written := by
  unfold Line.import
  dsimp only
  split
  · rename_i e hfind
    split
    · rw [hup]
      exact ⟨Importing.refused, rfl⟩
    · rw [hup]
      exact ⟨Importing.granted hfind, rfl⟩
  · rw [hup]
    exact ⟨Importing.refused, rfl⟩

/-- What a step of the server says of the steps of a system. -/
theorem Began.serve {e : Export} {client : Session} {c : Connection} {toServer toClient : Bytes}
    (h : Began e ⟨client, c, toServer, toClient⟩) {st : Server.Step}
    (hown : Server.isReceive st = false)
    (hfits : forall address outcome, st = Server.Step.finish address outcome ->
      outcomeFits c.urbs address outcome) :
    Began e ⟨client, c.step st, toServer,
      toClient ++ (c.step st).written.drop c.written.length⟩ := by
  have hservers : isServers st = true := by
    cases st with
    | receive bytes => cases hown
    | _ => rfl
  have hallowed : System.Allowed ⟨client, c, toServer, toClient⟩ (Step.server st) := by
    cases st with
    | finish address outcome => exact hfits address outcome rfl
    | _ => exact trivial
  have hnext := h.step (Step.server st) hallowed
  simp only [System.step, if_pos hservers] at hnext
  exact hnext

theorem Serving.task {text : Text} {exports : List Export} {e : Export} {session : Session}
    {toServer toClient : Bytes} {l : Line} (h : Serving e session toServer toClient l.task)
    (imported : List String) {st : LineStep} (hst : isTasks st = true)
    (hfits : forall e c address outcome, l.task = Stage.urbs e c ->
      st = LineStep.serve (Server.Step.finish address outcome) ->
      outcomeFits c.urbs address outcome) :
    Serving e session toServer
        (toClient ++ newBytes l (l.step text exports imported st).2)
        (l.step text exports imported st).2.task ∧
      (l.step text exports imported st).2.input = l.input := by
  have hstay : Serving e session toServer (toClient ++ newBytes l l) l.task := by
    rw [newBytes_self, List.append_nil]
    exact h
  generalize htask : l.task = task at h
  rw [htask] at hstay
  cases h with
  | @urbs c hbegan =>
      cases st with
      | receive bytes => cases hst
      | serve st =>
          simp only [Line.step, Line.serve, htask]
          split
          · rw [htask]
            exact ⟨hstay, rfl⟩
          · rename_i hown
            have hserve := hbegan.serve (Bool.not_eq_true _ ▸ hown) fun address outcome hfinish =>
              hfits e c address outcome htask (congrArg LineStep.serve hfinish)
            have hnew : newBytes l { l with task := Stage.urbs e (c.step st) } =
                (c.step st).written.drop c.written.length := by
              simp only [newBytes, htask, List.drop_length, List.nil_append]
            rw [hnew]
            exact ⟨Serving.urbs hserve, rfl⟩
      | leave =>
          simp only [Line.step, Line.leave, htask]
          split
          · rename_i hreturns
            have hnew : newBytes l { l with task := Stage.returned e c } = [] := by
              simp only [newBytes, htask, List.drop_length, List.nil_append]
            rw [hnew, List.append_nil]
            exact ⟨Serving.returned (Connection.writing_of_returns hreturns) hbegan, rfl⟩
          · rw [htask]
            exact ⟨hstay, rfl⟩
      | _ =>
          simp only [Line.step, Line.readFails, Line.read, Line.write, Line.writeFails, Line.reply,
            htask]
          exact ⟨hstay, trivial⟩
  | @returned c hwriting hbegan =>
      cases st with
      | receive bytes => cases hst
      | _ =>
          simp only [Line.step, Line.readFails, Line.read, Line.write, Line.writeFails, Line.reply,
            Line.serve, Line.leave, htask]
          exact ⟨hstay, trivial⟩

theorem Importing.task {exports : List Export} {text : Text} {busid : String}
    (hlossless : text.Lossless) {field : Bytes}
    (hfield : encodeBusid text busid = .ok field) {l : Line} {toServer down : Bytes}
    (h : Importing exports busid l.task (l.input ++ toServer) down) (imported : List String)
    {st : LineStep} (hst : isTasks st = true)
    (hfits : forall e c address outcome, l.task = Stage.urbs e c ->
      st = LineStep.serve (Server.Step.finish address outcome) ->
      outcomeFits c.urbs address outcome) :
    Importing exports busid (l.step text exports imported st).2.task
      ((l.step text exports imported st).2.input ++ toServer)
      (down ++ newBytes l (l.step text exports imported st).2) := by
  have hstay : Importing exports busid l.task (l.input ++ toServer) (down ++ newBytes l l) := by
    rw [newBytes_self, List.append_nil]
    exact h
  generalize htask : l.task = task at h
  generalize hup : l.input ++ toServer = up at h
  rcases Client.encodeBusid_ok hfield with ⟨rfl, hshort, hzero⟩
  have hlength := Client.padded_length (Nat.le_of_lt hshort)
  cases h with
  | header =>
      rw [htask] at hstay
      cases st with
      | receive bytes => cases hst
      | readFails =>
          simp only [Line.step, Line.readFails, htask]
          have hnew : newBytes l { l with task := Stage.ended } = [] :=
            newBytes_of_written (List.append_nil _).symm (by simp [htask])
          rw [hnew]
          exact Importing.ended List.nil_prefix
      | read =>
          rcases takeExact_front hup (Client.opHeader_length _ _ _) with
            ⟨rest, htake, hrest⟩ | hnone
          · simp only [Line.step, Line.read, htask, htake, request_import, hrest]
            have hnew : newBytes l { l with input := rest, task := Stage.busid } = [] :=
              newBytes_of_written (List.append_nil _).symm (by simp [htask])
            rw [hnew]
            exact Importing.busid
          · simp only [Line.step, Line.read, htask, hnone]
            exact hstay
      | _ =>
          simp only [Line.step, Line.write, Line.writeFails, Line.reply, Line.serve, Line.leave,
            htask]
          exact hstay
  | busid =>
      rw [htask] at hstay
      cases st with
      | receive bytes => cases hst
      | readFails =>
          simp only [Line.step, Line.readFails, htask]
          have hnew : newBytes l { l with task := Stage.ended } = [] :=
            newBytes_of_written (List.append_nil _).symm (by simp [htask])
          rw [hnew]
          exact Importing.ended List.nil_prefix
      | read =>
          rw [← List.append_nil (padded busidSize busid)] at hup
          rcases takeExact_front hup hlength with ⟨rest, htake, hrest⟩ | hnone
          · have hsame : ({ l with input := rest, task := Stage.busid } : Line) =
                { l with input := rest } := by
              rw [← htask]
            simp only [Line.step, Line.read, htask, htake,
              Client.cString_padded hlossless hzero]
            rw [hsame]
            have hask : ({ l with input := rest } : Line).input ++ toServer = [] := hrest
            rcases Line.import_importing exports busid imported hask with
              ⟨himporting, hwritten⟩
            have hnew :
                newBytes l (Line.import exports imported { l with input := rest } busid).2 = [] :=
              newBytes_of_written (hwritten.trans (List.append_nil _).symm) (by simp [htask])
            rw [hnew]
            exact himporting
          · simp only [Line.step, Line.read, htask, hnone]
            exact hstay
      | _ =>
          simp only [Line.step, Line.write, Line.writeFails, Line.reply, Line.serve, Line.leave,
            htask]
          exact hstay
  | @granted e hfind =>
      rw [htask] at hstay
      rcases List.append_eq_nil_iff.mp hup with ⟨hinput, hserver⟩
      cases st with
      | receive bytes => cases hst
      | write =>
          simp only [Line.step, Line.write, htask]
          rw [newBytes_of_written rfl (by simp [htask]), hinput, hserver]
          have hreply : ([] : Bytes) ++ grantReply e = grantReply e ++ [] := by
            rw [List.append_nil, List.nil_append]
          rw [hreply]
          exact Importing.begun hfind (Serving.urbs (Began.start e))
      | writeFails n =>
          simp only [Line.step, Line.writeFails, Line.reply, htask]
          split
          · rename_i hcut
            rw [newBytes_of_written rfl (by simp [htask]), List.nil_append]
            apply Importing.cut hfind (List.take_append_drop n _)
            intro hnil
            rw [List.drop_eq_nil_iff] at hnil
            exact absurd hcut (Nat.not_lt_of_le hnil)
          · rw [htask]
            exact hstay
      | _ =>
          simp only [Line.step, Line.readFails, Line.read, Line.serve, Line.leave, htask]
          exact hstay
  | refused =>
      rw [htask] at hstay
      cases st with
      | receive bytes => cases hst
      | write =>
          simp only [Line.step, Line.write, htask]
          rw [newBytes_of_written rfl (by simp [htask])]
          exact Importing.ended (List.prefix_refl _)
      | writeFails n =>
          simp only [Line.step, Line.writeFails, Line.reply, htask]
          split
          · rw [newBytes_of_written rfl (by simp [htask])]
            exact Importing.ended (List.take_prefix _ _)
          · rw [htask]
            exact hstay
      | _ =>
          simp only [Line.step, Line.readFails, Line.read, Line.serve, Line.leave, htask]
          exact hstay
  | cut hfind hdown hback =>
      rw [Line.step_ended htask text exports imported hst, htask, newBytes_self, List.append_nil]
      exact Importing.cut hfind hdown hback
  | ended hdown =>
      rw [Line.step_ended htask text exports imported hst, htask, newBytes_self, List.append_nil]
      exact Importing.ended hdown
  | @begun e task more hfind hserving =>
      rw [← htask] at hserving
      rcases hserving.task imported hst hfits with ⟨hnext, hinput⟩
      rw [hinput, hup, List.append_assoc]
      exact Importing.begun hfind hnext

end Link
end UsbIp
