import GstWebrtc.Signalling.RoomTable
import GstWebrtc.Signalling.Serving

/-!
# The grammar of commands

The handler looks at how a text begins and unpacks its fields.  The protocol
knows two commands of an idle peer and two of a room member; a text that only
begins like one of them is taken for it all the same, and a command with a
missing argument raises.
-/

namespace GstWebrtc.Signalling

open GstWebrtc.Base GstWebrtc.Base.PyText WebRTCSimpleServer

/-- The texts with which an idle peer changes the tables. -/
inductive Joins (srv : WebRTCSimpleServer) (msg : Text) : Prop where
  | session {callee ws} (command : IsCommand "SESSION".toList callee msg)
      (available : srv.peers callee = some ⟨ws, none⟩) : Joins srv msg
  | room {room} (command : IsCommand "ROOM".toList room msg) (valid : room ≠ inSession) :
      Joins srv msg

/-- The texts that mean something, for an idle peer and for a member of a room. -/
def Meant (srv : WebRTCSimpleServer) : Option Text → Text → Prop
  | none, msg => Joins srv msg
  | some _, msg => msg = "ROOM_PEER_LIST".toList ∨
      ∃ other payload, IsCommandWith "ROOM_PEER_MSG".toList other payload msg

/-- A registered peer in no session, in a state in which the tables are in order. -/
structure Sender (w : World) (k : ConnId) (uid : Uid) (roomId : Option RoomId)
    (status : Option Text) : Prop extends Listens w k uid roomId status where
  sessions : SessionTables w
  rooms : RoomTables w
  outside : status = none ∨ ∃ room, IsRoom status room
  opened : w.socket k ≠ .closed

/-- What the protocol promises for a text, whatever it is. -/
structure Robust (w : World) (k : ConnId) (uid : Uid) (status : Option Text) (msg : Text) :
    Prop where
  tables : ∀ w', Serving w k msg w' → w'.server ≠ w.server → status = none ∧ Joins w.server msg
  /-- A text that means nothing is refused or ignored, and the next one is awaited. -/
  goesOn : ¬ Meant w.server status msg → (∃ w', Served w k msg w') ∧
    ∀ w', Served w k msg w' → w'.server = w.server ∧
      (∃ roomId, w'.phase k = .running uid roomId .recv) ∧
      (w'.log = w.log ∨ ∃ reply : Reply, reply.IsError ∧ w'.log = w.log ++ [(k, reply)])

/--
When the handler keeps the promise.  An idle peer: a text that begins with
`SESSION` has an argument, and names a registered callee only as an exact
command to an idle one; a text that begins with `ROOM` has an argument, and
names a possible room only as an exact command.  A member of a room: the text is
not `ROOM_PEER_LIST`, and when it begins with `ROOM_PEER_MSG` it has two
arguments, and names a peer of the room only as an exact command.
-/
def Tolerated (srv : WebRTCSimpleServer) (roomId : Option RoomId) : Option Text → Text → Prop
  | none, msg =>
      ("SESSION".toList <+: msg → ∃ word callee, splitMax 1 msg = [word, callee] ∧
        ∀ peer, srv.peers callee = some peer →
          word = "SESSION".toList ∧ Word callee ∧ peer.status = none) ∧
      ("ROOM".toList <+: msg → ∃ word room, splitMax 1 msg = [word, room] ∧
        (Word room → room ≠ inSession → word = "ROOM".toList))
  | some _, msg =>
      msg ≠ "ROOM_PEER_LIST".toList ∧
      ("ROOM_PEER_MSG".toList <+: msg → ∃ word other payload,
        splitMax 2 msg = [word, other, payload] ∧
        ∀ partner, srv.peers other = some partner → ∃ room, roomId = some room ∧
          (word = "ROOM_PEER_MSG".toList ∨ partner.status ≠ some room))

/-! ## The handler on each kind of text -/

section Texts

variable {srv : WebRTCSimpleServer} {ws k : ConnId} {uid : Uid} {roomId : Option RoomId}
  {status : Option Text} {order : List Uid} {msg : Text}

theorem word_session : Word "SESSION".toList := by decide
theorem word_room : Word "ROOM".toList := by decide
theorem word_roomPeerMsg : Word "ROOM_PEER_MSG".toList := by decide

theorem handler_idle (registered : srv.peers uid = some ⟨k, none⟩) :
    connectionHandler srv ws uid roomId order msg =
      if startsWith msg "SESSION".toList then some (requestSession srv ws roomId none msg)
      else if startsWith msg "ROOM".toList then requestRoom srv ws uid order msg
      else some (.recv srv roomId) := by
  simp only [connectionHandler, registered]

theorem handler_room {room : RoomId} (registered : srv.peers uid = some ⟨k, status⟩)
    (member : IsRoom status room) :
    connectionHandler srv ws uid roomId order msg = some (roomCommand srv ws uid roomId msg) := by
  obtain ⟨rfl, nonempty, notSession⟩ := member
  simp only [connectionHandler, registered, if_neg notSession, if_pos nonempty]

/-- A text begins with one of the two commands of an idle peer at most. -/
theorem not_room_of_session (starts : "SESSION".toList <+: msg) : ¬ "ROOM".toList <+: msg := by
  obtain ⟨rest, rfl⟩ := starts
  exact not_prefix_append (by decide) (by decide)

/-- The handler refuses the text with an error or passes it over. -/
def Refuses (srv : WebRTCSimpleServer) (ws : ConnId) (uid : Uid) (roomId : Option RoomId)
    (msg : Text) : Prop :=
  (∃ roomId' reply, reply.IsError ∧ ∀ order, connectionHandler srv ws uid roomId order msg =
    some (.send srv roomId' ws reply .sent)) ∨
  ∀ order, connectionHandler srv ws uid roomId order msg = some (.recv srv roomId)

theorem refuses_idle (registered : srv.peers uid = some ⟨k, none⟩)
    (tolerated : Tolerated srv roomId none msg) (other : ¬ Joins srv msg) :
    Refuses srv ws uid roomId msg := by
  obtain ⟨sessions, rooms⟩ := tolerated
  by_cases session : "SESSION".toList <+: msg
  · obtain ⟨word, callee, fields, named⟩ := sessions session
    have absent : srv.peers callee = none := by
      cases found : srv.peers callee with
      | none => rfl
      | some peer =>
          obtain ⟨rfl, valid, idle⟩ := named peer found
          obtain ⟨wsc, status⟩ := peer
          cases idle
          exact absurd (.session ((isCommand_iff word_session).mpr ⟨session, fields, valid⟩) found)
            other
    refine Or.inl ⟨roomId, .notFound callee, True.intro, fun order => ?_⟩
    rw [handler_idle registered, if_pos (startsWith_iff.mpr session)]
    simp [requestSession, fields, absent]
  · by_cases room : "ROOM".toList <+: msg
    · obtain ⟨word, name, fields, named⟩ := rooms room
      have invalid : name = inSession ∨ split name ≠ [name] := by
        by_contra accepted
        simp only [not_or, not_not] at accepted
        have valid := split_eq_singleton_iff.mp accepted.2
        obtain rfl := named valid accepted.1
        exact other (.room ((isCommand_iff word_room).mpr ⟨room, fields, valid⟩) accepted.1)
      refine Or.inl ⟨some name, .invalidRoom name, True.intro, fun order => ?_⟩
      rw [handler_idle registered, if_neg (mt startsWith_iff.mp session),
        if_pos (startsWith_iff.mpr room)]
      simp only [requestRoom, fields, if_pos invalid]
    · refine Or.inr fun order => ?_
      rw [handler_idle registered, if_neg (mt startsWith_iff.mp session),
        if_neg (mt startsWith_iff.mp room)]

/-- A member's text is refused, or it is a message that is relayed. -/
theorem answers_room {room : RoomId} (registered : srv.peers uid = some ⟨k, status⟩)
    (member : IsRoom status room) (tolerated : Tolerated srv roomId status msg) :
    Refuses srv ws uid roomId msg ∨
      (Meant srv status msg ∧ ∃ target reply, ∀ order,
        connectionHandler srv ws uid roomId order msg =
          some (.send srv roomId target reply .sent)) := by
  have status_eq := member.1
  subst status_eq
  obtain ⟨notList, messages⟩ := tolerated
  by_cases message : "ROOM_PEER_MSG".toList <+: msg
  · obtain ⟨word, other, payload, fields, named⟩ := messages message
    have handler : ∀ order, connectionHandler srv ws uid roomId order msg =
        some (roomPeerMsg srv ws uid roomId msg) := by
      intro order
      rw [handler_room registered member, roomCommand, if_pos (startsWith_iff.mpr message)]
    cases found : srv.peers other with
    | none =>
        refine Or.inl (Or.inl ⟨roomId, .notFound other, True.intro, fun order => ?_⟩)
        rw [handler]
        simp only [roomPeerMsg, fields, found]
    | some partner =>
        obtain ⟨current, rfl, exact'⟩ := named partner found
        by_cases elsewhere : partner.status = some current
        · obtain rfl := exact'.resolve_right (not_not.mpr elsewhere)
          refine Or.inr ⟨Or.inr ⟨other, payload,
            (isCommandWith_iff word_roomPeerMsg).mpr ⟨message, fields⟩⟩, partner.ws,
            .peerMsg uid payload, fun order => ?_⟩
          rw [handler]
          simp only [roomPeerMsg, fields, found, elsewhere, ne_eq, not_true, if_false]
        · refine Or.inl (Or.inl ⟨some current, .notInRoom other, True.intro, fun order => ?_⟩)
          rw [handler]
          simp only [roomPeerMsg, fields, found, ne_eq, elsewhere, not_false_eq_true, if_true]
  · refine Or.inl (Or.inl ⟨roomId, .alreadyInRoom, True.intro, fun order => ?_⟩)
    rw [handler_room registered member, roomCommand, if_neg (mt startsWith_iff.mp message),
      if_neg notList]

end Texts

/-! ## The promise is kept -/

namespace Sender

variable {w w' : World} {k : ConnId} {uid : Uid} {roomId : Option RoomId} {status : Option Text}
  {msg : Text}

theorem robust_of_refuses (sender : Sender w k uid roomId status)
    (refuses : Refuses w.server k uid roomId msg) : Robust w k uid status msg := by
  rcases refuses with ⟨roomId', reply, error, answers⟩ | ignores
  · refine ⟨fun w' serving changed => ?_, fun _ => ⟨?_, ?_⟩⟩
    · rcases sender.serving_send answers serving with rfl | ⟨-, rfl⟩
      · exact absurd (World.apply_server _ _ _) changed
      · exact absurd (World.server_replied _ _ _ _ _ _) changed
    · exact ⟨_, (sender.served_send answers).mpr ⟨sender.opened, rfl⟩⟩
    · intro w' served
      obtain ⟨opened, rfl⟩ := (sender.served_send answers).mp served
      exact ⟨World.server_replied _ _ _ _ _ _, ⟨roomId', World.phase_replied _ _ _ _ _ _⟩,
        Or.inr ⟨reply, error, World.log_replied _ _ _ _ _ _ opened⟩⟩
  · refine ⟨fun w' serving changed => ?_, fun _ => ⟨?_, ?_⟩⟩
    · obtain rfl := (sender.serving_pass ignores).mp serving
      exact absurd (World.server_passed _ _ _ _) changed
    · exact ⟨_, (sender.serving_pass ignores).mpr rfl, by rw [World.phase_passed]; rfl⟩
    · intro w' served
      obtain rfl := (sender.serving_pass ignores).mp served.1
      exact ⟨World.server_passed _ _ _ _, ⟨roomId, World.phase_passed _ _ _ _⟩,
        Or.inl (World.log_passed _ _ _ _)⟩

theorem robust_of_tolerated (sender : Sender w k uid roomId status)
    (tolerated : Tolerated w.server roomId status msg) : Robust w k uid status msg := by
  rcases sender.outside with rfl | ⟨room, member⟩
  · by_cases joins : Joins w.server msg
    · exact ⟨fun _ _ _ => ⟨rfl, joins⟩, fun other => absurd joins other⟩
    · exact sender.robust_of_refuses (refuses_idle sender.registered tolerated joins)
  · rcases answers_room sender.registered member tolerated with
      refuses | ⟨meant, target, reply, answers⟩
    · exact sender.robust_of_refuses refuses
    · refine ⟨fun w' serving changed => ?_, fun other => absurd meant other⟩
      rcases sender.serving_send answers serving with rfl | ⟨-, rfl⟩
      · exact absurd (World.apply_server _ _ _) changed
      · exact absurd (World.server_replied _ _ _ _ _ _) changed

/-! ## The texts that break it -/

theorem unlinked (sender : Sender w k uid roomId status) : w.server.sessions uid = none := by
  have idle : status ≠ some inSession := by
    rcases sender.outside with rfl | ⟨room, rfl, -, notSession⟩
    · exact Option.some_ne_none _ |>.symm
    · exact fun same => notSession (Option.some.inj same)
  cases linked : w.server.sessions uid with
  | none => rfl
  | some other =>
      exact absurd ((sender.sessions.status uid _ sender.registered).mpr ⟨other, linked⟩) idle

/-- An exception takes the sender out of the tables. -/
theorem removal_changes (sender : Sender w k uid roomId status) {t : Turn}
    (removed : EntryRemoved w.server uid t) : t.server ≠ w.server := by
  intro same
  have listed : ∀ {room}, IsRoom status room → uid ∈ w.server.members room := fun member =>
    (sender.rooms.member_iff _ uid member.2.2).mpr ⟨_, sender.registered, member.1⟩
  cases removed with
  | absent unregistered => cases unregistered.symm.trans sender.registered
  | plain registered outside =>
      have gone := deletePeer_gone w.server uid
      cases (congrArg (fun srv => srv.peers uid) same).symm.trans (gone _) |>.symm.trans
        sender.registered
  | noRoom registered member missing =>
      cases registered.symm.trans sender.registered
      have inside := listed member
      rw [members, missing] at inside
      exact absurd inside (Finset.notMem_empty _)
  | notListed registered member found unlisted =>
      cases registered.symm.trans sender.registered
      exact unlisted (members_of_rooms found ▸ listed member)
  | leaves registered member found inside announced =>
      cases registered.symm.trans sender.registered
      have left := announced.shrinks.members _ uid (same ▸ listed member)
      rw [members_writeRoom, Function.update_self, PySet.elems_remove] at left
      exact absurd left (Finset.notMem_erase _ _)

theorem changes_of_raise (sender : Sender w k uid roomId status) {exn : Exn}
    (raises : ∀ order, connectionHandler w.server k uid roomId order msg =
      some (.raise w.server exn)) : ∃ w', Serving w k msg w' ∧ w'.server ≠ w.server := by
  obtain ⟨pick, t, removes⟩ := exists_removeEntry w.server uid
  have removal : removePeer w.server uid pick = some t := by
    simp only [removePeer, cleanupSession, sender.unlinked]
    exact removes
  have fires : w.step (.recv k msg [] pick) = some (w.apply k t) := by
    rw [sender.step_eq, raises, Option.bind_some, Body.turn, removal]
    rfl
  refine ⟨_, .takes fires, ?_⟩
  rw [World.apply_server]
  exact sender.removal_changes (removeEntry_removed removes)

/-- A text that is answered by a send to the sender, after which the handler goes on. -/
theorem sends_own (sender : Sender w k uid roomId status) {srv : WebRTCSimpleServer}
    {roomId' : Option RoomId} {order : List Uid} {reply : Reply} {next : LoopPoint}
    (inSend : (Phase.running uid roomId' next).inSend = true)
    (answers : connectionHandler w.server k uid roomId order msg =
      some (.send srv roomId' k reply next)) :
    ∃ v, Serving w k msg v ∧ v.server = srv ∧ v.phase k = .running uid roomId' next ∧
      v.canReturn k = true := by
  refine ⟨w.apply k (.send srv k reply (.running uid roomId' next)), ?_, World.apply_server _ _ _,
    World.apply_phase_self _ _ _, ?_⟩
  · have fires : w.step (.recv k msg order none) =
        some (w.apply k (.send srv k reply (.running uid roomId' next))) := by
      rw [sender.step_eq, answers]
      rfl
    exact .takes fires
  · rw [World.canReturn, World.apply_phase_self, World.apply_send_usable]
    simp only [Turn.phase, inSend, Bool.true_and, bne_iff_ne, ne_eq, sender.opened,
      not_false_eq_true, Bool.or_eq_true, or_true]

theorem changes_of_session (sender : Sender w k uid roomId status) {callee : Uid} {peer : Peer}
    (found : w.server.peers callee = some peer)
    (answers : connectionHandler w.server k uid roomId [] msg =
      some (.send w.server roomId k .sessionOk (.sessionOk callee))) :
    ∃ w', Serving w k msg w' ∧ w'.server ≠ w.server := by
  obtain ⟨v, serving, server, waiting, returns⟩ := sender.sends_own rfl answers
  rcases establishSession_cases w.server uid callee roomId with
    ⟨srv, linked, result⟩ | ⟨missing, -⟩
  · have fires : v.step (.resume k false none) =
        some (v.apply k (.recv srv (.running uid roomId .recv))) := by
      simp only [World.step, World.turn, returns, waiting, server, result, Body.turn, if_true,
        Option.map_some, Act.conn]
    refine ⟨_, .goesOn serving fires, ?_⟩
    rw [World.apply_server]
    intro same
    have entry := Sessions.registered_sessions linked uid
    have alone := congrArg (fun srv => srv.sessions uid) same
    simp only [Turn.server, entry, sender.unlinked] at alone
    split at alone
    · cases alone
    · cases alone
  · rcases missing with absent | absent
    · cases absent.symm.trans sender.registered
    · cases absent.symm.trans found

/-- The loop that announces a member can always begin. -/
theorem exists_establishRoom {srv : WebRTCSimpleServer} {room : RoomId} {set : PySet Uid}
    {peer : Peer} (registered : srv.peers uid = some peer) (found : srv.rooms room = some set) :
    ∃ pick body, establishRoom srv uid roomId room pick = some body := by
  obtain ⟨pick, result, asked, fresh⟩ :=
    ((set.add uid).iter {uid}).exists_next (set.add uid)
  have other : pick ≠ some uid := fresh uid (Finset.mem_singleton_self uid)
  refine ⟨pick, ?_⟩
  simp only [establishRoom, enterRoom, setStatus, registered, rooms_writePeer, found]
  rw [announceJoined]
  simp only [rooms_writeRoom, Function.update_self, if_neg other, asked, Option.map_some]
  exact ⟨_, rfl⟩

theorem changes_of_room (sender : Sender w k uid roomId none) {srv : WebRTCSimpleServer}
    {room : RoomId} {set : PySet Uid} {order : List Uid} (peers : srv.peers = w.server.peers)
    (found : srv.rooms room = some set)
    (members : ∀ pid ∈ srv.members room, ∃ peer, srv.peers pid = some peer)
    (answers : connectionHandler w.server k uid roomId order msg =
      some (.send srv (some room) k (.roomOk room order) (.roomOk room))) :
    ∃ w', Serving w k msg w' ∧ w'.server ≠ w.server := by
  obtain ⟨v, serving, rfl, waiting, returns⟩ := sender.sends_own rfl answers
  have registered : v.server.peers uid = some ⟨k, none⟩ := peers ▸ sender.registered
  obtain ⟨pick, body, enters⟩ :
      ∃ pick body, establishRoom v.server uid (some room) room pick = some body :=
    exists_establishRoom registered found
  have entered := establishRoom_entered enters
  have changed : body.server ≠ w.server := by
    intro same
    have entry := (congrArg (fun srv => srv.peers uid) same).trans sender.registered
    cases entered with
    | unregistered absent => cases absent.symm.trans registered
    | noRoom _ missing => cases missing.symm.trans found
    | entered registered' found' announced =>
        rw [announced.server_eq] at entry
        simp at entry
  have fires : ∀ t, body.turn uid pick = some t →
      v.step (.resume k false pick) = some (v.apply k t) := by
    intro t turns
    simp only [World.step, World.turn, returns, waiting, enters, if_true, Option.bind_some, turns,
      Option.map_some, Act.conn]
  cases body with
  | recv srv roomId' =>
      refine ⟨_, .goesOn serving (fires _ rfl), ?_⟩
      rw [World.apply_server]
      exact changed
  | send srv roomId' target reply next =>
      refine ⟨_, .goesOn serving (fires _ rfl), ?_⟩
      rw [World.apply_server]
      exact changed
  | raise srv exn => cases (entered.of_raise found members).1.symm.trans registered

theorem session_tolerated (sender : Sender w k uid roomId none)
    (keeps : ∀ w', Serving w k msg w' → w'.server ≠ w.server → Joins w.server msg)
    (starts : "SESSION".toList <+: msg) : ∃ word callee, splitMax 1 msg = [word, callee] ∧
      ∀ peer, w.server.peers callee = some peer →
        word = "SESSION".toList ∧ Word callee ∧ peer.status = none := by
  have command : ∀ w', Serving w k msg w' → w'.server ≠ w.server → ∃ callee ws,
      splitMax 1 msg = ["SESSION".toList, callee] ∧ Word callee ∧
        w.server.peers callee = some ⟨ws, none⟩ := by
    intro w' serving changed
    cases keeps w' serving changed with
    | session command available =>
        obtain ⟨-, fields, word⟩ := (isCommand_iff word_session).mp command
        exact ⟨_, _, fields, word, available⟩
    | room command valid =>
        exact absurd ((isCommand_iff word_room).mp command).1 (not_room_of_session starts)
  have handler : ∀ order, connectionHandler w.server k uid roomId order msg =
      some (requestSession w.server k roomId none msg) := by
    intro order
    rw [handler_idle sender.registered, if_pos (startsWith_iff.mpr starts)]
  by_cases named : ∃ word callee, splitMax 1 msg = [word, callee]
  · obtain ⟨word, callee, fields⟩ := named
    refine ⟨word, callee, fields, fun peer found => ?_⟩
    have answers : requestSession w.server k roomId none msg =
        .send w.server roomId k .sessionOk (.sessionOk callee) := by
      simp [requestSession, fields, found]
    obtain ⟨w', serving, changed⟩ :=
      sender.changes_of_session found ((handler []).trans (congrArg some answers))
    obtain ⟨callee', ws, fields', valid, available⟩ := command w' serving changed
    cases fields.symm.trans fields'
    cases found.symm.trans available
    exact ⟨rfl, valid, rfl⟩
  · have raises : requestSession w.server k roomId none msg = .raise w.server .valueError := by
      unfold requestSession
      split
      · next fields => exact absurd ⟨_, _, fields⟩ named
      · rfl
    obtain ⟨w', serving, changed⟩ :=
      sender.changes_of_raise fun order => (handler order).trans (congrArg some raises)
    obtain ⟨callee, ws, fields, -⟩ := command w' serving changed
    exact absurd ⟨_, _, fields⟩ named

/-- An idle peer that names a possible room is let in. -/
theorem changes_of_roomCommand (sender : Sender w k uid roomId none) {word room : Text}
    (starts : "ROOM".toList <+: msg) (fields : splitMax 1 msg = [word, room]) (valid : Word room)
    (notSession : room ≠ inSession) : ∃ w', Serving w k msg w' ∧ w'.server ≠ w.server := by
  have handler : ∀ order, connectionHandler w.server k uid roomId order msg =
      requestRoom w.server k uid order msg := by
    intro order
    have notSessionCommand : ¬ "SESSION".toList <+: msg := fun p => not_room_of_session p starts
    rw [handler_idle sender.registered, if_neg (mt startsWith_iff.mp notSessionCommand),
      if_pos (startsWith_iff.mpr starts)]
  have accepted : ¬ (room = inSession ∨ split room ≠ [room]) := by
    rw [not_or, not_not]
    exact ⟨notSession, split_eq_singleton_iff.mpr valid⟩
  have registered : ∀ pid ∈ w.server.members room, ∃ peer, w.server.peers pid = some peer := by
    intro pid inside
    obtain ⟨peer, found, -⟩ := (sender.rooms.member_iff room pid notSession).mp inside
    exact ⟨peer, found⟩
  cases found : w.server.rooms room with
  | none =>
      have answers : connectionHandler w.server k uid roomId [] msg =
          some (.send (w.server.writeRoom room .empty) (some room) k (.roomOk room [])
            (.roomOk room)) := by
        rw [handler, requestRoom, fields]
        simp only [if_neg accepted, found, sendRoomOk]
        exact if_pos ⟨List.nodup_nil, rfl⟩
      have peers : (w.server.writeRoom room .empty).peers = w.server.peers := rfl
      have created : (w.server.writeRoom room .empty).rooms room = some .empty := by simp
      refine sender.changes_of_room peers created ?_ answers
      rw [members_newRoom found]
      exact registered
  | some set =>
      have outside : uid ∉ set.elems := by
        rw [← members_of_rooms found, sender.rooms.member_iff room uid notSession]
        rintro ⟨peer, entry, status⟩
        cases entry.symm.trans sender.registered
        cases status
      have answers : connectionHandler w.server k uid roomId set.elems.toList msg =
          some (.send w.server (some room) k (.roomOk room set.elems.toList) (.roomOk room)) := by
        rw [handler, requestRoom, fields]
        simp only [if_neg accepted, found, if_neg outside, sendRoomOk]
        exact if_pos ⟨Finset.nodup_toList _, Finset.toList_toFinset _⟩
      exact sender.changes_of_room rfl found registered answers

theorem room_tolerated (sender : Sender w k uid roomId none)
    (keeps : ∀ w', Serving w k msg w' → w'.server ≠ w.server → Joins w.server msg)
    (starts : "ROOM".toList <+: msg) : ∃ word room, splitMax 1 msg = [word, room] ∧
      (Word room → room ≠ inSession → word = "ROOM".toList) := by
  have command : ∀ w', Serving w k msg w' → w'.server ≠ w.server → ∃ room,
      splitMax 1 msg = ["ROOM".toList, room] := by
    intro w' serving changed
    cases keeps w' serving changed with
    | session command available =>
        exact absurd starts (not_room_of_session ((isCommand_iff word_session).mp command).1)
    | room command valid => exact ⟨_, ((isCommand_iff word_room).mp command).2.1⟩
  by_cases named : ∃ word room, splitMax 1 msg = [word, room]
  · obtain ⟨word, room, fields⟩ := named
    refine ⟨word, room, fields, fun valid notSession => ?_⟩
    obtain ⟨w', serving, changed⟩ := sender.changes_of_roomCommand starts fields valid notSession
    obtain ⟨room', fields'⟩ := command w' serving changed
    cases fields.symm.trans fields'
    rfl
  · have raises : ∀ order, connectionHandler w.server k uid roomId order msg =
        some (.raise w.server .valueError) := by
      intro order
      have notSession : ¬ "SESSION".toList <+: msg := fun p => not_room_of_session p starts
      rw [handler_idle sender.registered, if_neg (mt startsWith_iff.mp notSession),
        if_pos (startsWith_iff.mpr starts)]
      unfold requestRoom
      split
      · next fields => exact absurd ⟨_, _, fields⟩ named
      · rfl
    obtain ⟨w', serving, changed⟩ := sender.changes_of_raise raises
    obtain ⟨room, fields⟩ := command w' serving changed
    exact absurd ⟨_, _, fields⟩ named

theorem member_tolerated (sender : Sender w k uid roomId status) {room : RoomId}
    (member : IsRoom status room) (robust : Robust w k uid status msg) :
    Tolerated w.server roomId status msg := by
  obtain rfl := member.1
  have handler : ∀ order, connectionHandler w.server k uid roomId order msg =
      some (roomCommand w.server k uid roomId msg) :=
    fun order => handler_room sender.registered member
  have quiet : ∀ exn, roomCommand w.server k uid roomId msg ≠ .raise w.server exn := by
    intro exn raises
    obtain ⟨w', serving, changed⟩ :=
      sender.changes_of_raise fun order => (handler order).trans (congrArg some raises)
    cases (robust.tables w' serving changed).1
  refine ⟨?_, fun starts => ?_⟩
  · rintro rfl
    exact quiet .nameError rfl
  · rw [roomCommand, if_pos (startsWith_iff.mpr starts)] at quiet
    by_cases named : ∃ word other payload, splitMax 2 msg = [word, other, payload]
    · obtain ⟨word, other, payload, fields⟩ := named
      refine ⟨word, other, payload, fields, fun partner found => ?_⟩
      cases roomId with
      | none =>
          refine absurd ?_ (quiet .nameError)
          simp only [roomPeerMsg, fields, found]
      | some current =>
          refine ⟨current, rfl, ?_⟩
          by_contra neither
          obtain ⟨notExact, elsewhere⟩ := not_or.mp neither
          have sameRoom : partner.status = some current := not_not.mp elsewhere
          have answers : ∀ order, connectionHandler w.server k uid (some current) order msg =
              some (.send w.server (some current) partner.ws (.peerMsg uid payload) .sent) := by
            intro order
            rw [handler, roomCommand, if_pos (startsWith_iff.mpr starts)]
            simp only [roomPeerMsg, fields, found, sameRoom, ne_eq, not_true, if_false]
          have meaningless : ¬ Meant w.server (some room) msg := by
            rintro (rfl | ⟨other', payload', command⟩)
            · exact absurd starts (by decide)
            · have fields' := ((isCommandWith_iff word_roomPeerMsg).mp command).2
              cases fields.symm.trans fields'
              exact notExact rfl
          obtain ⟨⟨w', served⟩, refused⟩ := robust.goesOn meaningless
          obtain ⟨opened, rfl⟩ := (sender.served_send answers).mp served
          obtain ⟨-, -, log⟩ := refused _ served
          rw [World.log_replied _ _ _ _ _ _ opened] at log
          rcases log with same | ⟨reply, error, same⟩
          · simp at same
          · cases List.append_cancel_left same
            exact error
    · refine absurd ?_ (quiet .valueError)
      unfold roomPeerMsg
      split
      · next fields => exact absurd ⟨_, _, _, fields⟩ named
      · rfl

end Sender

/--
A text is handled as the protocol promises exactly when it is no command with a
missing argument, begins with a command's name only as that command, calls
nobody who is busy, and does not ask for the list of a room.
-/
theorem robust_iff {w : World} {k : ConnId} {uid : Uid} {roomId : Option RoomId}
    {status : Option Text} {msg : Text} (sender : Sender w k uid roomId status) :
    Robust w k uid status msg ↔ Tolerated w.server roomId status msg := by
  refine ⟨fun robust => ?_, sender.robust_of_tolerated⟩
  rcases sender.outside with rfl | ⟨room, member⟩
  · have keeps := fun w' serving changed => (robust.tables w' serving changed).2
    exact ⟨sender.session_tolerated keeps, sender.room_tolerated keeps⟩
  · exact sender.member_tolerated member robust

/-- Two clients that have registered and done nothing else. -/
theorem exists_sender :
    ∃ w, Sender w 0 "x".toList none none ∧ w.server.peers "y".toList = some ⟨1, none⟩ := by
  obtain ⟨w, run, absent, test⟩ := exists_sequential 2
    (fun w act => calleeFree w act && calleeOutside w act) (greeting 0 "x" ++ greeting 1 "y")
    (fun w => quietBelow 2 w && w.server.peers "x".toList = some ⟨0, none⟩ &&
      w.server.peers "y".toList = some ⟨1, none⟩ &&
      w.socket 0 = .open && (w.phase 0).reading? = some ("x".toList, none)) (by decide)
  simp only [Bool.and_eq_true, decide_eq_true_eq] at test
  obtain ⟨⟨⟨⟨idle, registered⟩, other⟩, opened⟩, reads⟩ := test
  have waiting : w.phase 0 = .running "x".toList none .recv := Phase.reading?_eq_some reads
  have quiet := absent.quiet idle
  have sessions := (SessionInv.of_reachable (run.mono fun _ _ allowed =>
    ⟨allowed.1, (Bool.and_eq_true_iff.mp allowed.2).1⟩)).sessionTables quiet
  have rooms := (RoomInv.of_reachable (run.mono fun _ _ allowed =>
    ⟨allowed.1, (Bool.and_eq_true_iff.mp allowed.2).2⟩)).roomTables quiet
  exact ⟨w, ⟨⟨waiting, registered⟩, sessions, rooms, Or.inl rfl, by rw [opened]; rintro ⟨⟩⟩, other⟩

/-- A call of an idle peer, and a room that may be entered. -/
theorem robust_iff_joins :
    ∃ w, Joins w.server "SESSION y".toList ∧ Robust w 0 "x".toList none "SESSION y".toList ∧
      Robust w 0 "x".toList none "ROOM r".toList := by
  obtain ⟨w, sender, idle⟩ := exists_sender
  have callee : Word "y".toList := by decide
  have calls : Tolerated w.server none none "SESSION y".toList := by
    refine ⟨fun _ => ⟨_, "y".toList, rfl, fun peer found => ⟨rfl, callee, ?_⟩⟩,
      fun starts => absurd starts (by decide)⟩
    cases idle.symm.trans found
    rfl
  have enters : Tolerated w.server none none "ROOM r".toList :=
    ⟨fun starts => absurd starts (by decide), fun _ => ⟨_, "r".toList, rfl, fun _ _ => rfl⟩⟩
  have command : IsCommand "SESSION".toList "y".toList "SESSION y".toList :=
    (isCommand_iff word_session).mpr ⟨by decide, rfl, callee⟩
  exact ⟨w, .session command idle, (robust_iff sender).mpr calls,
    (robust_iff sender).mpr enters⟩

/-- A command without its argument raises, and its sender is disconnected. -/
theorem bare_command_raises :
    ¬ ∀ w k uid roomId status msg, Sender w k uid roomId status → Robust w k uid status msg := by
  intro robust
  obtain ⟨w, sender, -⟩ := exists_sender
  have kept := robust w 0 _ none none "SESSION".toList sender
  obtain ⟨word, callee, fields, -⟩ := sender.session_tolerated
    (fun w' serving changed => (kept.tables w' serving changed).2) (List.prefix_refl _)
  rw [splitMax_word 1 word_session] at fields
  cases (List.cons.inj fields).2

end GstWebrtc.Signalling
