import GstWebrtc.Signalling.Commands

/-!
# The delivery of room messages

`ROOM_PEER_MSG` compares the addressee's status with the local variable
`room_id`, which every `ROOM` command assigns, a rejected one as well.  The
handler of a registered connection that is open is the only one that gives the
entry of its uid a room, so the variable is the status whenever that is a room.
-/

namespace GstWebrtc.Signalling

open GstWebrtc.Base GstWebrtc.Base.PyText WebRTCSimpleServer

/-! ## Whoever deletes an entry closes the socket in it -/

section Entries

variable {w : World} {act : Act} {t : Turn} {u : Uid} {peer : Peer}
  {srv : WebRTCSimpleServer} {uid : Uid} {k : ConnId}

theorem deletePeer_closes_entry {ws : ConnId} (was : srv.peers u = some peer)
    (gone : (deletePeer srv uid ws).server.peers u = none) :
    (deletePeer srv uid ws).closes k = some ws := by
  unfold deletePeer at gone ⊢
  split
  · next absent =>
      simp only [absent] at gone
      cases was.symm.trans gone
  · rfl

theorem LeftAnnounced.closes_entry {ws : ConnId} {room : RoomId} {it : Iter Uid}
    (announced : LeftAnnounced srv uid ws room it t) (was : srv.peers u = some peer)
    (gone : t.server.peers u = none) : t.closes k = some ws := by
  cases announced with
  | finished found same all => exact deletePeer_closes_entry was gone
  | _ => cases was.symm.trans gone

theorem EntryRemoved.closes_entry (removed : EntryRemoved srv uid t)
    (was : srv.peers u = some peer) (gone : t.server.peers u = none) :
    t.closes k = some peer.ws := by
  obtain rfl := removed.deletes was gone
  cases removed with
  | absent unregistered => cases was.symm.trans unregistered
  | plain registered outside =>
      cases was.symm.trans registered
      exact deletePeer_closes_entry was gone
  | noRoom registered member missing => cases was.symm.trans gone
  | notListed registered member found unlisted =>
      cases was.symm.trans registered
      exact deletePeer_closes_entry was gone
  | leaves registered member found listed announced =>
      cases was.symm.trans registered
      exact announced.closes_entry was gone

theorem Removed.closes_entry (removed : Removed srv uid t) (was : srv.peers u = some peer)
    (gone : t.server.peers u = none) : t.closes k = some peer.ws := by
  cases removed with
  | partner cleaned =>
      cases cleaned with
      | @partner other back _ linked different linkedBack registered =>
          by_cases same : u = other
          · subst same
            cases was.symm.trans registered
            rfl
          · rw [Turn.server, peers_writePeer, Function.update_of_ne same] at gone
            cases was.symm.trans gone
  | entry cleaned removed =>
      refine removed.closes_entry ?_ gone
      cases cleaned with
      | _ => exact was

/-- A handler runs on, or begins to run when it registers its uid. -/
theorem Fires.running_cases (fires : Fires w act t) {roomId : Option RoomId} {point : LoopPoint}
    (running : t.phase = .running u roomId point) :
    (∃ roomId point, w.phase act.conn = .running u roomId point) ∨
      t = .recv (w.server.register act.conn u) (.running u none .recv) := by
  cases fires with
  | registered mayReturn waiting =>
      cases running
      exact Or.inr rfl
  | timeout waiting =>
      cases running
      exact Or.inl ⟨_, _, waiting⟩
  | loops runs =>
      cases running
      exact Or.inl ⟨_, runs.running⟩
  | sends runs =>
      cases running
      exact Or.inl ⟨_, runs.running⟩
  | leaves runs removed => exact absurd running removed.departing.not_running
  | partnerClosed mayReturn waiting removed => exact absurd running removed.departing.not_running
  | leftSent mayReturn waiting announced => exact absurd running announced.departing.not_running
  | _ => cases running

theorem Fires.closes_entry (fires : Fires w act t) (was : w.server.peers u = some peer)
    (gone : t.server.peers u = none)
    (left : ∀ ws room it, w.phase act.conn = .leaving u (.left ws room it) → peer.ws = ws) :
    t.closes act.conn = some peer.ws := by
  have kept : w.server.peers u ≠ none := by simp [was]
  cases fires with
  | @registered k pick uid mayReturn waiting =>
      by_cases same : u = uid
      · simp [Turn.server, register, same] at gone
      · simp [Turn.server, register, same, was] at gone
  | loops runs => exact absurd (runs.sameEntries.registered.mp gone) kept
  | sends runs => exact absurd (runs.sameEntries.registered.mp gone) kept
  | @leaves act uid roomId srv exn t runs removed =>
      have same := runs.sameEntries u
      rw [was, Option.map_some] at same
      obtain ⟨old, before, sameWs⟩ := Option.map_eq_some_iff.mp same
      rw [← sameWs]
      exact removed.closes_entry before gone
  | partnerClosed mayReturn waiting removed => exact removed.closes_entry was gone
  | leftSent mayReturn waiting announced =>
      obtain rfl := announced.deletes was gone
      rw [left _ _ _ waiting]
      exact announced.closes_entry was gone
  | _ => exact absurd gone kept

end Entries

/-! ## The local variable -/

/-- What the handler of a connection knows while it is in the middle of something. -/
def World.Knows (w : World) (k : ConnId) : Phase → Prop
  | .ack u => w.server.peers u = none
  | .running _ roomId (.roomOk room) =>
      roomId = some room ∧ ((w.conns k).usable = true → w.socket k ≠ .closed)
  | .leaving u (.left ws _ _) => ∀ peer, w.server.peers u = some peer → peer.ws = ws
  | _ => True

/-- The local `room_id` of a registered connection is its status. -/
structure LocalRoom (w : World) : Prop where
  serial : w.Serial
  /-- A handler whose connection is open has its entry. -/
  present : ∀ k u roomId point, w.phase k = .running u roomId point → w.socket k ≠ .closed →
    ∃ peer, w.server.peers u = some peer ∧ peer.ws = k
  status : ∀ k u roomId point peer room, w.phase k = .running u roomId point →
    w.server.peers u = some peer → peer.ws = k → peer.status = some room → room ≠ inSession →
    roomId = some room
  knows : ∀ k, w.Knows k (w.phase k)

theorem World.knows_of_idle {w : World} {k : ConnId} {phase : Phase} (h : phase.idle = true) :
    w.Knows k phase := by
  cases phase with
  | running u roomId point =>
      cases point with
      | recv => trivial
      | _ => cases h
  | leaving u point => cases h
  | ack u => cases h
  | _ => trivial

namespace LocalRoom

variable {w w' : World} {act : Act} {t : Turn} {k : ConnId} {u : Uid} {peer : Peer}
  {room : RoomId}

theorem init : LocalRoom World.empty :=
  ⟨World.serial_empty, by rintro k u roomId point ⟨⟩, by rintro k u roomId point peer room ⟨⟩,
    fun _ => trivial⟩

/-- Only the handler of the connection in an entry gives that entry a room. -/
theorem status_kept (inv : LocalRoom w) (fires : Fires w act t) (other : peer.ws ≠ act.conn)
    (found : t.server.peers u = some peer) (status : peer.status = some room)
    (notSession : room ≠ inSession) : w.server.peers u = some peer := by
  cases fires.entry found with
  | kept was => exact was
  | registered waiting => exact absurd rfl other
  | linked resumed waiting either was => exact absurd (Option.some.inj status).symm notSession
  | entered waiting was mayReturn =>
      have knows := inv.knows act.conn
      rw [waiting] at knows
      have usable : (w.conns act.conn).usable = true := by
        simpa [World.canReturn, waiting, Phase.inSend, Phase.inClose] using mayReturn
      obtain ⟨own, found', sameWs⟩ := inv.present _ _ _ _ waiting (knows.2 usable)
      cases was.symm.trans found'
      exact absurd sameWs other

/-- An open connection of an idle handler keeps its entry. -/
theorem entry_kept (inv : LocalRoom w) (fires : Fires w act t)
    (was : w.server.peers u = some peer) (stays : t.closes act.conn ≠ some peer.ws) :
    ∃ peer', t.server.peers u = some peer' ∧ peer'.ws = peer.ws := by
  have left : ∀ ws room it, w.phase act.conn = .leaving u (.left ws room it) → peer.ws = ws := by
    intro ws room it leaving
    have knows := inv.knows act.conn
    rw [leaving] at knows
    exact knows peer was
  cases found : t.server.peers u with
  | none => exact absurd (fires.closes_entry was found left) stays
  | some peer' =>
      refine ⟨peer', rfl, ?_⟩
      rcases fires.sameSockets with same | ⟨j, pick, v, rfl, waiting, rfl⟩
      · obtain ⟨old, was', sameWs⟩ := same u peer' found
        cases was.symm.trans was'
        exact sameWs.symm
      · have knows := inv.knows j
        rw [waiting] at knows
        have other : u ≠ v := by
          rintro rfl
          cases was.symm.trans knows
        rw [Turn.server, register, peers_writePeer, Function.update_of_ne other, was] at found
        cases found
        rfl

/-- After a stretch that keeps the variable it is still the status. -/
theorem room_of_status (inv : LocalRoom w) {uid : Uid} {roomId : Option RoomId} {body : Body}
    (runs : Runs w uid roomId act body) {peer : Peer} {room : RoomId}
    (found : body.server.peers uid = some peer) (own : peer.ws = act.conn)
    (status : peer.status = some room) (notSession : room ≠ inSession) : roomId = some room := by
  obtain ⟨point, running⟩ := runs.running
  cases runs.entry found with
  | kept was => exact inv.status _ _ _ _ _ _ running was own status notSession
  | registered waiting => cases status
  | linked resumed waiting either was => exact absurd (Option.some.inj status).symm notSession
  | entered waiting was mayReturn =>
      have knows := inv.knows act.conn
      rw [waiting] at knows
      cases running.symm.trans waiting
      cases status
      exact knows.1

/-- The stretches of the loop after which the handler runs on. -/
theorem runs_status (inv : LocalRoom w) {uid : Uid} {roomId : Option RoomId} {body : Body}
    (runs : Runs w uid roomId act body) : body.Next uid fun srv phase =>
      ∀ roomId' point peer room, phase = .running uid roomId' point →
        srv.peers uid = some peer → peer.ws = act.conn → peer.status = some room →
        room ≠ inSession → roomId' = some room := by
  have same : ∀ {peer : Peer} {room : RoomId}, body.server.peers uid = some peer →
      peer.ws = act.conn → peer.status = some room → room ≠ inSession → roomId = some room :=
    inv.room_of_status runs
  -- a stretch that begins with an idle peer and writes no status
  have idle : ∀ {idler peer : Peer} {room : RoomId}, w.server.peers uid = some idler →
      idler.status = none → w.server.peers uid = some peer → peer.status ≠ some room := by
    intro idler peer room registered idle found status
    cases registered.symm.trans found
    cases idle.symm.trans status
  cases runs with
  | message waiting handled =>
      cases handled with
      | raise reason => trivial
      | ignored registered none' notSession notRoom =>
          rintro _ _ peer room ⟨⟩ found own status
          exact absurd status (idle registered none' found)
      | invalidRoom registered none' command fields invalid =>
          rintro _ _ peer room ⟨⟩ found own status
          exact absurd status (idle registered none' found)
      | newRoom registered none' command fields valid notSession absent lists =>
          rintro _ _ peer room ⟨⟩ found own status
          exact absurd status (idle registered none' found)
      | oldRoom registered none' command fields valid notSession found fresh lists =>
          rintro _ _ peer room ⟨⟩ found own status
          exact absurd status (idle registered none' found)
      | _ =>
          rintro _ _ peer room ⟨⟩
          exact same
  | closed unusable waiting => trivial
  | raised mayRaise waiting => trivial
  | sessionFailed mayReturn waiting missing => trivial
  | continued mayReturn waiting plain =>
      rintro _ _ peer room ⟨⟩
      exact same
  | session mayReturn waiting linked =>
      rintro _ _ peer room ⟨⟩
      exact same
  | room mayReturn waiting entered =>
      cases entered with
      | entered registered found announced =>
          cases announced with
          | finished _ _ all =>
              rintro _ _ peer room ⟨⟩
              exact same
          | notice _ _ member other fresh registered =>
              rintro _ _ peer room ⟨⟩
              exact same
          | _ => trivial
      | _ => trivial
  | joined mayReturn waiting announced =>
      cases announced with
      | finished _ _ all =>
          rintro _ _ peer room ⟨⟩
          exact same
      | notice _ _ member other fresh registered =>
          rintro _ _ peer room ⟨⟩
          exact same
      | _ => trivial

theorem turn_status (inv : LocalRoom w) (fires : Fires w act t) {roomId : Option RoomId}
    {point : LoopPoint} (running : t.phase = .running u roomId point)
    (found : t.server.peers u = some peer) (own : peer.ws = act.conn)
    (status : peer.status = some room) (notSession : room ≠ inSession) : roomId = some room := by
  cases fires with
  | registered mayReturn waiting =>
      cases running
      rw [Turn.server, register, peers_writePeer, Function.update_self] at found
      cases found
      cases status
  | timeout waiting =>
      cases running
      exact inv.status _ _ _ _ _ _ waiting found own status notSession
  | loops runs =>
      cases running
      exact inv.runs_status runs _ _ _ _ rfl found own status notSession
  | sends runs =>
      cases running
      exact inv.runs_status runs _ _ _ _ rfl found own status notSession
  | leaves runs removed => exact absurd running removed.departing.not_running
  | partnerClosed mayReturn waiting removed => exact absurd running removed.departing.not_running
  | leftSent mayReturn waiting announced => exact absurd running announced.departing.not_running
  | _ => cases running

theorem turn_present (inv : LocalRoom w) (fires : Fires w act t) {roomId : Option RoomId}
    {point : LoopPoint} (running : t.phase = .running u roomId point)
    (opened : (w.apply act.conn t).socket act.conn ≠ .closed) :
    ∃ peer, t.server.peers u = some peer ∧ peer.ws = act.conn := by
  have stays : t.closes act.conn ≠ some act.conn ∧ w.socket act.conn ≠ .closed := by
    rw [World.apply_socket] at opened
    split at opened
    · exact absurd rfl opened
    · next stays => exact ⟨stays, opened⟩
  rcases fires.running_cases running with ⟨roomId', point', before⟩ | rfl
  · obtain ⟨peer, was, own⟩ := inv.present _ _ _ _ before stays.2
    obtain ⟨peer', found, same⟩ := inv.entry_kept fires was (own.symm ▸ stays.1)
    exact ⟨peer', found, same.trans own⟩
  · exact ⟨⟨act.conn, none⟩, by simp [Turn.server, register], rfl⟩

theorem turn_knows (inv : LocalRoom w) (fires : Fires w act t) :
    (w.apply act.conn t).Knows act.conn t.phase := by
  have departed : ∀ {uid}, t.phase.Departing uid →
      (w.apply act.conn t).Knows act.conn t.phase := by
    intro uid leaves
    cases phase : t.phase with
    | leaving v point =>
        cases point with
        | left ws room it =>
            intro peer found
            rw [World.apply_server] at found
            obtain ⟨old, was, sameWs⟩ : ∃ old, w.server.peers v = some old ∧ old.ws = peer.ws := by
              rcases fires.sameSockets with same | ⟨j, pick, u, rfl, waiting, rfl⟩
              · exact same v peer found
              · cases phase
            rw [← sameWs]
            rcases fires.leftWs phase with ⟨room', it', before⟩ | ⟨-, registered, was', own⟩
            · have knows := inv.knows act.conn
              rw [before] at knows
              exact knows old was
            · cases was.symm.trans was'
              exact own
        | _ => trivial
    | done uid => trivial
    | _ =>
        rcases leaves with ⟨point, leaving⟩ | done
        · cases phase.symm.trans leaving
        · cases phase.symm.trans done
  cases fires with
  | greeted waiting fields absent word =>
      change (World.apply _ _ _).server.peers _ = none
      rw [World.apply_server]
      exact absent
  | sends runs =>
      cases runs with
      | message waiting handled =>
          have opened : ∀ {reply : Reply} {srv : WebRTCSimpleServer} {phase : Phase} {j : ConnId},
              ((w.apply j (.send srv j reply phase)).conns j).usable = true →
              (w.apply j (.send srv j reply phase)).socket j ≠ .closed := by
            intro reply srv phase j usable
            rw [World.apply_send_usable, bne_iff_ne] at usable
            rw [World.apply_socket]
            simpa [Turn.closes] using usable
          cases handled with
          | newRoom registered idle command fields valid notSession absent lists =>
              exact ⟨rfl, opened⟩
          | oldRoom registered idle command fields valid notSession found fresh lists =>
              exact ⟨rfl, opened⟩
          | _ => trivial
      | room mayReturn waiting entered =>
          cases entered with
          | entered registered found announced => cases announced; trivial
      | joined mayReturn waiting announced => cases announced; trivial
  | leaves runs removed => exact departed removed.departing
  | partnerClosed mayReturn waiting removed => exact departed removed.departing
  | leftSent mayReturn waiting announced => exact departed announced.departing
  | _ => trivial

theorem turn (inv : LocalRoom w) (fires : Fires w act t)
    (others : ∀ j, j ≠ act.conn → (w.phase j).idle = true)
    (serial : (w.apply act.conn t).Serial) : LocalRoom (w.apply act.conn t) := by
  refine ⟨serial, ?_, ?_, ?_⟩
  · intro k u roomId point running opened
    rw [World.apply_server]
    by_cases self : k = act.conn
    · subst self
      rw [World.apply_phase_self] at running
      exact inv.turn_present fires running opened
    · rw [World.apply_phase_of_ne _ _ _ self] at running
      rw [World.apply_socket] at opened
      split at opened
      · exact absurd rfl opened
      · next stays =>
          obtain ⟨peer, was, own⟩ := inv.present k u roomId point running opened
          obtain ⟨peer', found, same⟩ := inv.entry_kept fires was (own.symm ▸ stays)
          exact ⟨peer', found, same.trans own⟩
  · intro k u roomId point peer room running found own status notSession
    rw [World.apply_server] at found
    by_cases self : k = act.conn
    · subst self
      rw [World.apply_phase_self] at running
      exact inv.turn_status fires running found own status notSession
    · rw [World.apply_phase_of_ne _ _ _ self] at running
      have was := inv.status_kept fires (own.symm ▸ self) found status notSession
      exact inv.status k u roomId point peer room running was own status notSession
  · intro k
    by_cases self : k = act.conn
    · subst self
      rw [World.apply_phase_self]
      exact inv.turn_knows fires
    · rw [World.apply_phase_of_ne _ _ _ self]
      exact World.knows_of_idle (others k self)

/-- A client connects or goes away. -/
theorem environment (inv : LocalRoom w) (serial : w'.Serial) (server : w'.server = w.server)
    (conns : ∀ k, w'.phase k = .hello ∨ (w'.phase k = w.phase k ∧
      (w'.conns k).usable = (w.conns k).usable ∧
      (w'.socket k = .closed ↔ w.socket k = .closed))) : LocalRoom w' := by
  refine ⟨serial, ?_, ?_, ?_⟩
  · intro k u roomId point running opened
    rcases conns k with hello | ⟨phase, -, socket⟩
    · cases hello.symm.trans running
    · rw [server]
      exact inv.present k u roomId point (phase.symm.trans running) (mt socket.mpr opened)
  · intro k u roomId point peer room running found
    rcases conns k with hello | ⟨phase, -, -⟩
    · cases hello.symm.trans running
    · exact inv.status k u roomId point peer room (phase.symm.trans running) (server ▸ found)
  · intro k
    rcases conns k with hello | ⟨phase, usable, socket⟩
    · rw [hello]
      trivial
    · rw [phase]
      have knows := inv.knows k
      cases was : w.phase k with
      | ack u =>
          rw [was] at knows
          change w'.server.peers u = none
          rw [server]
          exact knows
      | running u roomId point =>
          cases point with
          | roomOk room =>
              rw [was] at knows
              exact ⟨knows.1, fun h => mt socket.mp (knows.2 (usable.symm.trans h))⟩
          | _ => trivial
      | leaving u point =>
          cases point with
          | left ws room it =>
              rw [was] at knows
              intro peer found
              exact knows peer (server ▸ found)
          | _ => trivial
      | _ => trivial

theorem step (inv : LocalRoom w) (seq : Sequential w act) (h : w.step act = some w') :
    LocalRoom w' := by
  have serial := inv.serial.step seq h
  rcases step_cases h with ⟨k, rfl, absent, rfl⟩ | ⟨k, rfl, usable, rfl⟩ | ⟨t, fires, rfl⟩
  · refine inv.environment serial rfl fun j => ?_
    by_cases same : j = k
    · subst same
      exact Or.inl (by simp [World.phase_setConn])
    · exact Or.inr ⟨by simp [World.phase_setConn, same], by simp [World.setConn, same],
        by simp [World.socket_setConn, same]⟩
  · refine inv.environment serial rfl fun j => Or.inr ⟨World.phase_lose _ _ _ _, ?_, ?_⟩
    · by_cases same : j = k
      · subst same
        simp [World.setConn]
      · simp [World.setConn, same]
    · rw [World.socket_setConn]
      split
      · next same =>
          subst same
          simp [usable]
      · rfl
  · exact inv.turn fires (others_idle inv.serial seq fires) serial

theorem of_reachable (run : interleaved.Reachable Sequential w) : LocalRoom w :=
  run.invariant init fun _ _ _ inv seq h => inv.step seq h

end LocalRoom

/-! ## The delivery -/

/-- The text makes the handler send one reply, and leaves the tables as they are. -/
structure Yields (w : World) (k : ConnId) (msg : Text) (target : ConnId) (reply : Reply) :
    Prop where
  served : w.socket target ≠ .closed → ∃ w', Served w k msg w'
  sent : ∀ w', Served w k msg w' → w'.log = w.log ++ [(target, reply)]
  tables : ∀ w', Serving w k msg w' → w'.server = w.server

theorem Listens.yields {w : World} {k : ConnId} {uid : Uid} {roomId roomId' : Option RoomId}
    {status : Option Text} {msg : Text} {target : ConnId} {reply : Reply}
    (listens : Listens w k uid roomId status)
    (answers : ∀ order, connectionHandler w.server k uid roomId order msg =
      some (.send w.server roomId' target reply .sent)) : Yields w k msg target reply where
  served opened := ⟨_, (listens.served_send answers).mpr ⟨opened, rfl⟩⟩
  sent w' served := by
    obtain ⟨opened, rfl⟩ := (listens.served_send answers).mp served
    exact World.log_replied _ _ _ _ _ _ opened
  tables w' serving := by
    rcases listens.serving_send answers serving with rfl | ⟨-, rfl⟩
    · exact World.apply_server _ _ _
    · exact World.server_replied _ _ _ _ _ _

/--
A message of a room member reaches the addressee's connection and no other one,
under the id of its sender, when the addressee is in the same room; otherwise
the sender is told so.  The local variable that decides it is the sender's
status.
-/
theorem room_message_delivered {w : World} (run : interleaved.Reachable Sequential w) {k : ConnId}
    {uid : Uid} {roomId : Option RoomId} {room : RoomId} (listens : Listens w k uid roomId (some room))
    (member : IsRoom (some room) room) {msg word other payload : Text}
    (command : "ROOM_PEER_MSG".toList <+: msg) (fields : splitMax 2 msg = [word, other, payload]) :
    roomId = some room ∧
    (∀ partner, w.server.peers other = some partner → partner.status = some room →
      Yields w k msg partner.ws (.peerMsg uid payload)) ∧
    ((∀ partner, w.server.peers other = some partner → partner.status ≠ some room) →
      ∃ reply : Reply, reply.IsError ∧ Yields w k msg k reply) := by
  obtain rfl : roomId = some room := (LocalRoom.of_reachable run).status _ _ _ _ _ _
    listens.waiting listens.registered rfl rfl member.2.2
  have answers : ∀ {target reply},
      roomPeerMsg w.server k uid (some room) msg =
        .send w.server (some room) target reply .sent → Yields w k msg target reply := by
    intro target reply sends
    have handler : ∀ order, connectionHandler w.server k uid (some room) order msg =
        some (.send w.server (some room) target reply .sent) := by
      intro order
      rw [handler_room listens.registered member, roomCommand,
        if_pos (startsWith_iff.mpr command), sends]
    exact listens.yields handler
  refine ⟨rfl, fun partner found sameRoom => answers ?_, fun elsewhere => ?_⟩
  · simp only [roomPeerMsg, fields, found, sameRoom, ne_eq, not_true, if_false]
  · cases found : w.server.peers other with
    | none =>
        refine ⟨.notFound other, True.intro, answers ?_⟩
        simp only [roomPeerMsg, fields, found]
    | some partner =>
        refine ⟨.notInRoom other, True.intro, answers ?_⟩
        simp only [roomPeerMsg, fields, found, elsewhere partner found, ne_eq, not_false_eq_true,
          if_true]

/-- Two members of a room, the first of which sends the second a text. -/
theorem room_message_delivered_pair :
    ∃ w, Yields w 0 "ROOM_PEER_MSG y hi".toList 1 (.peerMsg "x".toList "hi".toList) := by
  obtain ⟨w, run, -, test⟩ := exists_sequential 2 (fun _ _ => true)
    (greeting 0 "x" ++ greeting 1 "y" ++
      [.recv 0 "ROOM session".toList [] none, .resume 0 false none,
        .recv 0 "ROOM r".toList [] none, .resume 0 false none,
        .recv 1 "ROOM r".toList ["x".toList] none, .resume 1 false (some "x".toList),
        .resume 1 false none])
    (fun w => w.server.peers "x".toList = some ⟨0, some "r".toList⟩ &&
      w.server.peers "y".toList = some ⟨1, some "r".toList⟩ &&
      (w.phase 0).reading? = some ("x".toList, some "r".toList))
    (by decide)
  simp only [Bool.and_eq_true, decide_eq_true_eq] at test
  obtain ⟨⟨sender, partner⟩, reads⟩ := test
  have waiting : w.phase 0 = .running "x".toList (some "r".toList) .recv :=
    Phase.reading?_eq_some reads
  exact ⟨w, (room_message_delivered (run.mono fun _ _ allowed => allowed.1) ⟨waiting, sender⟩
    ⟨rfl, by decide, by decide⟩ (by decide)
    (splitMax_two word_roomPeerMsg (by decide) (by decide))).2.1 _ partner rfl⟩

end GstWebrtc.Signalling
