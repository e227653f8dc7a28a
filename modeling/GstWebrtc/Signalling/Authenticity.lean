import GstWebrtc.Signalling.Isolation

/-!
# Who writes to a room member

Once a client was sent `ROOM_OK` it is in no session for the rest of its
connection, so that every text it is sent comes from the code of a room: a
message from a member, or the announcement of a joiner or a leaver.  A session
registered with a room member as its callee opens a second way, on which any
text passes as it stands.
-/

namespace GstWebrtc.Signalling

open GstWebrtc.Base GstWebrtc.Base.PyText WebRTCSimpleServer

/-- The client of connection `k` was sent `ROOM_OK` for `room`. -/
def SentRoomOk (w : World) (k : ConnId) (room : RoomId) : Prop :=
  ∃ peers, (k, Reply.roomOk room peers) ∈ w.log

/--
`x`, a member of `room`, writes `payload` on its own connection to the peer that
is registered with connection `k`.
-/
inductive Writes (w : World) (room : RoomId) (x : Uid) (k : ConnId) (payload : Text) : Act → Prop
    where
  | peerMsg {j msg order pick word other peer}
      (waiting : w.phase j = .running x (some room) .recv)
      (registered : w.server.peers x = some ⟨j, some room⟩)
      (member : x ∈ w.server.members room) (command : "ROOM_PEER_MSG".toList <+: msg)
      (fields : splitMax 2 msg = [word, other, payload])
      (named : w.server.peers other = some peer) (recipient : peer.ws = k) :
      Writes w room x k payload (.recv j msg order pick)

/-- The handler of `x` enters `room`, or goes on to announce that it did. -/
structure Enters (w w' : World) (room : RoomId) (x : Uid) (act : Act) : Prop where
  handler : ∃ roomId, (w.phase act.conn = .running x roomId (.roomOk room) ∧
      x ∉ w.server.members room) ∨
    ∃ it, w.phase act.conn = .running x roomId (.joined room it)
  inside : x ∈ w'.server.members room

/-- The handler of `x` takes it out of `room`, or goes on to announce that it did. -/
structure Leaves (w w' : World) (room : RoomId) (x : Uid) (act : Act) : Prop where
  handler : (w.phase act.conn).past? = some x ∧ (x ∈ w.server.members room ∨
    ∃ ws it, w.phase act.conn = .leaving x (.left ws room it))
  outside : x ∉ w'.server.members room

/-- A text that looks like a message or an announcement of `room` is one. -/
structure Authentic (w w' : World) (act : Act) (k : ConnId) (room : RoomId) (text : Text) :
    Prop where
  written : ∀ x, ' ' ∉ x → "ROOM_PEER_MSG ".toList ++ x ++ [' '] <+: text →
    ∃ payload, text = "ROOM_PEER_MSG ".toList ++ x ++ ' ' :: payload ∧ Writes w room x k payload act
  joined : ∀ x, text = "ROOM_PEER_JOINED ".toList ++ x → Enters w w' room x act
  left : ∀ x, text = "ROOM_PEER_LEFT ".toList ++ x → Leaves w w' room x act

/-- Messages are handled to completion, no uid is shared, and no room member is called. -/
structure SessionsApart (w : World) (act : Act) : Prop where
  sequential : Sequential w act
  outside : calleeOutside w act = true
  alone : RegistersAlone w act

/-! ## What a turn sends -/

section Sends

variable {srv srv' : WebRTCSimpleServer} {uid : Uid} {room : RoomId} {it : Iter Uid}
  {target : ConnId} {reply : Reply} {phase : Phase}

theorem deletePeer_not_send (srv : WebRTCSimpleServer) (uid : Uid) (ws : ConnId) :
    deletePeer srv uid ws ≠ .send srv' target reply phase := by
  unfold deletePeer
  split <;> simp

/-- The announcement of a leaver, to a member of the room that it left. -/
structure LeftSent (srv : WebRTCSimpleServer) (uid : Uid) (room : RoomId) (target : ConnId)
    (reply : Reply) (phase : Phase) : Prop where
  notice : reply = .peerLeft uid
  point : ∃ ws it, phase = .leaving uid (.left ws room it)
  recipient : ∃ pid peer, pid ∈ srv.members room ∧ srv.peers pid = some peer ∧ peer.ws = target

theorem LeftAnnounced.sends {ws : ConnId}
    (h : LeftAnnounced srv uid ws room it (.send srv' target reply phase)) :
    LeftSent srv' uid room target reply phase := by
  generalize turn : Turn.send srv' target reply phase = t at h
  cases h with
  | finished found same all => exact absurd turn.symm (deletePeer_not_send srv uid ws)
  | notice found same member fresh registered =>
      cases turn
      exact ⟨rfl, ⟨_, _, rfl⟩, _, _, by rwa [members_of_rooms found], registered, rfl⟩
  | _ => cases turn

theorem EntryRemoved.sends (h : EntryRemoved srv uid (.send srv' target reply phase)) :
    ∃ room, uid ∈ srv.members room ∧ LeftSent srv' uid room target reply phase := by
  generalize turn : Turn.send srv' target reply phase = t at h
  cases h with
  | plain registered outside => exact absurd turn.symm (deletePeer_not_send srv uid _)
  | notListed registered member found unlisted =>
      exact absurd turn.symm (deletePeer_not_send srv uid _)
  | leaves registered member found listed announced =>
      subst turn
      exact ⟨_, by rwa [members_of_rooms found], announced.sends⟩
  | _ => cases turn

theorem Removed.sends (h : Removed srv uid (.send srv' target reply phase)) :
    ∃ room, uid ∈ srv.members room ∧ LeftSent srv' uid room target reply phase := by
  cases h with
  | entry cleaned removed =>
      obtain ⟨room, listed, sent⟩ := removed.sends
      refine ⟨room, ?_, sent⟩
      rw [← cleaned.members_eq]
      exact listed

/-- The announcement of a joiner, to another member of its room. -/
theorem JoinAnnounced.sends {roomId roomId' : Option RoomId} {next : LoopPoint}
    (h : JoinAnnounced srv uid roomId room it (.send srv' roomId' target reply next)) :
    reply = .peerJoined uid ∧ srv' = srv ∧ (∃ it, next = .joined room it) ∧
      ∃ pid peer, pid ∈ srv.members room ∧ pid ≠ uid ∧ srv.peers pid = some peer ∧
        peer.ws = target := by
  cases h with
  | notice found same member other fresh registered =>
      exact ⟨rfl, rfl, ⟨_, rfl⟩, _, _, by rwa [members_of_rooms found], other, registered, rfl⟩

/-- What is neither `HELLO` nor a notice of a room is sent for a message just read. -/
theorem Fires.sends_message {w : World} {act : Act}
    (fires : Fires w act (.send srv target reply phase)) :
    reply = .hello ∨ (∃ u, reply = .peerJoined u ∨ reply = .peerLeft u) ∨
    ∃ k uid roomId roomId' order pick msg next, act = .recv k msg order pick ∧
      w.phase k = .running uid roomId .recv ∧ phase = .running uid roomId' next ∧
      Handled w.server k uid roomId order msg (.send srv roomId' target reply next) := by
  generalize turn : Turn.send srv target reply phase = t at fires
  cases fires with
  | greeted waiting fields absent word =>
      cases turn
      exact Or.inl rfl
  | sends runs =>
      cases turn
      cases runs with
      | message waiting handled =>
          exact Or.inr (Or.inr ⟨_, _, _, _, _, _, _, _, rfl, waiting, rfl, handled⟩)
      | room mayReturn waiting entered =>
          cases entered with
          | entered registered found announced =>
              exact Or.inr (Or.inl ⟨_, Or.inl announced.sends.1⟩)
      | joined mayReturn waiting announced => exact Or.inr (Or.inl ⟨_, Or.inl announced.sends.1⟩)
  | leaves runs removed =>
      subst turn
      obtain ⟨room, -, sent⟩ := removed.sends
      exact Or.inr (Or.inl ⟨_, Or.inr sent.notice⟩)
  | partnerClosed mayReturn waiting removed =>
      subst turn
      obtain ⟨room, -, sent⟩ := removed.sends
      exact Or.inr (Or.inl ⟨_, Or.inr sent.notice⟩)
  | leftSent mayReturn waiting announced =>
      subst turn
      exact Or.inr (Or.inl ⟨_, Or.inr announced.sends.notice⟩)
  | _ => cases turn

end Sends

/-! ## Which handlers have been answered -/

namespace Phase

/-- `hello_peer` has not returned. -/
def greets : Phase → Bool
  | absent | hello | reject | ack _ => true
  | _ => false

theorem Departing.greets {uid : Uid} {phase : Phase} (h : phase.Departing uid) :
    phase.greets = false := by
  rcases h with ⟨point, rfl⟩ | rfl <;> rfl

theorem uid_of_past {u : Uid} {phase : Phase} (h : phase.past? = some u) :
    phase.uid? = some u := by
  cases phase with
  | running v roomId point => exact h
  | leaving v point => exact h
  | _ => cases h

theorem Departing.uid_eq {uid u : Uid} {phase : Phase} (h : phase.Departing uid)
    (named : phase.uid? = some u) : uid = u := by
  rcases h with ⟨point, rfl⟩ | rfl
  · exact Option.some.inj named
  · cases named

end Phase

section Greets

variable {w : World} {act : Act} {t : Turn}

theorem Fires.greets (fires : Fires w act t) (before : (w.phase act.conn).greets = false) :
    t.phase.greets = false := by
  cases fires with
  | leaves runs removed => exact removed.departing.greets
  | partnerClosed mayReturn waiting removed => exact removed.departing.greets
  | leftSent mayReturn waiting announced => exact announced.departing.greets
  | registered mayReturn waiting => rfl
  | timeout waiting => rfl
  | loops runs => rfl
  | sends runs => rfl
  | leaveRaised mayRaise waiting => rfl
  | finished waiting => rfl
  | greeted waiting fields absent word =>
      rw [Act.conn, waiting] at before
      cases before
  | refused waiting =>
      rw [Act.conn, waiting] at before
      cases before
  | helloFailed waiting => rfl
  | helloClosed unusable waiting => rfl
  | rejected waiting => rfl
  | ackFailed mayRaise waiting => rfl

/-- `ROOM_OK` is sent by a handler to its own client, which then waits in that branch. -/
theorem Fires.roomOk (fires : Fires w act t) {k : ConnId} {room : RoomId} {peers : List Uid}
    (sent : (k, Reply.roomOk room peers) ∈ w.delivered t) :
    k = act.conn ∧ room ≠ inSession ∧
      ∃ uid, t.phase = .running uid (some room) (.roomOk room) := by
  obtain ⟨srv, phase, rfl⟩ : ∃ srv phase, t = .send srv k (.roomOk room peers) phase := by
    unfold World.delivered at sent
    split at sent
    · split at sent
      · cases sent
      · cases List.mem_singleton.mp sent
        exact ⟨_, _, rfl⟩
    · cases sent
  cases fires with
  | sends runs =>
      cases runs with
      | message waiting handled =>
          cases handled with
          | newRoom registered idle command fields valid notSession absent lists =>
              exact ⟨rfl, notSession, _, rfl⟩
          | oldRoom registered idle command fields valid notSession found fresh lists =>
              exact ⟨rfl, notSession, _, rfl⟩
      | room mayReturn waiting entered =>
          cases entered with
          | entered registered found announced => cases announced.sends.1
      | joined mayReturn waiting announced => cases announced.sends.1
  | leaves runs removed =>
      obtain ⟨room, -, left⟩ := removed.sends
      cases left.notice
  | partnerClosed mayReturn waiting removed =>
      obtain ⟨room, -, left⟩ := removed.sends
      cases left.notice
  | leftSent mayReturn waiting announced => cases announced.sends.notice

/-- The uid that a handler works for was accepted by `hello_peer`. -/
theorem Fires.named (fires : Fires w act t) {u : Uid} (named : t.phase.uid? = some u) :
    (w.phase act.conn).uid? = some u ∨ (Word u ∧ ∃ k msg order pick,
      act = .recv k msg order pick ∧ splitMax 1 msg = ["HELLO".toList, u]) := by
  cases fires with
  | greeted waiting fields absent word =>
      cases named
      exact Or.inr ⟨word, _, _, _, _, rfl, fields⟩
  | registered mayReturn waiting =>
      cases named
      exact Or.inl (congrArg Phase.uid? waiting)
  | timeout waiting =>
      cases named
      exact Or.inl (congrArg Phase.uid? waiting)
  | loops runs =>
      cases named
      exact Or.inl (Phase.uid_of_past runs.past)
  | sends runs =>
      cases named
      exact Or.inl (Phase.uid_of_past runs.past)
  | leaves runs removed =>
      cases removed.departing.uid_eq named
      exact Or.inl (Phase.uid_of_past runs.past)
  | partnerClosed mayReturn waiting removed =>
      cases removed.departing.uid_eq named
      exact Or.inl (congrArg Phase.uid? waiting)
  | leftSent mayReturn waiting announced =>
      cases announced.departing.uid_eq named
      exact Or.inl (congrArg Phase.uid? waiting)
  | _ => cases named

end Greets

/-! ## Clients that were sent `ROOM_OK` -/

/-- What the loop of handler `k` knows about its own room. -/
structure Seat (w : World) (srv : WebRTCSimpleServer) (k : ConnId) (u : Uid)
    (roomId : Option RoomId) (point : LoopPoint) : Prop where
  assigned : ∀ room, srv.peers u = some ⟨k, some room⟩ → room ≠ inSession → roomId = some room
  asked : ∀ room, point = .roomOk room → roomId = some room
  entered : ∀ room it, point = .joined room it → u ∈ srv.members room
  answered : ∀ room status, SentRoomOk w k room → srv.peers u = some ⟨k, status⟩ →
    status = some room ∨ point = .roomOk room

structure RoomMail (w : World) : Prop where
  rooms : RoomInv w
  handlers : OneHandler w
  named : ∀ k u, (w.phase k).uid? = some u → Word u
  greeted : ∀ k room, SentRoomOk w k room → (w.phase k).greets = false ∧ room ≠ inSession
  seats : ∀ k u roomId point, w.phase k = .running u roomId point →
    Seat w w.server k u roomId point

/-- The loop of handler `k` knows the same where it is suspended next. -/
def Body.Seats (w : World) (k : ConnId) (u : Uid) : Body → Prop
  | .recv srv roomId => Seat w srv k u roomId .recv
  | .send srv roomId _ _ next => Seat w srv k u roomId next
  | .raise _ _ => True

section Seats

variable {w : World} {srv : WebRTCSimpleServer} {k : ConnId} {u : Uid} {roomId : Option RoomId}
  {point : LoopPoint}

/-- An idle client was sent no `ROOM_OK`, unless that is just what it is sent. -/
theorem Seat.unanswered (seat : Seat w srv k u roomId point)
    (idle : srv.peers u = some ⟨k, none⟩) (elsewhere : ∀ room, point ≠ .roomOk room)
    (room : RoomId) : ¬ SentRoomOk w k room := by
  intro sent
  rcases seat.answered room none sent idle with impossible | answering
  · cases impossible
  · exact elsewhere room answering

theorem Seat.moved (seat : Seat w srv k u roomId point) (elsewhere : ∀ room, point ≠ .roomOk room)
    {point' : LoopPoint} (notOk : ∀ room, point' ≠ .roomOk room)
    (notJoined : ∀ room it, point' ≠ .joined room it) : Seat w srv k u roomId point' where
  assigned := seat.assigned
  asked room asked := absurd asked (notOk room)
  entered room it joined := absurd joined (notJoined room it)
  answered room status sent found :=
    Or.inl ((seat.answered room status sent found).resolve_right (elsewhere room))

/-- The announcements of a joiner go on in the room that it entered. -/
theorem JoinAnnounced.seats {room : RoomId} {it : Iter Uid} {body : Body}
    (announced : JoinAnnounced srv u roomId room it body)
    (seat : ∀ it, Seat w srv k u roomId (.joined room it)) : body.Seats w k u := by
  cases announced with
  | finished found same all => exact (seat it).moved (by simp) (by simp) (by simp)
  | notice found same member other fresh registered => exact seat _
  | _ => trivial

end Seats

namespace RoomMail

variable {w w' : World} {act : Act} {t : Turn}

theorem init : RoomMail World.empty := by
  refine ⟨.init, .init, ?_, ?_, ?_⟩
  · rintro k u ⟨⟩
  · rintro k room ⟨peers, ⟨⟩⟩
  · rintro k u roomId point ⟨⟩

/-- An idle client that was sent `ROOM_OK` is registered in that room. -/
theorem status_of_idle (inv : RoomMail w) {k : ConnId} {room : RoomId} {u : Uid} {peer : Peer}
    (sent : SentRoomOk w k room) (idle : (w.phase k).idle = true)
    (found : w.server.peers u = some peer) (own : peer.ws = k) : peer.status = some room := by
  have past := (inv.rooms.owner u peer found).1
  rw [own] at past
  have entry : w.server.peers u = some ⟨k, peer.status⟩ := by
    rw [found, ← own]
  cases phase : w.phase k with
  | running v roomId point =>
      rw [phase] at past idle
      cases past
      rcases (inv.seats k u roomId point phase).answered room _ sent entry with seated | answering
      · exact seated
      · subst answering
        cases idle
  | leaving v point =>
      rw [phase] at idle
      cases idle
  | _ =>
      rw [phase] at past
      cases past

/-- The message loop's part of the invariant. -/
theorem runs (inv : RoomMail w) {u : Uid} {roomId : Option RoomId} {body : Body}
    (runs : Runs w u roomId act body) : body.Seats w act.conn u := by
  have own : ∀ {point peer}, w.phase act.conn = .running u roomId point →
      w.server.peers u = some peer → peer.ws = act.conn :=
    fun waiting => inv.handlers.own _ u _ (congrArg Phase.past? waiting)
  have idleEntry : ∀ {point peer}, w.phase act.conn = .running u roomId point →
      w.server.peers u = some peer → peer.status = none →
      w.server.peers u = some ⟨act.conn, none⟩ := by
    intro point peer waiting registered idle
    rw [registered, ← own waiting registered, ← idle]
  cases runs with
  | @message k msg order pick body waiting handled =>
      have seat := inv.seats k u roomId _ waiting
      -- an idle client was sent no `ROOM_OK` before
      have first : ∀ {peer srv room point}, w.server.peers u = some peer → peer.status = none →
          srv.peers = w.server.peers → (∀ room', point = .roomOk room' → room' = room) →
          (∀ room it, point ≠ .joined room it) → Seat w srv k u (some room) point := by
        intro peer srv room point registered idle peers asks notJoined
        have entry := idleEntry waiting registered idle
        refine ⟨?_, fun room' asked => congrArg some (asks room' asked).symm,
          fun room' it joined => absurd joined (notJoined room' it), ?_⟩
        · intro room' found
          rw [peers] at found
          cases entry.symm.trans found
        · intro room' status sent
          exact absurd sent (seat.unanswered entry (by simp) room')
      cases handled with
      | raise reason => trivial
      | ignored registered idle notSession notRoom => exact seat
      | invalidRoom registered idle command fields invalid =>
          exact first registered idle rfl (by simp) (by simp)
      | newRoom registered idle command fields valid notSession absent lists =>
          exact first registered idle rfl (by rintro room' ⟨⟩; rfl) (by simp)
      | oldRoom registered idle command fields valid notSession found fresh lists =>
          exact first registered idle rfl (by rintro room' ⟨⟩; rfl) (by simp)
      | _ => exact seat.moved (by simp) (by simp) (by simp)
  | closed unusable waiting => trivial
  | raised mayRaise waiting => trivial
  | @continued k pick point mayReturn waiting plain =>
      have seat := inv.seats k u roomId _ waiting
      rcases plain with rfl | rfl <;> exact seat.moved (by simp) (by simp) (by simp)
  | @session k pick callee srv mayReturn waiting linked =>
      have seat := inv.seats k u roomId _ waiting
      have point := inv.rooms.point k
      rw [waiting] at point
      obtain ⟨peer, registered, idle⟩ := point
      have unanswered := seat.unanswered (idleEntry waiting registered idle) (by simp)
      refine ⟨?_, by simp, by simp, fun room status sent => absurd sent (unanswered room)⟩
      intro room found notSession
      obtain ⟨caller, calleePeer, -, -, hpeers, -, -⟩ := registerSession_eq linked
      rw [hpeers] at found
      by_cases self : u = callee
      · rw [self, Function.update_self] at found
        cases found
        exact absurd rfl notSession
      · rw [Function.update_of_ne self, Function.update_self] at found
        cases found
        exact absurd rfl notSession
  | sessionFailed mayReturn waiting missing => trivial
  | @room k pick room body mayReturn waiting entered =>
      have seat := inv.seats k u roomId _ waiting
      have point := inv.rooms.point k
      rw [waiting] at point
      obtain ⟨⟨peer, registered, idle⟩, -⟩ := point
      have entry := idleEntry waiting registered idle
      cases entered with
      | unregistered absent => trivial
      | noRoom registered' missing => trivial
      | entered registered' exists' announced =>
          cases entry.symm.trans registered'
          refine announced.seats fun it => ⟨?_, by simp, ?_, ?_⟩
          · intro room' found notSession
            have same : room = room' := by simpa using found
            rw [← same]
            exact seat.asked room rfl
          · rintro room' it' ⟨⟩
            rw [members_writeRoom]
            simp
          · intro room' status sent found
            have same : some room = status := by simpa using found
            rcases seat.answered room' none sent entry with impossible | answering
            · cases impossible
            · cases answering
              exact Or.inl same.symm
  | @joined k pick room it body mayReturn waiting announced =>
      have seat := inv.seats k u roomId _ waiting
      refine announced.seats fun it' => ⟨seat.assigned, by simp, ?_, ?_⟩
      · rintro room' it' ⟨⟩
        exact seat.entered room it rfl
      · intro room' status sent found
        exact Or.inl ((seat.answered room' status sent found).resolve_right (by simp))

/-- Where the handler is after its own turn. -/
theorem own_seat (inv : RoomMail w) {t : Turn} (fires : Fires w act t) {u : Uid}
    {roomId : Option RoomId} {point : LoopPoint} (running : t.phase = .running u roomId point) :
    Seat w t.server act.conn u roomId point := by
  cases fires with
  | @registered k pick v mayReturn waiting =>
      cases running
      refine ⟨?_, by simp, by simp, ?_⟩
      · intro room found
        simp [Turn.server, register, Act.conn] at found
      · intro room status sent
        have greets := (inv.greeted k room sent).1
        rw [waiting] at greets
        cases greets
  | timeout waiting =>
      cases running
      exact (inv.seats _ _ _ _ waiting).moved (by simp) (by simp) (by simp)
  | loops runs =>
      cases running
      exact inv.runs runs
  | sends runs =>
      cases running
      exact inv.runs runs
  | leaves runs removed => exact absurd running removed.departing.not_running
  | partnerClosed mayReturn waiting removed => exact absurd running removed.departing.not_running
  | leftSent mayReturn waiting announced => exact absurd running announced.departing.not_running
  | _ => cases running

/-- A turn of another handler leaves a waiting one its seat. -/
theorem other_seat (inv : RoomMail w) (outside : calleeOutside w act = true) {t : Turn}
    (fires : Fires w act t) {k : ConnId} (other : k ≠ act.conn) {u : Uid}
    {roomId : Option RoomId} (waiting : w.phase k = .running u roomId .recv) :
    Seat w t.server k u roomId .recv := by
  have seat := inv.seats k u roomId _ waiting
  have apart : (w.phase act.conn).past? ≠ some u := fun past =>
    other (inv.handlers.unique k act.conn u (congrArg Phase.past? waiting) past)
  -- only a call to `u` can change its entry
  have entry : ∀ {status}, t.server.peers u = some ⟨k, status⟩ →
      w.server.peers u = some ⟨k, status⟩ ∨
      (status = some inSession ∧ ∃ old, w.server.peers u = some ⟨k, old⟩ ∧
        ∀ room, old = some room → room = inSession) := by
    intro status found
    generalize made : (⟨k, status⟩ : Peer) = peer at found
    cases fires.entry found with
    | kept was => exact Or.inl (made ▸ was)
    | registered ack =>
        cases made
        exact absurd rfl other
    | @linked j pick v roomId' callee old resumed calling either was =>
        subst resumed
        obtain ⟨rfl, rfl⟩ : k = old.ws ∧ status = some inSession := by simpa using made
        have called : u = callee := by
          refine either.resolve_left ?_
          rintro rfl
          exact apart (congrArg Phase.past? calling)
        subst called
        refine Or.inr ⟨rfl, old.status, was, ?_⟩
        intro room status
        simpa [calleeOutside, calling, was, status] using outside
    | entered answering was => exact absurd (congrArg Phase.past? answering) apart
  refine ⟨?_, by simp, by simp, ?_⟩
  · intro room found notSession
    rcases entry found with was | ⟨called, -⟩
    · exact seat.assigned room was notSession
    · exact absurd (Option.some.inj called) notSession
  · intro room status sent found
    rcases entry found with was | ⟨-, old, was, idle⟩
    · exact seat.answered room status sent was
    · have seated := (seat.answered room old sent was).resolve_right (by simp)
      exact absurd (idle room seated) (inv.greeted k room sent).2

end RoomMail

theorem SentRoomOk.apply {w : World} {k : ConnId} {room : RoomId} (sent : SentRoomOk w k room)
    (j : ConnId) (t : Turn) : SentRoomOk (w.apply j t) k room := by
  obtain ⟨peers, inside⟩ := sent
  refine ⟨peers, ?_⟩
  rw [World.apply_log]
  exact List.mem_append_left _ inside

/-- A client was sent `ROOM_OK` before the turn, or is answered by it. -/
theorem SentRoomOk.of_apply {w : World} {act : Act} {t : Turn} (fires : Fires w act t)
    {k : ConnId} {room : RoomId} (sent : SentRoomOk (w.apply act.conn t) k room) :
    SentRoomOk w k room ∨ (k = act.conn ∧ room ≠ inSession ∧
      ∃ uid, t.phase = .running uid (some room) (.roomOk room)) := by
  obtain ⟨peers, inside⟩ := sent
  rw [World.apply_log] at inside
  rcases List.mem_append.mp inside with before | now
  · exact Or.inl ⟨peers, before⟩
  · exact Or.inr (fires.roomOk now)

theorem Seat.answers {w w' : World} {srv : WebRTCSimpleServer} {k : ConnId} {u : Uid}
    {roomId : Option RoomId} {point : LoopPoint} (seat : Seat w srv k u roomId point)
    (sent : ∀ room, SentRoomOk w' k room → SentRoomOk w k room ∨ point = .roomOk room) :
    Seat w' srv k u roomId point where
  assigned := seat.assigned
  asked := seat.asked
  entered := seat.entered
  answered room status now found :=
    (sent room now).elim (fun before => seat.answered room status before found) Or.inr

namespace RoomMail

variable {w w' : World} {act : Act}

theorem environment (inv : RoomMail w) (rooms : RoomInv w') (handlers : OneHandler w')
    (env : Environment w w') : RoomMail w' := by
  have sent : ∀ {k room}, SentRoomOk w' k room → SentRoomOk w k room := by
    rintro k room ⟨peers, inside⟩
    exact ⟨peers, env.log ▸ inside⟩
  refine ⟨rooms, handlers, ?_, ?_, ?_⟩
  · intro k u named
    rcases env.conns k with ⟨same, -⟩ | ⟨-, hello, -⟩
    · exact inv.named k u (same ▸ named)
    · rw [hello] at named
      cases named
  · intro k room now
    obtain ⟨greets, notSession⟩ := inv.greeted k room (sent now)
    rcases env.conns k with ⟨same, -⟩ | ⟨absent, -, -⟩
    · exact ⟨same ▸ greets, notSession⟩
    · rw [absent] at greets
      cases greets
  · intro k u roomId point waiting
    rcases env.conns k with ⟨same, -⟩ | ⟨-, hello, -⟩
    · rw [env.server]
      exact (inv.seats k u roomId point (same.symm.trans waiting)).answers fun room now =>
        Or.inl (sent now)
    · cases hello.symm.trans waiting

theorem step (inv : RoomMail w) (allowed : SessionsApart w act) (h : w.step act = some w') :
    RoomMail w' := by
  have rooms := inv.rooms.step allowed.sequential allowed.outside h
  have handlers := inv.handlers.step allowed.alone h
  rcases sequential_cases inv.rooms.serial allowed.sequential h with
    env | ⟨t, fires, rfl, others⟩
  · exact inv.environment rooms handlers env
  · refine ⟨rooms, handlers, ?_, ?_, ?_⟩
    · intro k u named
      by_cases self : k = act.conn
      · subst self
        rw [World.apply_phase_self] at named
        exact (fires.named named).elim (inv.named _ u) And.left
      · rw [World.apply_phase_of_ne _ _ _ self] at named
        exact inv.named k u named
    · intro k room sent
      rcases SentRoomOk.of_apply fires sent with before | ⟨rfl, notSession, uid, running⟩
      · obtain ⟨greets, notSession⟩ := inv.greeted k room before
        refine ⟨?_, notSession⟩
        by_cases self : k = act.conn
        · subst self
          rw [World.apply_phase_self]
          exact fires.greets greets
        · rw [World.apply_phase_of_ne _ _ _ self]
          exact greets
      · rw [World.apply_phase_self, running]
        exact ⟨rfl, notSession⟩
    · intro k u roomId point waiting
      rw [World.apply_server]
      by_cases self : k = act.conn
      · subst self
        rw [World.apply_phase_self] at waiting
        refine (inv.own_seat fires waiting).answers fun room sent => ?_
        refine (SentRoomOk.of_apply fires sent).imp_right ?_
        rintro ⟨-, -, uid, running⟩
        cases waiting.symm.trans running
        rfl
      · rw [World.apply_phase_of_ne _ _ _ self] at waiting
        have idle := others k self
        rw [waiting] at idle
        cases point with
        | recv =>
            refine (inv.other_seat allowed.outside fires self waiting).answers fun room sent => ?_
            exact (SentRoomOk.of_apply fires sent).imp_right fun now => absurd now.1 self
        | _ => cases idle

theorem of_reachable (run : interleaved.Reachable SessionsApart w) : RoomMail w :=
  run.invariant init fun _ _ _ inv allowed h => inv.step allowed h

/-- No stretch of the loop that raises has written anything before. -/
theorem raise_server (inv : RoomMail w) {u : Uid} {roomId : Option RoomId}
    {srv : WebRTCSimpleServer} {exn : Exn} (runs : Runs w u roomId act (.raise srv exn)) :
    srv = w.server := by
  refine runs.raise_server ?_ ?_
  · intro room waiting
    have point := inv.rooms.point act.conn
    rw [waiting] at point
    exact point.2.2.2
  · intro room pid inside
    obtain ⟨-, -, peer, found, -⟩ := inv.rooms.tables.listed room pid inside
    exact ⟨peer, found⟩

/-! ## Where a text comes from -/

/-- The announcement of `uid` goes to a member of the recipient's own room. -/
theorem announced_to (inv : RoomMail w) {k j : ConnId} {room room' : RoomId} {uid : Uid}
    (sent : SentRoomOk w k room) (others : ∀ i, i ≠ j → (w.phase i).idle = true)
    (past : (w.phase j).past? = some uid)
    (recipient : ∃ pid peer, pid ∈ w.server.members room' ∧ pid ≠ uid ∧
      w.server.peers pid = some peer ∧ peer.ws = k) : room' = room := by
  obtain ⟨pid, peer, inside, other, found, own⟩ := recipient
  have apart : k ≠ j := by
    rintro rfl
    have past' := (inv.rooms.owner pid peer found).1
    rw [own, past] at past'
    exact other (Option.some.inj past').symm
  have status := inv.status_of_idle sent (others k apart) found own
  obtain ⟨-, -, peer', found', status'⟩ := inv.rooms.tables.listed room' pid inside
  cases found.symm.trans found'
  exact Option.some.inj (status'.symm.trans status)

end RoomMail

/-- The replies to a command of the recipient itself. -/
def Reply.answers : Reply → Bool
  | relay _ | peerMsg _ _ | peerJoined _ | peerLeft _ => false
  | _ => true

/-- What the server sends to the client of connection `k`, a member of `room`, and why. -/
inductive Sends (w w' : World) (act : Act) (k : ConnId) (room : RoomId) : Reply → Prop where
  | answer {reply} (own : reply.answers = true) : Sends w w' act k room reply
  | message {x payload} (word : Word x) (writes : Writes w room x k payload act) :
      Sends w w' act k room (.peerMsg x payload)
  | joined {x} (enters : Enters w w' room x act) : Sends w w' act k room (.peerJoined x)
  | left {x} (leaves : Leaves w w' room x act) : Sends w w' act k room (.peerLeft x)

namespace RoomMail

variable {w : World} {act : Act} {k : ConnId} {room : RoomId}

/-- The recipient of a command is in the sender's room. -/
theorem message_sends (inv : RoomMail w) (quiet : w.Quiet) (sent : SentRoomOk w k room)
    {j : ConnId} {u : Uid} {roomId roomId' : Option RoomId} {order : List Uid} {msg : Text}
    {pick : Option Uid} {srv : WebRTCSimpleServer} {reply : Reply} {next : LoopPoint} {w' : World}
    (waiting : w.phase j = .running u roomId .recv)
    (handled : Handled w.server j u roomId order msg (.send srv roomId' k reply next)) :
    Sends w w' (.recv j msg order pick) k room reply := by
  generalize sends : Body.send srv roomId' k reply next = body at handled
  cases handled with
  | relay registered busy linked found partnerBusy =>
      cases sends
      have status := inv.status_of_idle sent (quiet _) found rfl
      exact absurd (Option.some.inj (status.symm.trans partnerBusy)) (inv.greeted _ room sent).2
  | @peerMsg peer inRoom word other payload target current registered member command fields found
      assigned sameRoom =>
      cases sends
      have own := inv.handlers.own j u peer (congrArg Phase.past? waiting) registered
      have entry : w.server.peers u = some ⟨j, some inRoom⟩ := by
        rw [registered, ← own, ← member.1]
      have here := (inv.seats j u roomId _ waiting).assigned inRoom entry member.2.2
      cases here.symm.trans assigned
      have status := inv.status_of_idle sent (quiet _) found rfl
      cases status.symm.trans sameRoom
      subst here
      refine .message (inv.named j u (by rw [waiting]; rfl))
        (.peerMsg waiting entry ?_ command fields found rfl)
      refine (inv.rooms.tables.counted u peer room registered member.1 member.2.2).resolve_left ?_
      rintro ⟨i, ws, r, it, leaving⟩
      have idle := quiet i
      rw [leaving] at idle
      cases idle
  | _ =>
      cases sends <;> exact .answer rfl

/-- The announcement of a joiner, seen from the state after it was sent. -/
theorem join_sends {w' : World} (after : RoomMail w')
    (idle : ∀ j, j ≠ act.conn → (w'.phase j).idle = true) (still : SentRoomOk w' k room)
    {u : Uid} {roomId : Option RoomId} {room' : RoomId} {it : Iter Uid}
    (running : w'.phase act.conn = .running u roomId (.joined room' it))
    (recipient : ∃ pid peer, pid ∈ w'.server.members room' ∧ pid ≠ u ∧
      w'.server.peers pid = some peer ∧ peer.ws = k)
    (before : ∃ roomId, (w.phase act.conn = .running u roomId (.roomOk room') ∧
        u ∉ w.server.members room') ∨
      ∃ it, w.phase act.conn = .running u roomId (.joined room' it)) :
    Sends w w' act k room (.peerJoined u) := by
  have same := after.announced_to still idle (congrArg Phase.past? running) recipient
  subst same
  exact .joined ⟨before, (after.seats _ u roomId _ running).entered room' it rfl⟩

/-- The announcement of a leaver, seen from the state after it was sent. -/
theorem left_sends {w' : World} (after : RoomMail w')
    (idle : ∀ j, j ≠ act.conn → (w'.phase j).idle = true) (still : SentRoomOk w' k room)
    {u : Uid} {room' : RoomId} {reply : Reply} {phase : Phase}
    (sent : LeftSent w'.server u room' k reply phase) (leaving : w'.phase act.conn = phase)
    (before : (w.phase act.conn).past? = some u ∧ (u ∈ w.server.members room' ∨
      ∃ ws it, w.phase act.conn = .leaving u (.left ws room' it))) :
    Sends w w' act k room reply := by
  obtain ⟨rfl, ⟨ws, it, rfl⟩, pid, peer, inside, found, own⟩ := sent
  have point := after.rooms.point act.conn
  rw [leaving] at point
  obtain ⟨-, outside, -⟩ := point
  have other : pid ≠ u := by
    rintro rfl
    exact outside room' inside
  have same := after.announced_to still idle (congrArg Phase.past? leaving)
    ⟨pid, peer, inside, other, found, own⟩
  subst same
  exact .left ⟨before, outside room'⟩

/-- Every text that a turn puts on the connection of a member of `room`. -/
theorem sends (inv : RoomMail w) (allowed : SessionsApart w act) {t : Turn} (fires : Fires w act t)
    (h : w.step act = some (w.apply act.conn t))
    (others : ∀ j, j ≠ act.conn → (w.phase j).idle = true) {reply : Reply}
    (sent : SentRoomOk w k room) (delivered : w.delivered t = [(k, reply)]) :
    Sends w (w.apply act.conn t) act k room reply := by
  have after := inv.step allowed h
  obtain ⟨srv, phase, rfl⟩ : ∃ srv phase, t = .send srv k reply phase := by
    unfold World.delivered at delivered
    split at delivered
    · split at delivered
      · cases delivered
      · cases delivered
        exact ⟨_, _, rfl⟩
    · cases delivered
  have still := sent.apply act.conn (.send srv k reply phase)
  have idle : ∀ j, j ≠ act.conn →
      ((w.apply act.conn (.send srv k reply phase)).phase j).idle = true := by
    intro j other
    rw [World.apply_phase_of_ne _ _ _ other]
    exact others j other
  have now := World.apply_phase_self w act.conn (.send srv k reply phase)
  have server := World.apply_server w act.conn (.send srv k reply phase)
  have leftAfter : ∀ {u room'}, LeftSent srv u room' k reply phase →
      ((w.phase act.conn).past? = some u ∧ (u ∈ w.server.members room' ∨
        ∃ ws it, w.phase act.conn = .leaving u (.left ws room' it))) →
      Sends w (w.apply act.conn (.send srv k reply phase)) act k room reply := by
    intro u room' left before
    refine after.left_sends idle still ?_ now before
    rw [server]
    exact left
  cases fires with
  | greeted waiting fields absent word => exact .answer rfl
  | @sends act u roomId srv roomId' target reply next runs =>
      cases runs with
      | message waiting handled => exact inv.message_sends allowed.sequential sent waiting handled
      | @room j pick room' body mayReturn waiting entered =>
          have point := inv.rooms.point j
          rw [waiting] at point
          obtain ⟨⟨peer, registered, free⟩, -⟩ := point
          cases entered with
          | entered registered' found announced =>
              obtain ⟨rfl, rfl, ⟨it, rfl⟩, recipient⟩ := announced.sends
              refine after.join_sends idle still now (by rw [server]; exact recipient)
                ⟨_, Or.inl ⟨waiting, ?_⟩⟩
              refine inv.rooms.tables.outside_of_status registered ?_ room'
              rintro r ⟨status, -⟩
              cases free.symm.trans status
      | joined mayReturn waiting announced =>
          obtain ⟨rfl, rfl, ⟨it, rfl⟩, recipient⟩ := announced.sends
          exact after.join_sends idle still now (by rw [server]; exact recipient)
            ⟨_, Or.inr ⟨_, waiting⟩⟩
  | leaves runs removed =>
      obtain ⟨room', listed, left⟩ := removed.sends
      rw [inv.raise_server runs] at listed
      exact leftAfter left ⟨runs.past, Or.inl listed⟩
  | partnerClosed mayReturn waiting removed =>
      obtain ⟨room', listed, left⟩ := removed.sends
      exact leftAfter left ⟨congrArg Phase.past? waiting, Or.inl listed⟩
  | leftSent mayReturn waiting announced =>
      exact leftAfter announced.sends ⟨congrArg Phase.past? waiting, Or.inr ⟨_, _, waiting⟩⟩

end RoomMail

/-- Apart from relayed texts only the notices of a room look like notices of a room. -/
theorem Sends.authentic {w w' : World} {act : Act} {k : ConnId} {room : RoomId} {reply : Reply}
    (h : Sends w w' act k room reply) (repr : Text → Text) :
    Authentic w w' act k room (reply.text repr) := by
  have notRelay : ∀ msg, reply ≠ .relay msg := by
    rintro msg rfl
    cases h with
    | answer own => cases own
  refine ⟨?_, ?_, ?_⟩
  · intro x noSpace starts
    have command : "ROOM_PEER_MSG ".toList <+: reply.text repr :=
      ((List.prefix_append _ x).trans (List.prefix_append _ [' '])).trans starts
    rcases Reply.peerMsg_of_text_prefix command with ⟨msg, relay⟩ | ⟨uid, payload, rfl⟩
    · exact absurd relay (notRelay msg)
    · cases h with
      | answer own => cases own
      | message word writes =>
          simp only [Reply.text_peerMsg, List.append_assoc, List.prefix_append_right_inj] at starts
          have same : x = uid := word_eq_of_prefix noSpace word.space_not_mem starts
          subst same
          exact ⟨payload, rfl, writes⟩
  · intro x joined
    rcases Reply.peerJoined_of_text joined with ⟨msg, relay⟩ | rfl
    · exact absurd relay (notRelay msg)
    · cases h with
      | answer own => cases own
      | joined enters => exact enters
  · intro x left
    rcases Reply.peerLeft_of_text left with ⟨msg, relay⟩ | rfl
    · exact absurd relay (notRelay msg)
    · cases h with
      | answer own => cases own
      | left leaves => exact leaves

/--
In the runs that keep sessions and rooms apart, every text that is put on the
connection of a client that was sent `ROOM_OK`, and that looks like a message or
an announcement of its room, is one.
-/
theorem room_mail_authentic (repr : Text → Text) {w w' : World} {act : Act} {k : ConnId}
    {room : RoomId} {reply : Reply} (run : interleaved.Reachable SessionsApart w)
    (allowed : SessionsApart w act) (h : w.step act = some w') (sent : SentRoomOk w k room)
    (delivered : w'.log = w.log ++ [(k, reply)]) :
    Authentic w w' act k room (reply.text repr) := by
  have inv := RoomMail.of_reachable run
  rcases sequential_cases inv.rooms.serial allowed.sequential h with env | ⟨t, fires, rfl, others⟩
  · rw [env.log] at delivered
    simp at delivered
  · rw [World.apply_log] at delivered
    exact (inv.sends allowed fires h others sent
      (List.append_cancel_left delivered)).authentic repr

/-- The runs of `SessionsApart` on the first `n` connections, the only ones in use. -/
def apartBelow (n : Nat) (w : World) (act : Act) : Bool :=
  sequentialBelow n w act && calleeOutside w act && aloneBelow n w act

theorem sessionsApart_of_below {n : Nat} {w : World} {act : Act} (absent : AbsentFrom n w)
    (ok : apartBelow n w act = true) : SessionsApart w act := by
  simp only [apartBelow, Bool.and_eq_true] at ok
  exact ⟨sequential_of_below absent ok.1.1, ok.1.2, registersAlone_of_below absent ok.2⟩

theorem exists_apart (n : Nat) (actions : List Act) (test : World → Bool)
    (passes : (interleaved.execIf (apartBelow n) World.empty actions).any test = true) :
    ∃ w, interleaved.Reachable SessionsApart w ∧ AbsentFrom n w ∧ test w = true := by
  refine exists_below ?_ (fun w act => sessionsApart_of_below) actions test passes
  intro w act ok
  simp only [apartBelow, sequentialBelow, Bool.and_eq_true, decide_eq_true_eq] at ok
  exact ok.1.1.1

/-- One of two members of a room writes to the other. -/
theorem room_mail_pair :
    ∃ w w' act, w.step act = some w' ∧
      Authentic w w' act 0 "r".toList ("ROOM_PEER_MSG y hi".toList) := by
  obtain ⟨w, run, absent, test⟩ := exists_apart 2
    (greeting 0 "x" ++ greeting 1 "y" ++
      [.recv 0 "ROOM r".toList [] none, .resume 0 false none,
        .recv 1 "ROOM r".toList ["x".toList] none, .resume 1 false (some "x".toList),
        .resume 1 false none])
    (fun w => apartBelow 2 w (.recv 1 "ROOM_PEER_MSG x hi".toList [] none) &&
      (0, Reply.roomOk "r".toList []) ∈ w.log &&
      (w.step (.recv 1 "ROOM_PEER_MSG x hi".toList [] none)).any fun w' =>
        w'.log = w.log ++ [(0, Reply.peerMsg "y".toList "hi".toList)])
    (by decide)
  simp only [Bool.and_eq_true, decide_eq_true_eq, Option.any_eq_true] at test
  obtain ⟨⟨ok, listed⟩, w', h, delivered⟩ := test
  exact ⟨w, w', _, h, room_mail_authentic id run (sessionsApart_of_below absent ok) h ⟨_, listed⟩
    delivered⟩

/-- A client calls a member of a room and then sends it what looks like a message of the room. -/
theorem room_mail_forged :
    ¬ ∀ (repr : Text → Text) w w' act k room reply, interleaved.Reachable Sequential w →
      Sequential w act → w.step act = some w' → SentRoomOk w k room →
      w'.log = w.log ++ [(k, reply)] → Authentic w w' act k room (reply.text repr) := by
  intro authentic
  obtain ⟨w, run, absent, test⟩ := exists_sequential 2 (fun _ _ => true)
    (greeting 0 "y" ++ greeting 1 "z" ++
      [.recv 0 "ROOM r".toList [] none, .resume 0 false none,
        .recv 1 "SESSION y".toList [] none, .resume 1 false none])
    (fun w => quietBelow 2 w && w.server.peers "x".toList = none &&
      (0, Reply.roomOk "r".toList []) ∈ w.log &&
      (w.step (.recv 1 "ROOM_PEER_MSG x hi".toList [] none)).any fun w' =>
        w'.log = w.log ++ [(0, Reply.relay "ROOM_PEER_MSG x hi".toList)])
    (by decide)
  simp only [Bool.and_eq_true, decide_eq_true_eq, Option.any_eq_true] at test
  obtain ⟨⟨⟨idle, stranger⟩, listed⟩, w', h, delivered⟩ := test
  have reachable := run.mono fun _ _ allowed => allowed.1
  have forged := authentic id w w' (.recv 1 "ROOM_PEER_MSG x hi".toList [] none) 0 _ _ reachable
    (absent.quiet idle) h ⟨_, listed⟩ delivered
  obtain ⟨payload, -, writes⟩ := forged.written "x".toList (by decide) (by decide)
  cases writes with
  | peerMsg waiting registered member command fields named recipient =>
      cases stranger.symm.trans registered

end GstWebrtc.Signalling
