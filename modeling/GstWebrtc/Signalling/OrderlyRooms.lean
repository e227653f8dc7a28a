import GstWebrtc.Signalling.Authenticity

/-!
# Rooms while messages are handled to completion

Without sessions, and with one message handled at a time, no send fails, no
announcement is disturbed, and the list of a `ROOM_OK` is still right when its
recipient enters the room.  So nothing stands in the way of the results about
room views, and each member is told of each arrival and departure once.
-/

namespace GstWebrtc.Signalling

open GstWebrtc.Base GstWebrtc.Base.PyText WebRTCSimpleServer

/-- No `SESSION` command is sent. -/
def noSession : Act → Bool
  | .recv _ msg _ _ => !startsWith msg "SESSION".toList
  | _ => true

/-- The sequential runs of clients that use rooms only. -/
structure Orderly (w : World) (act : Act) : Prop where
  sequential : Sequential w act
  rooms : noSession act = true

/-! ## Sends reach open sockets -/

/-- A handler sends to its own client or to a registered peer. -/
theorem Fires.target {w : World} {act : Act} {srv : WebRTCSimpleServer} {target : ConnId}
    {reply : Reply} {phase : Phase} (fires : Fires w act (.send srv target reply phase)) :
    (target = act.conn ∧ (w.phase act.conn).Talks) ∨
    ∃ v peer, w.server.peers v = some peer ∧ peer.ws = target := by
  have known : ∀ {pid peer}, srv.peers pid = some peer → peer.ws = target →
      ∃ v peer, w.server.peers v = some peer ∧ peer.ws = target := by
    intro pid peer found own
    rcases fires.sameSockets with same | ⟨k, pick, u, -, -, other⟩
    · obtain ⟨old, was, sameWs⟩ := same pid peer found
      exact ⟨pid, old, was, sameWs.trans own⟩
    · cases other
  have left : ∀ {uid room}, LeftSent srv uid room target reply phase →
      ∃ v peer, w.server.peers v = some peer ∧ peer.ws = target := by
    rintro uid room ⟨-, -, pid, peer, -, found, own⟩
    exact known found own
  generalize turn : Turn.send srv target reply phase = t at fires
  cases fires with
  | greeted waiting fields absent word =>
      cases turn
      exact Or.inl ⟨rfl, Or.inl waiting⟩
  | sends runs =>
      cases turn
      obtain ⟨point, waiting⟩ := runs.running
      have talks : (w.phase act.conn).Talks := Or.inr (Or.inr ⟨_, _, _, waiting⟩)
      cases runs with
      | message _ handled =>
          cases handled with
          | relay registered busy linked found partnerBusy => exact Or.inr ⟨_, _, found, rfl⟩
          | peerMsg registered member command fields found assigned sameRoom =>
              exact Or.inr ⟨_, _, found, rfl⟩
          | _ => exact Or.inl ⟨rfl, talks⟩
      | room mayReturn _ entered =>
          cases entered with
          | entered registered found announced =>
              obtain ⟨-, rfl, -, pid, peer, -, -, entry, own⟩ := announced.sends
              exact Or.inr (known entry own)
      | joined mayReturn _ announced =>
          obtain ⟨-, rfl, -, pid, peer, -, -, entry, own⟩ := announced.sends
          exact Or.inr (known entry own)
  | leaves runs removed =>
      subst turn
      obtain ⟨room, -, sent⟩ := removed.sends
      exact Or.inr (left sent)
  | partnerClosed mayReturn waiting removed =>
      subst turn
      obtain ⟨room, -, sent⟩ := removed.sends
      exact Or.inr (left sent)
  | leftSent mayReturn waiting announced =>
      subst turn
      exact Or.inr (left announced.sends)
  | _ => cases turn

section Awaits

variable {srv : WebRTCSimpleServer} {uid : Uid} {t : Turn}

theorem deletePeer_not_inSend (srv : WebRTCSimpleServer) (uid : Uid) (ws : ConnId) :
    (deletePeer srv uid ws).phase.inSend = false := by
  unfold deletePeer
  split <;> rfl

theorem LeftAnnounced.awaits {ws : ConnId} {room : RoomId} {it : Iter Uid}
    (h : LeftAnnounced srv uid ws room it t) (sends : t.phase.inSend = true) :
    ∃ srv target reply phase, t = .send srv target reply phase := by
  cases h with
  | finished found same all =>
      rw [deletePeer_not_inSend] at sends
      cases sends
  | notice found same member fresh registered => exact ⟨_, _, _, _, rfl⟩
  | _ => cases sends

theorem EntryRemoved.awaits (h : EntryRemoved srv uid t) (sends : t.phase.inSend = true) :
    ∃ srv target reply phase, t = .send srv target reply phase := by
  cases h with
  | plain registered outside =>
      rw [deletePeer_not_inSend] at sends
      cases sends
  | notListed registered member found unlisted =>
      rw [deletePeer_not_inSend] at sends
      cases sends
  | leaves registered member found listed announced => exact announced.awaits sends
  | _ => cases sends

theorem Removed.awaits (h : Removed srv uid t) (sends : t.phase.inSend = true) :
    ∃ srv target reply phase, t = .send srv target reply phase := by
  cases h with
  | partner cleaned => cases sends
  | entry cleaned removed => exact removed.awaits sends

/-- A handler that waits in a send has just sent something, a ping included. -/
theorem Fires.awaits {w : World} {act : Act} (h : Fires w act t) (sends : t.phase.inSend = true) :
    (∃ srv target reply phase, t = .send srv target reply phase) ∨
    ∃ k u roomId, act = .timeout k ∧ w.phase k = .running u roomId .recv ∧
      t = .ping w.server (.running u roomId .ping) := by
  cases h with
  | greeted waiting fields absent word => exact Or.inl ⟨_, _, _, _, rfl⟩
  | timeout waiting => exact Or.inr ⟨_, _, _, rfl, waiting, rfl⟩
  | sends runs => exact Or.inl ⟨_, _, _, _, rfl⟩
  | leaves runs removed => exact Or.inl (removed.awaits sends)
  | partnerClosed mayReturn waiting removed => exact Or.inl (removed.awaits sends)
  | leftSent mayReturn waiting announced => exact Or.inl (announced.awaits sends)
  | _ => cases sends

end Awaits

/-! ## The invariant -/

structure OrderlyRooms (w : World) : Prop where
  views : RoomViews w
  mail : RoomMail w
  sending : ∀ k, (w.phase k).inSend = true → (w.conns k).usable = true
  listing : ∀ k u roomId room, w.phase k = .running u roomId (.roomOk room) →
    (w.listed k).toFinset = w.server.members room
  joining : ∀ k u roomId room it v c, w.phase k = .running u roomId (.joined room it) →
    v ≠ u → v ∉ it.seen → v ∈ w.server.members room → w.server.peers v = some ⟨c, some room⟩ →
    u ∉ w.view c
  leaving : ∀ k u ws room it v c, w.phase k = .leaving u (.left ws room it) →
    v ∉ it.seen → v ∈ w.server.members room → w.server.peers v = some ⟨c, some room⟩ →
    u ∈ w.view c

namespace OrderlyRooms

variable {w w' : World} {act : Act} {t : Turn} {u v : Uid} {k c : ConnId} {room : RoomId}

theorem no_raise (inv : OrderlyRooms w) (allowed : Orderly w act) (pick : Option Uid) :
    act ≠ .resume k true pick := by
  rintro rfl
  obtain ⟨sends, unusable⟩ := allowed.sequential rfl
  exact absurd ((inv.sending k sends).symm.trans unusable) (by simp)

theorem registersAlone (inv : OrderlyRooms w) : RegistersAlone w act := by
  rintro k pick u rfl waiting j past
  have busy : (w.phase k).idle = false := by rw [waiting]; rfl
  have other : j ≠ k := by
    rintro rfl
    rw [waiting] at past
    cases past
  have point := inv.mail.rooms.point k
  rw [waiting] at point
  cases phase : w.phase j with
  | running v roomId point' =>
      rw [phase] at past
      cases past
      have standing := inv.views.tables.standing j
      rw [phase] at standing
      obtain ⟨status, found, -⟩ := standing
      cases found.symm.trans point
  | leaving v point' =>
      exact other (inv.mail.rooms.serial j k (by rw [phase]; rfl) busy)
  | _ =>
      rw [phase] at past
      cases past

theorem roomClients (inv : OrderlyRooms w) (allowed : Orderly w act) : RoomClients w act := by
  refine ⟨inv.registersAlone, ?_⟩
  have rooms := allowed.rooms
  unfold roomsOnly
  split
  · exact rooms
  · exact absurd rfl (inv.no_raise allowed _)
  · rfl

theorem sessionsApart (inv : OrderlyRooms w) (allowed : Orderly w act) : SessionsApart w act := by
  refine ⟨allowed.sequential, ?_, inv.registersAlone⟩
  unfold calleeOutside
  split
  · next k pick =>
      split
      · next u roomId callee waiting =>
          have standing := inv.views.tables.standing k
          rw [waiting] at standing
          obtain ⟨status, -, -, impossible⟩ := standing
          exact impossible.elim
      · rfl
  · rfl

/-- No announcement is mixed up with another change of its room. -/
theorem inTurn (inv : OrderlyRooms w) (act : Act) : inTurn w act = true := by
  unfold Signalling.inTurn
  split
  · next k pick =>
      have point := inv.mail.rooms.point k
      split
      · next u roomId room waiting =>
          have listing := inv.listing k u roomId room waiting
          simp only [Bool.and_eq_true, decide_eq_true_eq, ← listing, List.mem_toFinset]
          exact ⟨fun p => id, fun p => Or.inl⟩
      · next u roomId room it waiting =>
          rw [waiting] at point
          obtain ⟨set, found, current⟩ := point
          simp [found, current.2]
      · next u ws room it waiting =>
          rw [waiting] at point
          obtain ⟨-, -, -, set, found, current⟩ := point
          simp [found, current]
      · rfl
  · rfl

/-- A handler leaves its loop only from its `recv`. -/
theorem raise_recv (inv : OrderlyRooms w) (allowed : Orderly w act) {roomId : Option RoomId}
    {srv : WebRTCSimpleServer} {exn : Exn} (runs : Runs w u roomId act (.raise srv exn)) :
    w.phase act.conn = .running u roomId .recv := by
  have members : ∀ room pid, pid ∈ w.server.members room →
      ∃ peer, w.server.peers pid = some peer := fun room pid => inv.views.tables.registered
  cases runs with
  | message waiting handled => exact waiting
  | closed unusable waiting => exact waiting
  | raised mayRaise waiting => exact absurd rfl (inv.no_raise allowed _)
  | @sessionFailed k pick callee mayReturn waiting missing =>
      have standing := inv.views.tables.standing k
      rw [waiting] at standing
      obtain ⟨status, -, -, impossible⟩ := standing
      exact impossible.elim
  | @room k pick room body mayReturn waiting entered =>
      have standing := inv.views.tables.standing k
      rw [waiting] at standing
      obtain ⟨status, registered, -, -, -, -, set, found⟩ := standing
      cases (entered.of_raise found (members room)).1.symm.trans registered
  | @joined k pick room it body mayReturn waiting announced =>
      have point := inv.mail.rooms.point k
      rw [waiting] at point
      obtain ⟨set, found, current⟩ := point
      refine (announced.not_raise found current.1.symm ?_).elim
      intro pid inside other absent
      rw [← members_of_rooms found] at inside
      obtain ⟨peer, entry⟩ := members room pid inside
      cases absent.symm.trans entry

/-- A member that is about to leave has announced itself to everybody. -/
theorem leaves_recv (inv : OrderlyRooms w) (allowed : Orderly w act) (fires : Fires w act t)
    {roomId : Option RoomId} {point : LoopPoint}
    (running : w.phase act.conn = .running u roomId point) {v : Uid} {point' : LeavePoint}
    (leaves : t.phase = .leaving v point') : point = .recv := by
  cases fires with
  | leaves runs removed =>
      cases running.symm.trans (inv.raise_recv allowed runs)
      rfl
  | partnerClosed mayReturn waiting removed => cases running.symm.trans waiting
  | leftSent mayReturn waiting announced => cases running.symm.trans waiting
  | _ => cases leaves

/-- Two members have different connections. -/
theorem conn_unique (inv : OrderlyRooms w) {peer : Peer} (found : w.server.peers u = some peer)
    (registered : w.server.peers v = some ⟨c, some room⟩) (other : v ≠ u) : c ≠ peer.ws := by
  rintro rfl
  have past := (inv.mail.rooms.owner u peer found).1
  have past' := (inv.mail.rooms.owner v _ registered).1
  rw [past] at past'
  exact other (Option.some.inj past').symm

/-- A notice to another member does not change the view of `v`. -/
theorem view_tell (inv : OrderlyRooms w) {srv : WebRTCSimpleServer} {pid : Uid} {peer : Peer}
    {reply : Reply} {phase : Phase} (found : w.server.peers pid = some peer)
    (registered : w.server.peers v = some ⟨c, some room⟩) (other : v ≠ pid) :
    (w.apply k (.send srv peer.ws reply phase)).view c = w.view c := by
  refine World.view_apply_none ?_
  simp [World.noticeTo, inv.conn_unique found registered other]

theorem joining_turn (inv : OrderlyRooms w) {own : Option Uid} (h : RoomStep w act own t)
    {roomId : Option RoomId} {it : Iter Uid} (joins : t.phase = .running u roomId (.joined room it))
    (other : v ≠ u) (fresh : v ∉ it.seen) (inside : v ∈ t.server.members room)
    (registered : t.server.peers v = some ⟨c, some room⟩) :
    u ∉ (w.apply act.conn t).view c := by
  cases h with
  | still server silent before after =>
      rcases after with ⟨past, -⟩ | ⟨v, r, r', p, p', -, running, plain⟩
      · rw [joins] at past
        cases past
      · cases joins.symm.trans running
        cases plain
  | @enters k pick u' roomId' room' set t waiting idle nonempty notSession found round =>
      cases round with
      | tell same member notSelf unseen entry =>
          cases joins
          rw [Turn.server, members_writeRoom, Function.update_self, PySet.elems_add] at inside
          rw [Turn.server, peers_writeRoom, peers_writePeer, Function.update_of_ne other]
            at registered
          rw [peers_writeRoom, peers_writePeer, Function.update_of_ne notSelf] at entry
          have member' := (Finset.mem_insert.mp inside).resolve_left other
          rw [← members_of_rooms found] at member'
          have away : v ≠ _ := fun here => fresh (here ▸ Finset.mem_insert_self _ _)
          rw [inv.view_tell entry registered away]
          rw [inv.views.agrees (congrArg Phase.past? waiting) member' registered other.symm
            (by simp [waiting, Phase.Owes])]
          exact inv.views.tables.outside_of_idle idle room
      | done same all => cases joins
  | @joins k pick u' roomId' room' it' set t waiting found round =>
      cases round with
      | tell same member notSelf unseen entry =>
          cases joins
          have away : v ≠ _ := fun here => fresh (here ▸ Finset.mem_insert_self _ _)
          rw [inv.view_tell entry registered away]
          exact inv.joining k u roomId room it' v c waiting other
            (fun seen => fresh (Finset.mem_insert_of_mem seen)) inside registered
      | done same all => cases joins
  | leaves waiting member found listed round => cases round <;> cases joins
  | tells waiting found round => cases round <;> cases joins
  | _ => cases joins

theorem leaving_turn (inv : OrderlyRooms w) (allowed : Orderly w act) {own : Option Uid}
    (fires : Fires w act t) (h : RoomStep w act own t) {ws : ConnId} {it : Iter Uid}
    (leaves : t.phase = .leaving u (.left ws room it)) (fresh : v ∉ it.seen)
    (inside : v ∈ t.server.members room)
    (registered : t.server.peers v = some ⟨c, some room⟩) :
    u ∈ (w.apply act.conn t).view c := by
  cases h with
  | still server silent before after =>
      rcases after with ⟨past, -⟩ | ⟨v, r, r', p, p', -, running, plain⟩
      · rw [leaves] at past
        cases past
      · cases leaves.symm.trans running
  | enters waiting idle nonempty notSession found round => cases round <;> cases leaves
  | joins waiting found round => cases round <;> cases leaves
  | @leaves act u' roomId point room' set t waiting member found listed round =>
      cases inv.leaves_recv allowed fires waiting leaves
      cases round with
      | tell same remains unseen entry =>
          cases leaves
          rw [Turn.server, members_writeRoom, Function.update_self] at inside
          obtain ⟨other, member'⟩ := Finset.mem_erase.mp inside
          rw [← members_of_rooms found] at member' listed
          have away : v ≠ _ := fun here => fresh (here ▸ Finset.mem_insert_self _ _)
          rw [inv.view_tell entry registered away]
          exact (inv.views.agrees (congrArg Phase.past? waiting) member' registered other.symm
            (by simp [waiting, Phase.Owes])).mpr listed
      | done same all => cases leaves
      | broken changed => cases leaves
  | @tells k pick u' room' it' set t waiting found round =>
      cases round with
      | tell same remains unseen entry =>
          cases leaves
          have away : v ≠ _ := fun here => fresh (here ▸ Finset.mem_insert_self _ _)
          rw [inv.view_tell entry registered away]
          exact inv.leaving _ u _ room it' v c waiting
            (fun seen => fresh (Finset.mem_insert_of_mem seen)) inside registered
      | done same all => cases leaves
      | broken changed => cases leaves
  | _ => cases leaves

/-- A handler awaits sends to open sockets only. -/
theorem sending_turn (inv : OrderlyRooms w) (fires : Fires w act t)
    (sends : t.phase.inSend = true) : ((w.apply act.conn t).conns act.conn).usable = true := by
  rcases fires.awaits sends with ⟨srv, target, reply, phase, rfl⟩ | ⟨k, u, roomId, rfl, waiting, rfl⟩
  · rw [World.apply_send_usable]
    rcases fires.target with ⟨rfl, talks⟩ | ⟨v, peer, found, rfl⟩
    · simpa using inv.views.tables.usable _ talks
    · simpa using (inv.mail.rooms.owner v peer found).2
  · have opened := inv.views.tables.usable k (Or.inr (Or.inr ⟨_, _, _, waiting⟩))
    simpa [World.apply, World.suspend, World.setConn, Act.conn] using opened

/-- The list of a `ROOM_OK` names the members of the room. -/
theorem listing_turn (inv : OrderlyRooms w) {own : Option Uid} (h : RoomStep w act own t)
    {roomId : Option RoomId} (waiting : t.phase = .running u roomId (.roomOk room)) :
    ((w.apply act.conn t).listed act.conn).toFinset = t.server.members room := by
  cases h with
  | still server silent before after =>
      rcases after with ⟨past, -⟩ | ⟨v, r, r', p, p', -, running, plain⟩
      · rw [waiting] at past
        cases past
      · cases waiting.symm.trans running
        cases plain
  | @lists k msg order pick v roomId' room' srv before idle nonempty notSession created nodup
      lists =>
      cases waiting
      have opened := inv.views.tables.usable k (Or.inr (Or.inr ⟨_, _, _, before⟩))
      have notice : w.noticeTo (.send srv k (.roomOk room order)
          (.running u (some room) (.roomOk room))) k = some (.roster order) := by
        simp [World.noticeTo, opened, Reply.notice]
      rw [Act.conn, World.listed_apply_roster notice, lists, Turn.server]
      rcases created with ⟨rfl, -⟩ | ⟨rfl, missing⟩
      · rfl
      · rw [members_newRoom missing]
  | enters before idle nonempty notSession found round => cases round <;> cases waiting
  | joins before found round => cases round <;> cases waiting
  | leaves before member found listed round => cases round <;> cases waiting
  | tells before found round => cases round <;> cases waiting
  | _ => cases waiting

theorem init : OrderlyRooms World.empty := by
  refine ⟨.init, .init, ?_, ?_, ?_, ?_⟩
  · rintro k ⟨⟩
  · rintro k u roomId room ⟨⟩
  · rintro k u roomId room it v c ⟨⟩
  · rintro k u ws room it v c ⟨⟩

theorem environment (inv : OrderlyRooms w) (views : RoomViews w') (mail : RoomMail w')
    (env : Environment w w') : OrderlyRooms w' := by
  have view : ∀ k, w'.view k = w.view k := fun k => by
    rw [World.view, World.notices, env.log, World.view, World.notices]
  refine ⟨views, mail, ?_, ?_, ?_, ?_⟩
  · intro k sends
    rcases env.conns k with ⟨same, usable⟩ | ⟨-, hello, -⟩
    · rw [usable]
      exact inv.sending k (same ▸ sends)
    · rw [hello] at sends
      cases sends
  · intro k u roomId room waiting
    rw [env.idle (by rw [waiting]; rfl)] at waiting
    rw [World.listed, World.notices, env.log, env.server]
    exact inv.listing k u roomId room waiting
  · intro k u roomId room it v c joins other fresh inside registered
    rw [env.idle (by rw [joins]; rfl)] at joins
    rw [env.server] at inside registered
    rw [view]
    exact inv.joining k u roomId room it v c joins other fresh inside registered
  · intro k u ws room it v c leaves fresh inside registered
    rw [env.idle (by rw [leaves]; rfl)] at leaves
    rw [env.server] at inside registered
    rw [view]
    exact inv.leaving k u ws room it v c leaves fresh inside registered

theorem step (inv : OrderlyRooms w) (allowed : Orderly w act) (h : w.step act = some w') :
    OrderlyRooms w' := by
  have clients := inv.roomClients allowed
  have views := inv.views.step clients (inv.inTurn act) h
  have mail := inv.mail.step (inv.sessionsApart allowed) h
  rcases sequential_cases inv.mail.rooms.serial allowed.sequential h with
    env | ⟨t, fires, rfl, others⟩
  · exact inv.environment views mail env
  · obtain ⟨own, turn⟩ := inv.views.tables.roomStep clients.2 fires
    -- only the handler of the turn is in the middle of something
    have self : ∀ {k}, ((w.apply act.conn t).phase k).idle = false →
        k = act.conn ∧ (w.apply act.conn t).phase k = t.phase := by
      intro k busy
      have same : k = act.conn := by
        by_contra other
        rw [World.apply_phase_of_ne _ _ _ other, others k other] at busy
        cases busy
      subst same
      exact ⟨rfl, World.apply_phase_self _ _ _⟩
    refine ⟨views, mail, ?_, ?_, ?_, ?_⟩
    · intro k sends
      obtain ⟨rfl, same⟩ := self (Phase.busy_of_awaits (Or.inl sends))
      exact inv.sending_turn fires (same ▸ sends)
    · intro k u roomId room waiting
      obtain ⟨rfl, same⟩ := self (by rw [waiting]; rfl)
      rw [World.apply_server]
      exact inv.listing_turn turn (same.symm.trans waiting)
    · intro k u roomId room it v c joins other fresh inside registered
      obtain ⟨rfl, same⟩ := self (by rw [joins]; rfl)
      rw [World.apply_server] at inside registered
      exact inv.joining_turn turn (same.symm.trans joins) other fresh inside registered
    · intro k u ws room it v c leaves fresh inside registered
      obtain ⟨rfl, same⟩ := self (by rw [leaves]; rfl)
      rw [World.apply_server] at inside registered
      exact inv.leaving_turn allowed fires turn (same.symm.trans leaves) fresh inside registered

theorem of_reachable (run : interleaved.Reachable Orderly w) : OrderlyRooms w :=
  run.invariant init fun _ _ _ inv allowed h => inv.step allowed h

end OrderlyRooms

end GstWebrtc.Signalling
