import GstWebrtc.Signalling.SessionTable

/-!
# The room table

Membership is recorded in `rooms` and again as a status in `peers`.  In
sequential runs both records agree, provided no session is registered with a
callee that is in a room: the registration overwrites the callee's status and
leaves it in the set.
-/

namespace GstWebrtc.Signalling

open GstWebrtc.Base GstWebrtc.Base.PyText WebRTCSimpleServer

/-- What the tables promise whenever no message is being handled. -/
structure RoomTables (w : World) : Prop where
  member_iff : ∀ room u, room ≠ inSession →
    (u ∈ w.server.members room ↔
      ∃ peer, w.server.peers u = some peer ∧ peer.status = some room)
  oneRoom : ∀ room room' u, u ∈ w.server.members room → u ∈ w.server.members room' → room = room'
  connected : ∀ room u, u ∈ w.server.members room → ∃ peer roomId,
    w.server.peers u = some peer ∧ w.phase peer.ws = .running u roomId .recv
  notInSession : ∀ room u peer, w.server.peers u = some peer → peer.status = some inSession →
    u ∉ w.server.members room

/-- A session is registered only with a callee that is in no room. -/
def calleeOutside (w : World) : Act → Bool
  | .resume k false _ =>
      match w.phase k with
      | .running _ _ (.sessionOk callee) =>
          (w.server.peers callee).all fun peer => peer.status.all fun status => status = inSession
      | _ => true
  | _ => true

/-- The same promise between two awaits; the uids in `exempt` are leaving their room. -/
structure Rooms (srv : WebRTCSimpleServer) (exempt : Uid → Prop) : Prop where
  listed : ∀ room u, u ∈ srv.members room → room ≠ [] ∧ room ≠ inSession ∧
    ∃ peer, srv.peers u = some peer ∧ peer.status = some room
  counted : ∀ u peer room, srv.peers u = some peer → peer.status = some room →
    room ≠ inSession → exempt u ∨ u ∈ srv.members room
  partnered : ∀ a b, srv.sessions a = some b →
    ∃ peer, srv.peers a = some peer ∧ peer.status = some inSession

namespace Rooms

variable {srv : WebRTCSimpleServer} {exempt weaker : Uid → Prop} {uid : Uid} {peer : Peer}

theorem empty (exempt : Uid → Prop) : Rooms WebRTCSimpleServer.empty exempt := by
  refine ⟨?_, by rintro u peer room ⟨⟩, by rintro a b ⟨⟩⟩
  intro room u inside
  exact absurd inside (Finset.notMem_empty u)

theorem mono (h : Rooms srv exempt) (weaken : ∀ a, exempt a → weaker a) : Rooms srv weaker :=
  ⟨h.listed, fun u peer room found status room' =>
    (h.counted u peer room found status room').imp_left (weaken u), h.partnered⟩

theorem of_tables {srv' : WebRTCSimpleServer} (h : Rooms srv exempt)
    (peers : srv'.peers = srv.peers) (sessions : srv'.sessions = srv.sessions)
    (members : srv'.members = srv.members) : Rooms srv' exempt := by
  refine ⟨?_, ?_, ?_⟩
  · rw [members, peers]
    exact h.listed
  · rw [members, peers]
    exact h.counted
  · rw [sessions, peers]
    exact h.partnered

theorem outside_of_absent (h : Rooms srv exempt) (absent : srv.peers uid = none)
    (room : RoomId) : uid ∉ srv.members room := by
  intro inside
  obtain ⟨-, -, peer, found, -⟩ := h.listed room uid inside
  exact absurd (absent.symm.trans found) (by simp)

theorem outside_of_status (h : Rooms srv exempt) (found : srv.peers uid = some peer)
    (status : ∀ room, ¬ IsRoom peer.status room) (room : RoomId) : uid ∉ srv.members room := by
  intro inside
  obtain ⟨nonempty, notSession, peer', found', inRoom⟩ := h.listed room uid inside
  cases found.symm.trans found'
  exact status room ⟨inRoom, nonempty, notSession⟩

theorem alone_of_absent (h : Rooms srv exempt) (absent : srv.peers uid = none) :
    srv.sessions uid = none := by
  cases linked : srv.sessions uid with
  | none => rfl
  | some other =>
      obtain ⟨peer, found, -⟩ := h.partnered uid other linked
      exact absurd (absent.symm.trans found) (by simp)

theorem alone_of_status (h : Rooms srv exempt) (found : srv.peers uid = some peer)
    (idle : peer.status ≠ some inSession) : srv.sessions uid = none := by
  cases linked : srv.sessions uid with
  | none => rfl
  | some other =>
      obtain ⟨peer', found', busy⟩ := h.partnered uid other linked
      cases found.symm.trans found'
      exact absurd busy idle

/-- The entry of a uid in no room and no session is written or deleted. -/
theorem writePeer (h : Rooms srv exempt) (outside : ∀ room, uid ∉ srv.members room)
    (alone : srv.sessions uid = none) {entry : Option Peer}
    (idle : ∀ peer, entry = some peer → peer.status = none)
    (released : ∀ a, exempt a → a = uid ∨ weaker a) :
    Rooms (srv.writePeer uid entry) weaker := by
  refine ⟨?_, ?_, ?_⟩
  · intro room u inside
    rw [members_writePeer] at inside
    have other : u ≠ uid := by
      rintro rfl
      exact outside room inside
    simpa [other] using h.listed room u inside
  · intro u peer room found status notSession
    rw [members_writePeer]
    by_cases same : u = uid
    · subst same
      have none := idle peer (by simpa using found)
      exact absurd (none.symm.trans status) (by simp)
    · have before := h.counted u peer room (by simpa [same] using found) status notSession
      exact before.imp_left fun e => (released u e).resolve_left same
  · intro a b linked
    have other : a ≠ uid := by
      rintro rfl
      exact absurd (alone.symm.trans linked) (by simp)
    simpa [other] using h.partnered a b linked

theorem newRoom (h : Rooms srv exempt) {room : RoomId} (missing : srv.rooms room = none) :
    Rooms (srv.writeRoom room .empty) exempt := by
  refine h.of_tables rfl rfl ?_
  rw [members_writeRoom]
  refine Function.update_eq_self_iff.mpr ?_
  simp [members, missing]

/-- Neither of the two is in a room when their session is registered. -/
theorem registerSession (h : Rooms srv exempt) {callee : Uid} {srv' : WebRTCSimpleServer}
    (linked : srv.registerSession uid callee = some srv')
    (caller : ∀ room, uid ∉ srv.members room) (outside : ∀ room, callee ∉ srv.members room) :
    Rooms srv' exempt := by
  obtain ⟨peer, calleePeer, huid, hcallee, hpeers, hsessions, hrooms⟩ := registerSession_eq linked
  have others : ∀ u, u ≠ uid → u ≠ callee → srv'.peers u = srv.peers u := by
    intro u notCaller notCallee
    rw [hpeers]
    simp [notCaller, notCallee]
  have busy : ∀ u, u = uid ∨ u = callee →
      ∃ peer, srv'.peers u = some peer ∧ peer.status = some inSession := by
    intro u either
    rw [hpeers]
    by_cases isCallee : u = callee
    · exact ⟨_, by rw [isCallee, Function.update_self], rfl⟩
    · have isCaller := either.resolve_right isCallee
      exact ⟨_, by rw [Function.update_of_ne isCallee, isCaller, Function.update_self], rfl⟩
  have members := members_congr hrooms
  refine ⟨?_, ?_, ?_⟩
  · intro room u inside
    rw [members] at inside
    have notCaller : u ≠ uid := by
      rintro rfl
      exact caller room inside
    have notCallee : u ≠ callee := by
      rintro rfl
      exact outside room inside
    rw [others u notCaller notCallee]
    exact h.listed room u inside
  · intro u found room hfound status notSession
    rw [members]
    by_cases either : u = uid ∨ u = callee
    · obtain ⟨peer', found', busy'⟩ := busy u either
      cases hfound.symm.trans found'
      exact absurd (Option.some.inj (status.symm.trans busy')) notSession
    · rw [not_or] at either
      rw [others u either.1 either.2] at hfound
      exact h.counted u found room hfound status notSession
  · intro a b found
    by_cases either : a = uid ∨ a = callee
    · exact busy a either
    · rw [not_or] at either
      rw [others a either.1 either.2]
      refine h.partnered a b ?_
      rw [hsessions] at found
      simpa [either.1, either.2] using found

/-- An idle peer enters a room. -/
theorem enterRoom (h : Rooms srv exempt) {room : RoomId} {set : PySet Uid}
    (registered : srv.peers uid = some peer) (idle : peer.status = none)
    (found : srv.rooms room = some set) (nonempty : room ≠ []) (notSession : room ≠ inSession) :
    Rooms ((srv.writePeer uid (some { peer with status := some room })).writeRoom room
      (set.add uid)) exempt := by
  have noStatus : ∀ r, ¬ IsRoom peer.status r := by
    rintro r ⟨status, -⟩
    exact absurd (idle.symm.trans status) (by simp)
  have outside := h.outside_of_status registered noStatus
  have alone : srv.sessions uid = none := h.alone_of_status registered (by simp [idle])
  have members : ∀ r u, u ∈ Function.update srv.members room (set.add uid).elems r ↔
      (u = uid ∧ r = room) ∨ u ∈ srv.members r := by
    intro r u
    by_cases same : r = room
    · subst same
      simp [members_of_rooms found]
    · simp [same]
  refine ⟨?_, ?_, ?_⟩
  · intro r u inside
    rw [members_writeRoom, members_writePeer, members] at inside
    by_cases self : u = uid
    · subst self
      have same : r = room := inside.elim And.right fun old => absurd old (outside r)
      subst same
      exact ⟨nonempty, notSession, { peer with status := some r }, by simp, rfl⟩
    · simpa [self] using h.listed r u (inside.resolve_left fun both => self both.1)
  · intro u entry r hentry status notSession'
    rw [members_writeRoom, members_writePeer, members]
    by_cases self : u = uid
    · subst self
      have same : { peer with status := some room } = entry := by simpa using hentry
      rw [← same] at status
      exact Or.inr (Or.inl ⟨rfl, (Option.some.inj status).symm⟩)
    · exact (h.counted u entry r (by simpa [self] using hentry) status notSession').imp_right Or.inr
  · intro a b linked
    have other : a ≠ uid := by
      rintro rfl
      exact absurd (alone.symm.trans linked) (by simp)
    simpa [other] using h.partnered a b linked

/-- `uid` is taken out of the set of its room and keeps its entry for the moment. -/
theorem leaveRoom (h : Rooms srv exempt) {room : RoomId} {set : PySet Uid}
    (found : srv.rooms room = some set) :
    Rooms (srv.writeRoom room (set.remove uid)) (fun a => exempt a ∨ a = uid) := by
  have members : ∀ r u, u ∈ Function.update srv.members room (set.remove uid).elems r ↔
      u ∈ srv.members r ∧ ¬ (u = uid ∧ r = room) := by
    intro r u
    by_cases same : r = room
    · subst same
      simp [members_of_rooms found, and_comm]
    · simp [same]
  refine ⟨?_, ?_, h.partnered⟩
  · intro r u inside
    rw [members_writeRoom, members] at inside
    exact h.listed r u inside.1
  · intro u peer r hu status notSession
    rw [members_writeRoom, members]
    rcases h.counted u peer r hu status notSession with e | inside
    · exact Or.inl (Or.inl e)
    · by_cases self : u = uid
      · exact Or.inl (Or.inr self)
      · exact Or.inr ⟨inside, fun both => self both.1⟩

theorem cleaned {result : WebRTCSimpleServer × Option ConnId} (h : Rooms srv exempt)
    (cleaned : SessionCleaned srv uid result) :
    Rooms result.1 exempt ∧ result.1.sessions uid = none := by
  have drop : ∀ (other : Uid) (srv' : WebRTCSimpleServer), srv'.peers = srv.peers →
      srv'.members = srv.members →
      srv'.sessions = Function.update (Function.update srv.sessions uid none) other none →
      Rooms srv' exempt ∧ srv'.sessions uid = none ∧ srv'.sessions other = none := by
    intro other srv' peers members sessions
    refine ⟨⟨?_, ?_, ?_⟩, ?_, ?_⟩
    · rw [members, peers]
      exact h.listed
    · rw [members, peers]
      exact h.counted
    · intro a b linked
      rw [sessions] at linked
      have notOther : a ≠ other := by
        rintro rfl
        simp at linked
      have notUid : a ≠ uid := by
        rintro rfl
        simp [notOther] at linked
      rw [peers]
      exact h.partnered a b (by simpa [notOther, notUid] using linked)
    · rw [sessions]
      by_cases same : uid = other
      · simp [same]
      · simp [same]
    · simp [sessions]
  cases cleaned with
  | unlinked alone => exact ⟨h, alone⟩
  | oneSided linked noBack =>
      obtain ⟨after, alone, -⟩ := drop uid (srv.writeSession uid none) rfl
        (members_writeSession _ _ _) (by simp)
      exact ⟨after, alone⟩
  | @partnerGone other back linked different linkedBack absent =>
      obtain ⟨after, alone, -⟩ := drop other ((srv.writeSession uid none).writeSession other none)
        rfl (members_congr rfl) rfl
      exact ⟨after, alone⟩
  | @partner other back peer linked different linkedBack registered =>
      obtain ⟨after, alone, partnerAlone⟩ := drop other
        ((srv.writeSession uid none).writeSession other none) rfl (members_congr rfl) rfl
      obtain ⟨peer', found', busy⟩ := h.partnered other back linkedBack
      have notRoom : ∀ room, ¬ IsRoom peer'.status room := by
        rintro room ⟨status, -, notSession⟩
        exact notSession (Option.some.inj (busy.symm.trans status)).symm
      exact ⟨after.writePeer (after.outside_of_status found' notRoom) partnerAlone
        (by rintro peer ⟨⟩) fun a e => Or.inr e, alone⟩

end Rooms

/-! ## Removal while the tables are in order -/

/-- The handler announces to its room that `uid` leaves. -/
def Phase.LeavesRoom (uid : Uid) (phase : Phase) : Prop :=
  ∃ ws room it, phase = .leaving uid (.left ws room it)

/-- What the handler's point says about the tables. -/
def Phase.RoomPoint (srv : WebRTCSimpleServer) : Phase → Prop
  | ack uid => srv.peers uid = none
  | running uid _ (.sessionOk _) => ∃ peer, srv.peers uid = some peer ∧ peer.status = none
  | running uid _ (.roomOk room) =>
      (∃ peer, srv.peers uid = some peer ∧ peer.status = none) ∧ room ≠ [] ∧ room ≠ inSession ∧
        ∃ set, srv.rooms room = some set
  | running _ _ (.joined room it) => ∃ set, srv.rooms room = some set ∧ it.Current set
  | leaving uid .partner => srv.sessions uid = none
  | leaving uid (.left ws room it) =>
      srv.sessions uid = none ∧ (∀ r, uid ∉ srv.members r) ∧
        (∃ peer, srv.peers uid = some peer ∧ peer.ws = ws) ∧
        ∃ set, srv.rooms room = some set ∧ it.Current set
  | leaving uid .close => srv.peers uid = none
  | _ => True

theorem Phase.roomPoint_idle {phase : Phase} (h : phase.idle = true)
    (srv : WebRTCSimpleServer) : phase.RoomPoint srv := by
  cases phase with
  | running uid roomId point =>
      cases point with
      | recv => trivial
      | _ => cases h
  | ack uid => cases h
  | leaving uid point => cases h
  | _ => trivial

/-- A turn of `remove_peer(uid)` by handler `k` that leaves the tables in order. -/
structure Departed (srv : WebRTCSimpleServer) (uid : Uid) (k : ConnId) (t : Turn) : Prop where
  tables : Rooms t.server fun a => t.phase.LeavesRoom a
  point : t.phase.RoomPoint t.server
  /-- The handler does not end before the entry of its uid is gone. -/
  kept : ∀ peer, t.server.peers uid = some peer → t.phase.past? = some uid
  /-- A socket is closed together with the deletion of the entry it was found in. -/
  closes : ∀ j, t.closes k = some j → (j = k ∧ t.phase.past? = none) ∨
    ∃ v peer, srv.peers v = some peer ∧ peer.ws = j ∧ t.server.peers v = none
  /-- A notice goes to a registered peer. -/
  notices : ∀ u, t.phase.LeavesRoom u → ∃ srv' target reply phase v peer,
    t = .send srv' target reply phase ∧ srv.peers v = some peer ∧ peer.ws = target

section Removal

variable {srv : WebRTCSimpleServer} {exempt : Uid → Prop} {uid : Uid} {k : ConnId} {t : Turn}

/-- `del self.peers[uid]` for a uid that is in no room and no session. -/
theorem deletePeer_departed {peer : Peer} (rooms : Rooms srv exempt)
    (outside : ∀ room, uid ∉ srv.members room) (alone : srv.sessions uid = none)
    (registered : srv.peers uid = some peer) (only : ∀ a, exempt a → a = uid) :
    Departed srv uid k (deletePeer srv uid peer.ws) := by
  have result : deletePeer srv uid peer.ws =
      .close (srv.writePeer uid none) peer.ws (.leaving uid .close) := by
    simp [deletePeer, registered]
  rw [result]
  refine ⟨?_, ?_, fun _ _ => rfl, ?_, ?_⟩
  · exact rooms.writePeer outside alone (by rintro peer ⟨⟩) fun a e => Or.inl (only a e)
  · simp [Turn.phase, Turn.server, Phase.RoomPoint]
  · intro j closes
    refine Or.inr ⟨uid, peer, registered, Option.some.inj closes, ?_⟩
    simp [Turn.server]
  · rintro u ⟨ws, room, it, leaving⟩
    cases leaving

/-- An undisturbed round of the loop in `cleanup_room`. -/
theorem LeftAnnounced.departed {ws : ConnId} {room : RoomId} {it : Iter Uid} {set : PySet Uid}
    (announced : LeftAnnounced srv uid ws room it t) (rooms : Rooms srv exempt)
    (outside : ∀ room, uid ∉ srv.members room) (alone : srv.sessions uid = none)
    (registered : ∃ peer, srv.peers uid = some peer ∧ peer.ws = ws)
    (only : ∀ a, exempt a → a = uid) (found : srv.rooms room = some set)
    (current : it.Current set) : Departed srv uid k t := by
  obtain ⟨peer, entry, rfl⟩ := registered
  cases announced with
  | changedSize found' changed =>
      cases found.symm.trans found'
      exact absurd current.1.symm changed
  | finished found' same all => exact deletePeer_departed rooms outside alone entry only
  | missing found' member absent =>
      rw [← members_of_rooms found'] at member
      exact absurd member (rooms.outside_of_absent absent room)
  | notice found' same member fresh recipient =>
      cases found.symm.trans found'
      refine ⟨?_, ?_, fun _ _ => rfl, by rintro j ⟨⟩, ?_⟩
      · refine rooms.mono fun a e => ?_
        obtain rfl := only a e
        exact ⟨_, _, _, rfl⟩
      · exact ⟨alone, outside, ⟨peer, entry, rfl⟩, set, found, current⟩
      · rintro u -
        exact ⟨_, _, _, _, _, _, rfl, recipient, rfl⟩

theorem EntryRemoved.departed (removed : EntryRemoved srv uid t)
    (rooms : Rooms srv fun _ => False) (alone : srv.sessions uid = none) :
    Departed srv uid k t := by
  have settled : ∀ weaker, Rooms srv weaker := fun weaker => rooms.mono fun _ => False.elim
  have listed : ∀ {peer room}, srv.peers uid = some peer → IsRoom peer.status room →
      uid ∈ srv.members room :=
    fun registered member =>
      (rooms.counted uid _ _ registered member.1 member.2.2).resolve_left id
  cases removed with
  | absent unregistered =>
      refine ⟨settled _, trivial, ?_, ?_, ?_⟩
      · intro peer found
        exact absurd (unregistered.symm.trans found) (by simp)
      · intro j closes
        exact Or.inl ⟨(Option.some.inj closes).symm, rfl⟩
      · rintro u ⟨ws, room, it, leaving⟩
        cases leaving
  | plain registered outside =>
      exact deletePeer_departed rooms (rooms.outside_of_status registered outside) alone registered
        fun _ => False.elim
  | noRoom registered member missing =>
      have inside := listed registered member
      simp [members, missing] at inside
  | notListed registered member found unlisted =>
      have inside := listed registered member
      rw [members_of_rooms found] at inside
      exact absurd inside unlisted
  | @leaves peer room set t registered member found inside announced =>
      have left : Rooms (srv.writeRoom room (set.remove uid)) (fun a => a = uid) :=
        (rooms.leaveRoom found).mono fun a e => e.resolve_left id
      have outside : ∀ r, uid ∉ (srv.writeRoom room (set.remove uid)).members r := by
        intro r
        rw [members_writeRoom]
        by_cases same : r = room
        · simp [same]
        · rw [Function.update_of_ne same]
          intro other
          obtain ⟨-, -, peer', found', status⟩ := rooms.listed r uid other
          cases registered.symm.trans found'
          exact same (Option.some.inj (status.symm.trans member.1))
      have done := announced.departed (k := k) left outside alone ⟨peer, registered, rfl⟩
        (fun _ => id) (by simp) (Iter.current_iter _ _)
      exact ⟨done.tables, done.point, done.kept, done.closes, done.notices⟩

theorem Removed.departed (removed : Removed srv uid t) (rooms : Rooms srv fun _ => False) :
    Departed srv uid k t := by
  cases removed with
  | partner cleaned =>
      obtain ⟨after, alone⟩ := rooms.cleaned cleaned
      refine ⟨after.mono fun _ => False.elim, alone, fun _ _ => rfl, ?_, ?_⟩
      · intro j closes
        cases cleaned with
        | partner linked different linkedBack registered =>
            exact Or.inr ⟨_, _, registered, Option.some.inj closes, by simp [Turn.server]⟩
      · rintro u ⟨ws, room, it, leaving⟩
        cases leaving
  | entry cleaned removed =>
      obtain ⟨after, alone⟩ := rooms.cleaned cleaned
      have done := removed.departed (k := k) after alone
      refine ⟨done.tables, done.point, done.kept, ?_, ?_⟩
      · intro j closes
        refine (done.closes j closes).imp_right ?_
        rintro ⟨v, peer, found, rest⟩
        exact ⟨v, peer, cleaned.shrinks.peers v peer found, rest⟩
      · intro u leaves
        obtain ⟨srv', target, reply, phase, v, peer, sends, found, same⟩ := done.notices u leaves
        exact ⟨srv', target, reply, phase, v, peer, sends,
          cleaned.shrinks.peers v peer found, same⟩

end Removal

/-! ## One step -/

structure RoomInv (w : World) : Prop where
  serial : w.Serial
  tables : Rooms w.server fun a => ∃ k, (w.phase k).LeavesRoom a
  point : ∀ k, (w.phase k).RoomPoint w.server
  owner : ∀ u peer, w.server.peers u = some peer →
    (w.phase peer.ws).past? = some u ∧ w.socket peer.ws ≠ .closed
  fresh : ∀ k, (w.phase k = .hello ∨ ∃ u, w.phase k = .ack u) → w.socket k ≠ .closed
  usable : ∀ k u, (w.phase k).LeavesRoom u → (w.conns k).usable = true

section Step

variable {w w' : World} {act : Act} {t : Turn}

/-- The conditions on what a stretch of the loop leaves behind when it does not raise. -/
theorem Runs.rooms {uid : Uid} {roomId : Option RoomId} {body : Body}
    (runs : Runs w uid roomId act body) (tables : Rooms w.server fun _ => False)
    (point : (w.phase act.conn).RoomPoint w.server) (outside : calleeOutside w act = true) :
    Rooms body.server (fun _ => False) ∧
      body.Next uid fun srv phase => phase.RoomPoint srv := by
  have apart : ∀ {u : Uid} {peer : Peer}, w.server.peers u = some peer →
      (∀ status, peer.status = some status → status = inSession) →
      ∀ room, u ∉ w.server.members room := by
    intro u peer registered notRoom
    refine tables.outside_of_status registered ?_
    rintro room ⟨status, -, notSession⟩
    exact notSession (notRoom room status)
  cases runs with
  | message waiting handled =>
      cases handled with
      | newRoom registered idle command fields valid notSession missing lists =>
          exact ⟨tables.newRoom missing, ⟨_, registered, idle⟩, valid.ne_nil, notSession,
            PySet.empty, by simp⟩
      | oldRoom registered idle command fields valid notSession found fresh lists =>
          exact ⟨tables, ⟨_, registered, idle⟩, valid.ne_nil, notSession, _, found⟩
      | sessionOk registered idle command fields found => exact ⟨tables, _, registered, idle⟩
      | _ => exact ⟨tables, trivial⟩
  | closed unusable waiting => exact ⟨tables, trivial⟩
  | raised mayRaise waiting => exact ⟨tables, trivial⟩
  | continued mayReturn waiting plain => exact ⟨tables, trivial⟩
  | session mayReturn waiting linked =>
      obtain ⟨-, calleePeer, -, found, -⟩ := registerSession_eq linked
      simp only [Act.conn, waiting] at point
      obtain ⟨peer, registered, idle⟩ := point
      simp only [calleeOutside, waiting, found, Option.all_some, Option.all_eq_true,
        decide_eq_true_eq] at outside
      refine ⟨tables.registerSession linked (apart registered ?_) (apart found outside), trivial⟩
      intro status busy
      exact absurd (idle.symm.trans busy) (by simp)
  | sessionFailed mayReturn waiting missing => exact ⟨tables, trivial⟩
  | room mayReturn waiting entered =>
      simp only [Act.conn, waiting] at point
      obtain ⟨⟨peer, registered, idle⟩, nonempty, notSession, set, found⟩ := point
      cases entered with
      | unregistered absent => exact absurd (absent.symm.trans registered) (by simp)
      | noRoom _ missing => exact absurd (missing.symm.trans found) (by simp)
      | entered registered' found' announced =>
          cases registered.symm.trans registered'
          cases found.symm.trans found'
          refine ⟨?_, ?_⟩
          · rw [announced.server_eq]
            exact tables.enterRoom registered idle found nonempty notSession
          · cases announced with
            | notice found same member other fresh registered =>
                exact ⟨_, by simp, Iter.current_iter _ _⟩
            | _ => trivial
  | joined mayReturn waiting announced =>
      simp only [Act.conn, waiting] at point
      refine ⟨?_, ?_⟩
      · rw [announced.server_eq]
        exact tables
      · cases announced with
        | notice found same member other fresh registered => exact point
        | _ => trivial

/-- What a turn leaves behind, and which sockets it closes. -/
structure Settled (w : World) (k : ConnId) (t : Turn) : Prop where
  tables : Rooms t.server fun a => t.phase.LeavesRoom a
  point : t.phase.RoomPoint t.server
  kept : ∀ u peer, (w.phase k).past? = some u → t.server.peers u = some peer →
    t.phase.past? = some u
  closes : ∀ j, t.closes k = some j → (j = k ∧ t.phase.past? = none) ∨
    ∃ v peer, w.server.peers v = some peer ∧ peer.ws = j ∧ t.server.peers v = none
  notices : ∀ u, t.phase.LeavesRoom u → ∃ srv target reply phase v peer,
    t = .send srv target reply phase ∧ w.server.peers v = some peer ∧ peer.ws = target

theorem Departed.settled {srv : WebRTCSimpleServer} {uid : Uid} {k : ConnId}
    (done : Departed srv uid k t) (past : (w.phase k).past? = some uid)
    (entries : SameSockets w.server srv) : Settled w k t where
  tables := done.tables
  point := done.point
  kept u peer past' found := by
    cases past.symm.trans past'
    exact done.kept peer found
  closes j closes := by
    refine (done.closes j closes).imp_right ?_
    rintro ⟨v, peer, found, same, deleted⟩
    obtain ⟨old, was, sameWs⟩ := entries v peer found
    exact ⟨v, old, was, sameWs.trans same, deleted⟩
  notices u leaves := by
    obtain ⟨srv', target, reply, phase, v, peer, sends, found, same⟩ := done.notices u leaves
    obtain ⟨old, was, sameWs⟩ := entries v peer found
    exact ⟨srv', target, reply, phase, v, old, sends, was, sameWs.trans same⟩

/-- A turn that is no part of a removal and closes no socket but the handler's own. -/
theorem settled_of_phase {k : ConnId} (tables : Rooms t.server fun _ => False)
    (point : t.phase.RoomPoint t.server) (stays : ∀ u, ¬ t.phase.LeavesRoom u)
    (past : (w.phase k).past? = none ∨ t.phase.past? = (w.phase k).past?)
    (closes : ∀ j, t.closes k = some j → j = k ∧ t.phase.past? = none) : Settled w k t where
  tables := tables.mono fun _ => False.elim
  point := point
  kept u peer past' found := by
    rcases past with none | same
    · exact absurd (none.symm.trans past') (by simp)
    · exact same.trans past'
  closes j h := Or.inl (closes j h)
  notices u leaves := absurd leaves (stays u)

theorem Phase.not_leavesRoom {phase : Phase} (outside : phase.past? = none) (a : Uid) :
    ¬ phase.LeavesRoom a := by
  rintro ⟨ws, room, it, rfl⟩
  cases outside

/-- A turn of a handler whose client is not registered, and does not become so. -/
theorem settled_of_unregistered {k : ConnId}
    (tables : Rooms w.server fun a => (w.phase k).LeavesRoom a)
    (before : (w.phase k).past? = none) (server : t.server = w.server)
    (point : t.phase.RoomPoint w.server) (after : t.phase.past? = none)
    (closes : ∀ j, t.closes k = some j → j = k) : Settled w k t := by
  rw [← server] at tables point
  refine settled_of_phase ?_ point (Phase.not_leavesRoom after) (Or.inl before)
    fun j closed => ⟨closes j closed, after⟩
  exact tables.mono fun a leaves => absurd leaves (Phase.not_leavesRoom before a)

theorem Fires.settled (fires : Fires w act t) (seq : Sequential w act)
    (outside : calleeOutside w act = true)
    (tables : Rooms w.server fun a => (w.phase act.conn).LeavesRoom a)
    (point : (w.phase act.conn).RoomPoint w.server)
    (usable : ∀ u, (w.phase act.conn).LeavesRoom u → (w.conns act.conn).usable = true) :
    Settled w act.conn t := by
  have base : (∀ a, ¬ (w.phase act.conn).LeavesRoom a) → Rooms w.server fun _ => False :=
    fun elsewhere => tables.mono fun a leaves => absurd leaves (elsewhere a)
  have running : ∀ {uid roomId body}, Runs w uid roomId act body →
      Rooms w.server fun _ => False := by
    intro uid roomId body runs
    obtain ⟨point', waiting⟩ := runs.running
    exact base (by simp [waiting, Phase.LeavesRoom])
  cases fires with
  | greeted waiting fields absent word =>
      exact settled_of_unregistered tables (congrArg Phase.past? waiting) rfl absent rfl
        (by rintro j ⟨⟩)
  | @registered k pick uid mayReturn waiting =>
      have settled := base (by simp [Act.conn, waiting, Phase.LeavesRoom])
      simp only [Act.conn, waiting] at point
      have after : Rooms (w.server.register k uid) fun _ => False :=
        settled.writePeer (settled.outside_of_absent point) (settled.alone_of_absent point)
          (by simp) fun _ => Or.inr
      exact settled_of_phase after trivial (by simp [Turn.phase, Phase.LeavesRoom])
        (Or.inl (by rw [Act.conn, waiting]; rfl)) (by rintro j ⟨⟩)
  | timeout waiting =>
      exact settled_of_phase (base (by simp [Act.conn, waiting, Phase.LeavesRoom])) trivial
        (by simp [Turn.phase, Phase.LeavesRoom]) (Or.inr (by rw [Act.conn, waiting]; rfl))
        (by rintro j ⟨⟩)
  | loops runs =>
      obtain ⟨after, -⟩ := runs.rooms (running runs) point outside
      exact settled_of_phase after trivial (by simp [Turn.phase, Phase.LeavesRoom])
        (Or.inr runs.past.symm) (by rintro j ⟨⟩)
  | sends runs =>
      obtain ⟨after, next⟩ := runs.rooms (running runs) point outside
      exact settled_of_phase after next (by simp [Turn.phase, Phase.LeavesRoom])
        (Or.inr runs.past.symm) (by rintro j ⟨⟩)
  | leaves runs removed =>
      have after := (runs.rooms (running runs) point outside).1
      exact (removed.departed after).settled runs.past runs.sameEntries.sameSockets
  | partnerClosed mayReturn waiting removed =>
      have settled := base (by simp [Act.conn, waiting, Phase.LeavesRoom])
      simp only [Act.conn, waiting] at point
      exact (removed.departed settled point).settled (congrArg Phase.past? waiting) (.of_peers rfl)
  | leftSent mayReturn waiting announced =>
      simp only [Act.conn, waiting] at point tables
      obtain ⟨alone, outside', registered, set, found, current⟩ := point
      refine (announced.departed tables outside' alone registered ?_ found current).settled
        (congrArg Phase.past? waiting) (.of_peers rfl)
      rintro a ⟨ws, room, it, leaving⟩
      cases leaving
      rfl
  | @leaveRaised k pick uid point' mayRaise waiting =>
      -- a close does not fail, and a notice goes to an open socket
      obtain ⟨sending, unusable⟩ := seq rfl
      rw [waiting] at sending
      cases point' with
      | left ws room it =>
          have ok : (w.conns k).usable = true := usable uid ⟨ws, room, it, waiting⟩
          exact absurd (ok.symm.trans unusable) (by simp)
      | _ => cases sending
  | @finished k pick uid waiting =>
      have settled := base (by simp [Act.conn, waiting, Phase.LeavesRoom])
      simp only [Act.conn, waiting] at point
      refine ⟨settled.mono fun _ => False.elim, trivial, ?_, ?_, ?_⟩
      · intro u peer past found
        rw [Act.conn, waiting] at past
        cases past
        exact absurd (point.symm.trans found) (by simp)
      · intro j closes
        exact Or.inl ⟨(Option.some.inj closes).symm, rfl⟩
      · rintro u ⟨ws, room, it, leaving⟩
        cases leaving
  | refused waiting =>
      exact settled_of_unregistered tables (congrArg Phase.past? waiting) rfl trivial rfl
        fun j closes => (Option.some.inj closes).symm
  | helloFailed waiting =>
      exact settled_of_unregistered tables (congrArg Phase.past? waiting) rfl trivial rfl
        fun j closes => (Option.some.inj closes).symm
  | helloClosed unusable waiting =>
      exact settled_of_unregistered tables (congrArg Phase.past? waiting) rfl trivial rfl
        fun j closes => (Option.some.inj closes).symm
  | rejected waiting =>
      exact settled_of_unregistered tables (congrArg Phase.past? waiting) rfl trivial rfl
        fun j closes => (Option.some.inj closes).symm
  | ackFailed mayRaise waiting =>
      exact settled_of_unregistered tables (congrArg Phase.past? waiting) rfl trivial rfl
        fun j closes => (Option.some.inj closes).symm

end Step

namespace RoomInv

variable {w w' : World} {act : Act}

theorem init : RoomInv World.empty := by
  refine ⟨World.serial_empty, .empty _, fun _ => trivial, by rintro u peer ⟨⟩, ?_, ?_⟩
  · rintro k (hello | ⟨u, ack⟩)
    · cases hello
    · cases ack
  · rintro k u ⟨ws, room, it, leaving⟩
    cases leaving

theorem environment (inv : RoomInv w) (serial : w'.Serial) (env : Environment w w') :
    RoomInv w' := by
  refine ⟨serial, ?_, ?_, ?_, ?_, ?_⟩
  · rw [env.server]
    refine inv.tables.mono ?_
    rintro a ⟨k, leaves⟩
    rcases env.conns k with ⟨same, -⟩ | ⟨absent, -, -⟩
    · exact ⟨k, same ▸ leaves⟩
    · obtain ⟨ws, room, it, leaving⟩ := leaves
      cases absent.symm.trans leaving
  · intro k
    rcases env.conns k with ⟨same, -⟩ | ⟨-, hello, -⟩
    · rw [same, env.server]
      exact inv.point k
    · rw [hello]
      trivial
  · intro u peer found
    rw [env.server] at found
    obtain ⟨past, usable⟩ := inv.owner u peer found
    refine ⟨?_, fun closed => usable (env.sockets _ closed)⟩
    rcases env.conns peer.ws with ⟨same, -⟩ | ⟨absent, -, -⟩
    · rw [same]
      exact past
    · rw [absent] at past
      cases past
  · intro k either closed
    rcases env.conns k with ⟨same, -⟩ | ⟨-, -, usable⟩
    · rw [same] at either
      exact inv.fresh k either (env.sockets k closed)
    · exact usable closed
  · intro k u leaves
    rcases env.conns k with ⟨same, usable⟩ | ⟨-, hello, -⟩
    · rw [usable]
      exact inv.usable k u (same ▸ leaves)
    · obtain ⟨ws, room, it, leaving⟩ := leaves
      cases hello.symm.trans leaving

theorem turn (inv : RoomInv w) {t : Turn} (serial : (w.apply act.conn t).Serial)
    (seq : Sequential w act) (outside : calleeOutside w act = true) (fires : Fires w act t)
    (others : ∀ j, j ≠ act.conn → (w.phase j).idle = true) : RoomInv (w.apply act.conn t) := by
  have only : ∀ a, (∃ k, (w.phase k).LeavesRoom a) → (w.phase act.conn).LeavesRoom a := by
    rintro a ⟨k, leaves⟩
    by_cases self : k = act.conn
    · exact self ▸ leaves
    · have idle := others k self
      obtain ⟨ws, room, it, leaving⟩ := leaves
      rw [leaving] at idle
      cases idle
  have settled := fires.settled seq outside (inv.tables.mono only) (inv.point _)
    (inv.usable act.conn)
  -- a surviving entry was there before, or its handler has just written it
  have entries : ∀ u peer, t.server.peers u = some peer →
      ((w.phase peer.ws).past? = some u ∧ w.socket peer.ws ≠ .closed) ∨
      (peer.ws = act.conn ∧ t.phase.past? = some u ∧ w.socket act.conn ≠ .closed ∧
        ∀ j, t.closes act.conn ≠ some j) := by
    intro u peer found
    rcases fires.sameSockets with same | ⟨k, pick, v, rfl, waiting, rfl⟩
    · obtain ⟨old, was, sameWs⟩ := same u peer found
      exact Or.inl (sameWs ▸ inv.owner u old was)
    · by_cases new : u = v
      · subst new
        have entry : (⟨k, none⟩ : Peer) = peer := by
          simpa [Turn.server, register] using found
        subst entry
        exact Or.inr ⟨rfl, rfl, inv.fresh k (Or.inr ⟨u, waiting⟩), by rintro j ⟨⟩⟩
      · refine Or.inl (inv.owner u peer ?_)
        simpa [Turn.server, register, new] using found
  -- no entry survives with a socket that the turn closes
  have opened : ∀ u peer, t.server.peers u = some peer → t.closes act.conn ≠ some peer.ws := by
    intro u peer found closes
    rcases entries u peer found with ⟨past, -⟩ | ⟨-, -, -, never⟩
    · rcases settled.closes _ closes with ⟨self, gone⟩ | ⟨v, owner, was, sameWs, deleted⟩
      · rw [self] at past
        exact absurd (gone.symm.trans (settled.kept u peer past found)) (by simp)
      · have past' := (inv.owner v owner was).1
        rw [sameWs, past] at past'
        cases past'
        exact absurd (deleted.symm.trans found) (by simp)
    · exact never _ closes
  refine ⟨serial, ?_, ?_, ?_, ?_, ?_⟩
  · rw [World.apply_server]
    refine settled.tables.mono fun a leaves => ⟨act.conn, ?_⟩
    rwa [World.apply_phase_self]
  · intro k
    by_cases self : k = act.conn
    · subst self
      rw [World.apply_server, World.apply_phase_self]
      exact settled.point
    · rw [World.apply_phase_of_ne _ _ _ self]
      exact Phase.roomPoint_idle (others k self) _
  · intro u peer found
    rw [World.apply_server] at found
    rw [World.apply_socket, if_neg (opened u peer found)]
    rcases entries u peer found with ⟨past, usable⟩ | ⟨self, past, usable, -⟩
    · refine ⟨?_, usable⟩
      by_cases self : peer.ws = act.conn
      · rw [self] at past ⊢
        rw [World.apply_phase_self]
        exact settled.kept u peer past found
      · rw [World.apply_phase_of_ne _ _ _ self]
        exact past
    · rw [self, World.apply_phase_self]
      exact ⟨past, usable⟩
  · intro k either
    rw [World.apply_socket]
    by_cases self : k = act.conn
    · subst self
      rw [World.apply_phase_self] at either
      obtain ⟨hello, never⟩ := fires.hello either
      rw [if_neg (never _ _)]
      exact inv.fresh _ (Or.inl hello)
    · rw [World.apply_phase_of_ne _ _ _ self] at either
      have usable := inv.fresh k either
      split
      · next closes =>
          rcases settled.closes k closes with ⟨same, -⟩ | ⟨v, owner, was, rfl, -⟩
          · exact absurd same self
          · have past := (inv.owner v owner was).1
            rcases either with hello | ⟨u, ack⟩
            · rw [hello] at past
              cases past
            · rw [ack] at past
              cases past
      · exact usable
  · intro k u leaves
    by_cases self : k = act.conn
    · subst self
      rw [World.apply_phase_self] at leaves
      obtain ⟨srv, target, reply, phase, v, peer, rfl, found, same⟩ := settled.notices u leaves
      rw [World.apply_send_usable]
      have usable := (inv.owner v peer found).2
      rw [same] at usable
      simpa using usable
    · rw [World.apply_phase_of_ne _ _ _ self] at leaves
      obtain ⟨ws, room, it, leaving⟩ := leaves
      have idle := others k self
      rw [leaving] at idle
      cases idle

theorem step (inv : RoomInv w) (seq : Sequential w act) (outside : calleeOutside w act = true)
    (h : w.step act = some w') : RoomInv w' := by
  have serial := inv.serial.step seq h
  rcases sequential_cases inv.serial seq h with env | ⟨t, fires, rfl, others⟩
  · exact inv.environment serial env
  · exact inv.turn serial seq outside fires others

theorem of_reachable
    (run : interleaved.Reachable (fun w act => Sequential w act ∧ calleeOutside w act) w) :
    RoomInv w :=
  run.invariant init fun _ _ _ inv allowed h => inv.step allowed.1 allowed.2 h

/-- Nobody is on the way out of a room. -/
theorem settled (inv : RoomInv w) (quiet : w.Quiet) : Rooms w.server fun _ => False := by
  refine inv.tables.mono ?_
  rintro a ⟨k, ws, room, it, leaving⟩
  have idle := quiet k
  rw [leaving] at idle
  cases idle

theorem roomTables (inv : RoomInv w) (quiet : w.Quiet) : RoomTables w := by
  have settled := inv.settled quiet
  refine ⟨?_, ?_, ?_, ?_⟩
  · intro room u notSession
    constructor
    · intro inside
      exact (settled.listed room u inside).2.2
    · rintro ⟨peer, found, status⟩
      exact (settled.counted u peer room found status notSession).resolve_left id
  · intro room room' u inside inside'
    obtain ⟨-, -, peer, found, status⟩ := settled.listed room u inside
    obtain ⟨-, -, peer', found', status'⟩ := settled.listed room' u inside'
    cases found.symm.trans found'
    exact Option.some.inj (status.symm.trans status')
  · intro room u inside
    obtain ⟨-, -, peer, found, -⟩ := settled.listed room u inside
    have past := (inv.owner u peer found).1
    have idle := quiet peer.ws
    cases phase : w.phase peer.ws with
    | running v roomId point =>
        rw [phase] at past idle
        cases past
        cases point with
        | recv => exact ⟨peer, roomId, found, phase⟩
        | _ => cases idle
    | leaving v point =>
        rw [phase] at idle
        cases idle
    | _ =>
        rw [phase] at past
        cases past
  · intro room u peer found busy
    refine settled.outside_of_status found ?_ room
    rintro r ⟨status, -, notSession⟩
    exact notSession (Option.some.inj (status.symm.trans busy))

end RoomInv

/--
The room tables agree in every quiet state of the sequential runs in which no
room member is pulled into a session, the broadcasts look up registered uids
only, and the first registration that pulls a member into a session breaks the
agreement.
-/
theorem room_tables {w : World}
    (run : interleaved.Reachable (fun w act => Sequential w act ∧ calleeOutside w act) w) :
    (w.Quiet → RoomTables w) ∧
    (∀ room pid, pid ∈ w.server.members room → ∃ peer, w.server.peers pid = some peer) ∧
    ∀ act w', Sequential w act → w.step act = some w' → w'.Quiet →
      (RoomTables w' ↔ calleeOutside w act = true) := by
  have inv := RoomInv.of_reachable run
  refine ⟨inv.roomTables, ?_, fun act w' seq h quiet => ⟨fun tables => ?_, fun outside => ?_⟩⟩
  · intro room pid inside
    obtain ⟨-, -, peer, found, -⟩ := inv.tables.listed room pid inside
    exact ⟨peer, found⟩
  · by_contra pulled
    obtain ⟨k, pick, u, roomId, callee, peer, room, rfl, waiting, found, status, notSession⟩ :
        ∃ k pick u roomId callee peer room, act = .resume k false pick ∧
          w.phase k = .running u roomId (.sessionOk callee) ∧
          w.server.peers callee = some peer ∧ peer.status = some room ∧ room ≠ inSession := by
      unfold calleeOutside at pulled
      split at pulled
      · next k pick =>
          split at pulled
          · next u roomId callee waiting =>
              simp only [Option.all_eq_true, decide_eq_true_eq] at pulled
              push Not at pulled
              obtain ⟨peer, found, room, status, notSession⟩ := pulled
              exact ⟨k, pick, u, roomId, callee, peer, room, rfl, waiting, found, status,
                notSession⟩
          · exact absurd rfl pulled
      · exact absurd rfl pulled
    have inside : callee ∈ w.server.members room := by
      refine (inv.tables.counted callee peer room found status notSession).resolve_left ?_
      rintro ⟨j, ws, r, it, leaving⟩
      have same := inv.serial j k (by rw [leaving]; rfl) (by rw [waiting]; rfl)
      rw [same, waiting] at leaving
      cases leaving
    have point := inv.point k
    rw [waiting] at point
    obtain ⟨caller, registered, -⟩ := point
    rcases step_of_sessionOk waiting h with ⟨srv, linked, rfl⟩ | ⟨missing, -⟩
    · obtain ⟨callerPeer, calleePeer, -, -, hpeers, -, hrooms⟩ := registerSession_eq linked
      refine tables.notInSession room callee { calleePeer with status := some inSession } ?_ rfl ?_
      · rw [World.apply_server, Turn.server, hpeers, Function.update_self]
      · rw [World.apply_server, Turn.server, members_congr hrooms]
        exact inside
    · rcases missing with absent | absent
      · exact absurd (absent.symm.trans registered) (by simp)
      · exact absurd (absent.symm.trans found) (by simp)
  · exact (inv.step seq outside h).roomTables quiet

/-- Two members of a room. -/
theorem room_tables_pair :
    ∃ w, w.server.members "r".toList = {"x".toList, "y".toList} ∧ RoomTables w ∧
      (∀ room pid, pid ∈ w.server.members room → ∃ peer, w.server.peers pid = some peer) ∧
      ∀ act w', Sequential w act → w.step act = some w' → w'.Quiet →
        (RoomTables w' ↔ calleeOutside w act = true) := by
  obtain ⟨w, run, absent, test⟩ := exists_sequential 2 calleeOutside
    (greeting 0 "x" ++ greeting 1 "y" ++
      [.recv 0 "ROOM r".toList [] none, .resume 0 false none,
        .recv 1 "ROOM r".toList ["x".toList] none, .resume 1 false (some "x".toList),
        .resume 1 false none])
    (fun w => quietBelow 2 w && w.server.members "r".toList = {"x".toList, "y".toList})
    (by decide)
  obtain ⟨idle, members⟩ := Bool.and_eq_true_iff.mp test
  obtain ⟨tables, rest⟩ := room_tables run
  exact ⟨w, of_decide_eq_true members, tables (absent.quiet idle), rest⟩

/-- A client calls a member of a room. -/
theorem room_member_called :
    ¬ ∀ w, interleaved.Reachable Sequential w → w.Quiet → RoomTables w := by
  intro tables
  obtain ⟨w, run, absent, test⟩ := exists_sequential 2 (fun _ _ => true)
    (greeting 0 "x" ++ greeting 1 "y" ++
      [.recv 0 "ROOM r".toList [] none, .resume 0 false none,
        .recv 1 "SESSION x".toList [] none, .resume 1 false none])
    (fun w => quietBelow 2 w && w.server.peers "x".toList = some ⟨0, some inSession⟩ &&
      "x".toList ∈ w.server.members "r".toList) (by decide)
  simp only [Bool.and_eq_true, decide_eq_true_eq] at test
  obtain ⟨⟨idle, busy⟩, inside⟩ := test
  have reachable := run.mono fun _ _ allowed => allowed.1
  exact (tables w reachable (absent.quiet idle)).notInSession _ _ _ busy rfl inside

end GstWebrtc.Signalling
