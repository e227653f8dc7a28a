import GstWebrtc.Signalling.Branches
import GstWebrtc.Signalling.Steps

/-!
# What the stretches of code do to the tables

Removal only ever takes entries away, and no stretch of code other than the
registration itself makes a uid known under a socket it was not known under.
-/

namespace GstWebrtc.Signalling

open GstWebrtc.Base GstWebrtc.Base.PyText WebRTCSimpleServer

/-- Everything in `after` was there before. -/
structure Shrinks (before after : WebRTCSimpleServer) : Prop where
  peers : ∀ u peer, after.peers u = some peer → before.peers u = some peer
  sessions : ∀ u other, after.sessions u = some other → before.sessions u = some other
  members : ∀ room u, u ∈ after.members room → u ∈ before.members room

namespace Shrinks

variable {a b c : WebRTCSimpleServer}

theorem refl (a : WebRTCSimpleServer) : Shrinks a a :=
  ⟨fun _ _ h => h, fun _ _ h => h, fun _ _ h => h⟩

theorem trans (ab : Shrinks a b) (bc : Shrinks b c) : Shrinks a c :=
  ⟨fun u p h => ab.peers u p (bc.peers u p h), fun u o h => ab.sessions u o (bc.sessions u o h),
    fun r u h => ab.members r u (bc.members r u h)⟩

theorem dropPeer (a : WebRTCSimpleServer) (uid : Uid) : Shrinks a (a.writePeer uid none) := by
  refine ⟨?_, fun _ _ h => h, fun _ _ h => h⟩
  intro u peer h
  by_cases same : u = uid
  · subst same
    simp at h
  · simpa [same] using h

theorem dropSession (a : WebRTCSimpleServer) (uid : Uid) :
    Shrinks a (a.writeSession uid none) := by
  refine ⟨fun _ _ h => h, ?_, fun _ _ h => h⟩
  intro u other h
  by_cases same : u = uid
  · subst same
    simp at h
  · simpa [same] using h

theorem leaveRoom {room : RoomId} {set : PySet Uid} (found : a.rooms room = some set)
    (uid : Uid) : Shrinks a (a.writeRoom room (set.remove uid)) := by
  refine ⟨fun _ _ h => h, fun _ _ h => h, ?_⟩
  intro r u h
  rw [members_writeRoom] at h
  by_cases same : r = room
  · subst same
    rw [Function.update_self] at h
    rw [members_of_rooms found]
    exact Finset.mem_of_mem_erase h
  · rwa [Function.update_of_ne same] at h

end Shrinks

section Removal

variable {srv : WebRTCSimpleServer} {uid : Uid}

theorem SessionCleaned.shrinks {result : WebRTCSimpleServer × Option ConnId}
    (h : SessionCleaned srv uid result) : Shrinks srv result.1 := by
  cases h with
  | unlinked alone => exact .refl srv
  | oneSided linked noBack => exact .dropSession srv uid
  | partnerGone linked different linkedBack absent =>
      exact (Shrinks.dropSession srv uid).trans (.dropSession _ _)
  | partner linked different linkedBack registered =>
      exact ((Shrinks.dropSession srv uid).trans (.dropSession _ _)).trans (.dropPeer _ _)

theorem SessionCleaned.members_eq {result : WebRTCSimpleServer × Option ConnId}
    (h : SessionCleaned srv uid result) : result.1.members = srv.members := by
  cases h <;> exact members_congr rfl

theorem deletePeer_shrinks (srv : WebRTCSimpleServer) (uid : Uid) (ws : ConnId) :
    Shrinks srv (deletePeer srv uid ws).server := by
  unfold deletePeer
  split
  · exact .refl srv
  · exact .dropPeer srv uid

theorem LeftAnnounced.shrinks {ws : ConnId} {room : RoomId} {it : Iter Uid} {t : Turn}
    (h : LeftAnnounced srv uid ws room it t) : Shrinks srv t.server := by
  cases h with
  | finished found same all => exact deletePeer_shrinks srv uid ws
  | _ => exact .refl srv

theorem EntryRemoved.shrinks {t : Turn} (h : EntryRemoved srv uid t) : Shrinks srv t.server := by
  cases h with
  | absent unregistered => exact .refl srv
  | plain registered outside => exact deletePeer_shrinks srv uid _
  | noRoom registered member missing => exact .refl srv
  | notListed registered member found unlisted => exact deletePeer_shrinks srv uid _
  | leaves registered member found listed announced =>
      exact (Shrinks.leaveRoom found uid).trans announced.shrinks

theorem Removed.shrinks {t : Turn} (h : Removed srv uid t) : Shrinks srv t.server := by
  cases h with
  | partner cleaned => exact cleaned.shrinks
  | entry cleaned removed => exact cleaned.shrinks.trans removed.shrinks

/-! Entries of other uids stay, except that of a session partner. -/

section Frame

variable {v : Uid}

theorem SessionCleaned.peers_eq {result : WebRTCSimpleServer × Option ConnId}
    (h : SessionCleaned srv uid result) (unlinked : srv.sessions uid ≠ some v) :
    result.1.peers v = srv.peers v := by
  cases h with
  | partner linked different linkedBack registered =>
      have other : v ≠ _ := fun same => unlinked (same ▸ linked)
      simp [other]
  | _ => rfl

theorem deletePeer_peers (ws : ConnId) (different : v ≠ uid) :
    (deletePeer srv uid ws).server.peers v = srv.peers v := by
  unfold deletePeer
  split
  · rfl
  · simp [Turn.server, different]

theorem LeftAnnounced.peers_eq {ws : ConnId} {room : RoomId} {it : Iter Uid} {t : Turn}
    (h : LeftAnnounced srv uid ws room it t) (different : v ≠ uid) :
    t.server.peers v = srv.peers v := by
  cases h with
  | finished found same all => exact deletePeer_peers ws different
  | _ => rfl

theorem EntryRemoved.peers_eq {t : Turn} (h : EntryRemoved srv uid t) (different : v ≠ uid) :
    t.server.peers v = srv.peers v := by
  cases h with
  | absent unregistered => rfl
  | plain registered outside => exact deletePeer_peers _ different
  | noRoom registered member missing => rfl
  | notListed registered member found unlisted => exact deletePeer_peers _ different
  | leaves registered member found listed announced => exact announced.peers_eq different

theorem Removed.peers_eq {t : Turn} (h : Removed srv uid t) (different : v ≠ uid)
    (unlinked : srv.sessions uid ≠ some v) : t.server.peers v = srv.peers v := by
  cases h with
  | partner cleaned => exact cleaned.peers_eq unlinked
  | entry cleaned removed => exact (removed.peers_eq different).trans (cleaned.peers_eq unlinked)

end Frame

theorem deletePeer_gone (srv : WebRTCSimpleServer) (uid : Uid) (ws : ConnId) :
    (deletePeer srv uid ws).server.peers uid = none := by
  unfold deletePeer
  split
  · next absent => exact absent
  · simp [Turn.server]

theorem deletePeer_sessions (srv : WebRTCSimpleServer) (uid : Uid) (ws : ConnId) :
    (deletePeer srv uid ws).server.sessions = srv.sessions := by
  unfold deletePeer
  split <;> rfl

theorem LeftAnnounced.sessions_eq {ws : ConnId} {room : RoomId} {it : Iter Uid} {t : Turn}
    (h : LeftAnnounced srv uid ws room it t) : t.server.sessions = srv.sessions := by
  cases h with
  | finished found same all => exact deletePeer_sessions srv uid ws
  | _ => rfl

theorem EntryRemoved.sessions_eq {t : Turn} (h : EntryRemoved srv uid t) :
    t.server.sessions = srv.sessions := by
  cases h with
  | absent unregistered => rfl
  | plain registered outside => exact deletePeer_sessions srv uid _
  | noRoom registered member missing => rfl
  | notListed registered member found unlisted => exact deletePeer_sessions srv uid _
  | leaves registered member found listed announced => exact announced.sessions_eq

/-- Once `cleanup_session` is over, the uid keeps its entry at most while it leaves a room. -/
theorem EntryRemoved.inRoom {t : Turn} (h : EntryRemoved srv uid t) {peer : Peer}
    (found : t.server.peers uid = some peer) : ∃ room, IsRoom peer.status room := by
  cases h with
  | absent unregistered => exact absurd (unregistered.symm.trans found) (by simp)
  | plain registered outside =>
      exact absurd ((deletePeer_gone srv uid _).symm.trans found) (by simp)
  | noRoom registered member missing =>
      cases registered.symm.trans found
      exact ⟨_, member⟩
  | notListed registered member _ unlisted =>
      exact absurd ((deletePeer_gone srv uid _).symm.trans found) (by simp)
  | leaves registered member _ listed announced =>
      cases announced with
      | finished _ same all => exact absurd ((deletePeer_gone _ uid _).symm.trans found) (by simp)
      | _ =>
          cases registered.symm.trans found
          exact ⟨_, member⟩

/-! After each of these turns the handler is in `remove_peer(uid)`, or has ended. -/

/-- The handler of `uid` is leaving or has left. -/
def Phase.Departing (uid : Uid) (phase : Phase) : Prop :=
  (∃ point, phase = .leaving uid point) ∨ phase = .done (some uid)

theorem Phase.Departing.not_running {uid u : Uid} {phase : Phase} {roomId : Option RoomId}
    {point : LoopPoint} (departing : phase.Departing uid) : phase ≠ .running u roomId point := by
  rcases departing with ⟨point, rfl⟩ | rfl
  · exact nofun
  · exact nofun

theorem deletePeer_departing (srv : WebRTCSimpleServer) (uid : Uid) (ws : ConnId) :
    (deletePeer srv uid ws).phase.Departing uid := by
  unfold deletePeer
  split
  · exact Or.inr rfl
  · exact Or.inl ⟨_, rfl⟩

theorem LeftAnnounced.departing {ws : ConnId} {room : RoomId} {it : Iter Uid} {t : Turn}
    (h : LeftAnnounced srv uid ws room it t) : t.phase.Departing uid := by
  cases h with
  | finished found same all => exact deletePeer_departing srv uid ws
  | notice found same member fresh registered => exact Or.inl ⟨_, rfl⟩
  | _ => exact Or.inr rfl

theorem EntryRemoved.departing {t : Turn} (h : EntryRemoved srv uid t) :
    t.phase.Departing uid := by
  cases h with
  | absent unregistered => exact Or.inr rfl
  | plain registered outside => exact deletePeer_departing srv uid _
  | noRoom registered member missing => exact Or.inr rfl
  | notListed registered member found unlisted => exact deletePeer_departing srv uid _
  | leaves registered member found listed announced => exact announced.departing

theorem Removed.departing {t : Turn} (h : Removed srv uid t) : t.phase.Departing uid := by
  cases h with
  | partner cleaned => exact Or.inl ⟨_, rfl⟩
  | entry cleaned removed => exact removed.departing

end Removal

/-! ## Rooms are never deleted -/

/-- Every room of `before` still exists. -/
def RoomsKept (before after : WebRTCSimpleServer) : Prop :=
  ∀ room, before.rooms room ≠ none → after.rooms room ≠ none

theorem RoomsKept.of_rooms {a b : WebRTCSimpleServer} (h : b.rooms = a.rooms) : RoomsKept a b :=
  fun _ kept => h ▸ kept

theorem RoomsKept.trans {a b c : WebRTCSimpleServer} (ab : RoomsKept a b) (bc : RoomsKept b c) :
    RoomsKept a c :=
  fun room kept => bc room (ab room kept)

theorem RoomsKept.writeRoom (srv : WebRTCSimpleServer) (room : RoomId) (set : PySet Uid) :
    RoomsKept srv (srv.writeRoom room set) := by
  intro r kept
  by_cases same : r = room
  · simp [same]
  · simpa [same] using kept

section Kept

variable {srv : WebRTCSimpleServer} {uid : Uid} {t : Turn}

theorem SessionCleaned.roomsKept {result : WebRTCSimpleServer × Option ConnId}
    (h : SessionCleaned srv uid result) : RoomsKept srv result.1 := by
  cases h <;> exact .of_rooms rfl

theorem deletePeer_roomsKept (srv : WebRTCSimpleServer) (uid : Uid) (ws : ConnId) :
    RoomsKept srv (deletePeer srv uid ws).server := by
  unfold deletePeer
  split <;> exact .of_rooms rfl

theorem LeftAnnounced.roomsKept {ws : ConnId} {room : RoomId} {it : Iter Uid}
    (h : LeftAnnounced srv uid ws room it t) : RoomsKept srv t.server := by
  cases h with
  | finished found same all => exact deletePeer_roomsKept srv uid ws
  | _ => exact .of_rooms rfl

theorem EntryRemoved.roomsKept (h : EntryRemoved srv uid t) : RoomsKept srv t.server := by
  cases h with
  | absent unregistered => exact .of_rooms rfl
  | plain registered outside => exact deletePeer_roomsKept srv uid _
  | noRoom registered member missing => exact .of_rooms rfl
  | notListed registered member found unlisted => exact deletePeer_roomsKept srv uid _
  | leaves registered member found listed announced =>
      exact (RoomsKept.writeRoom srv _ _).trans announced.roomsKept

theorem Removed.roomsKept (h : Removed srv uid t) : RoomsKept srv t.server := by
  cases h with
  | partner cleaned => exact cleaned.roomsKept
  | entry cleaned removed => exact cleaned.roomsKept.trans removed.roomsKept

end Kept

/-! ## Who is registered under which socket -/

/-- Every entry of `after` was there before under the same socket. -/
def SameSockets (before after : WebRTCSimpleServer) : Prop :=
  ∀ u peer, after.peers u = some peer → ∃ old, before.peers u = some old ∧ old.ws = peer.ws

theorem Shrinks.sameSockets {a b : WebRTCSimpleServer} (h : Shrinks a b) : SameSockets a b :=
  fun u peer found => ⟨peer, h.peers u peer found, rfl⟩

theorem SameSockets.trans {a b c : WebRTCSimpleServer} (ab : SameSockets a b)
    (bc : SameSockets b c) : SameSockets a c := by
  intro u peer found
  obtain ⟨mid, hmid, same⟩ := bc u peer found
  obtain ⟨old, hold, same'⟩ := ab u mid hmid
  exact ⟨old, hold, same'.trans same⟩

theorem SameSockets.of_peers {a b : WebRTCSimpleServer} (h : b.peers = a.peers) :
    SameSockets a b := by
  intro u peer found
  rw [h] at found
  exact ⟨peer, found, rfl⟩

/-- The same uids are registered with the same sockets; a status may differ. -/
def SameEntries (before after : WebRTCSimpleServer) : Prop :=
  ∀ u, (after.peers u).map Peer.ws = (before.peers u).map Peer.ws

theorem SameEntries.sameSockets {a b : WebRTCSimpleServer} (h : SameEntries a b) :
    SameSockets a b := by
  intro u peer found
  have same := h u
  rw [found] at same
  exact Option.map_eq_some_iff.mp same.symm

theorem SameEntries.registered {a b : WebRTCSimpleServer} (h : SameEntries a b) {u : Uid} :
    b.peers u = none ↔ a.peers u = none := by
  rw [← Option.map_eq_none_iff, h u, Option.map_eq_none_iff]

theorem SameEntries.of_peers {a b : WebRTCSimpleServer} (h : b.peers = a.peers) :
    SameEntries a b := fun u => by rw [h]

theorem SameEntries.trans {a b c : WebRTCSimpleServer} (ab : SameEntries a b)
    (bc : SameEntries b c) : SameEntries a c :=
  fun u => (bc u).trans (ab u)

theorem SameEntries.status {srv : WebRTCSimpleServer} {uid : Uid} {peer : Peer}
    (registered : srv.peers uid = some peer) (status : Option Text) :
    SameEntries srv (srv.writePeer uid (some { peer with status := status })) := by
  intro u
  by_cases same : u = uid
  · subst same
    simp [registered]
  · simp [same]

theorem registerSession_sameEntries {srv srv' : WebRTCSimpleServer} {uid callee : Uid}
    (h : srv.registerSession uid callee = some srv') : SameEntries srv srv' := by
  obtain ⟨peer, calleePeer, huid, hcallee, hpeers, -, -⟩ := registerSession_eq h
  intro u
  rw [hpeers]
  by_cases isCallee : u = callee
  · subst isCallee
    simp [hcallee]
  · by_cases isCaller : u = uid
    · subst isCaller
      simp [isCallee, huid]
    · simp [isCallee, isCaller]

/-- The tables when a stretch of `connection_handler` ends. -/
def Body.server : Body → WebRTCSimpleServer
  | .recv srv _ | .send srv _ _ _ _ | .raise srv _ => srv

/-- What holds where the loop is suspended next, unless it raises. -/
def Body.Next (uid : Uid) (holds : WebRTCSimpleServer → Phase → Prop) : Body → Prop
  | .recv srv roomId => holds srv (.running uid roomId .recv)
  | .send srv roomId _ _ next => holds srv (.running uid roomId next)
  | .raise _ _ => True

theorem Handled.peers_eq {srv : WebRTCSimpleServer} {ws : ConnId} {uid : Uid}
    {roomId : Option RoomId} {order : List Uid} {msg : Text} {body : Body}
    (h : Handled srv ws uid roomId order msg body) : body.server.peers = srv.peers := by
  cases h <;> rfl

theorem Handled.sessions_eq {srv : WebRTCSimpleServer} {ws : ConnId} {uid : Uid}
    {roomId : Option RoomId} {order : List Uid} {msg : Text} {body : Body}
    (h : Handled srv ws uid roomId order msg body) : body.server.sessions = srv.sessions := by
  cases h <;> rfl

theorem JoinAnnounced.server_eq {srv : WebRTCSimpleServer} {uid : Uid} {roomId : Option RoomId}
    {room : RoomId} {it : Iter Uid} {body : Body}
    (h : JoinAnnounced srv uid roomId room it body) : body.server = srv := by
  cases h <;> rfl

theorem RoomEntered.sameEntries {srv : WebRTCSimpleServer} {uid : Uid} {roomId : Option RoomId}
    {room : RoomId} {body : Body} (h : RoomEntered srv uid roomId room body) :
    SameEntries srv body.server := by
  cases h with
  | unregistered absent => exact .of_peers rfl
  | noRoom registered missing => exact .status registered _
  | entered registered found announced =>
      rw [announced.server_eq]
      exact (SameEntries.status registered _).trans (.of_peers rfl)

theorem RoomEntered.sessions_eq {srv : WebRTCSimpleServer} {uid : Uid} {roomId : Option RoomId}
    {room : RoomId} {body : Body} (h : RoomEntered srv uid roomId room body) :
    body.server.sessions = srv.sessions := by
  cases h with
  | unregistered absent => rfl
  | noRoom registered missing => rfl
  | entered registered found announced =>
      rw [announced.server_eq]
      rfl

/-- Up to the point where it gives up control or raises, a handler's loop leaves
the registered uids and their sockets as they are. -/
theorem Runs.sameEntries {w : World} {uid : Uid} {roomId : Option RoomId} {act : Act}
    {body : Body} (h : Runs w uid roomId act body) : SameEntries w.server body.server := by
  cases h with
  | message waiting handled => exact .of_peers handled.peers_eq
  | session mayReturn waiting linked => exact registerSession_sameEntries linked
  | room mayReturn waiting entered => exact entered.sameEntries
  | joined mayReturn waiting announced => exact .of_peers (congrArg _ announced.server_eq)
  | _ => exact .of_peers rfl

/-- Only the branch that registers a session changes `sessions`, and it does not raise. -/
theorem Runs.sessions_of_raise {w : World} {uid : Uid} {roomId : Option RoomId} {act : Act}
    {srv : WebRTCSimpleServer} {exn : Exn} (h : Runs w uid roomId act (.raise srv exn)) :
    srv.sessions = w.server.sessions := by
  cases h with
  | message waiting handled => exact handled.sessions_eq
  | room mayReturn waiting entered => exact entered.sessions_eq
  | joined mayReturn waiting announced =>
      exact congrArg WebRTCSimpleServer.sessions announced.server_eq
  | _ => rfl

/-- The announcement of a joiner does not fail in an undisturbed room of registered members. -/
theorem JoinAnnounced.not_raise {srv srv' : WebRTCSimpleServer} {uid : Uid}
    {roomId : Option RoomId} {room : RoomId} {it : Iter Uid} {exn : Exn} {set : PySet Uid}
    (h : JoinAnnounced srv uid roomId room it (.raise srv' exn))
    (found : srv.rooms room = some set) (size : set.elems.card = it.used)
    (registered : ∀ pid ∈ set.elems, pid ≠ uid → srv.peers pid ≠ none) : False := by
  cases h with
  | changedSize found' changed =>
      cases found.symm.trans found'
      exact changed size
  | missing found' member other absent =>
      cases found.symm.trans found'
      exact registered _ member other absent

/-- A handler fails to enter an existing room of registered members only if it has no entry. -/
theorem RoomEntered.of_raise {srv srv' : WebRTCSimpleServer} {uid : Uid}
    {roomId : Option RoomId} {room : RoomId} {exn : Exn} {set : PySet Uid}
    (h : RoomEntered srv uid roomId room (.raise srv' exn)) (found : srv.rooms room = some set)
    (registered : ∀ pid ∈ srv.members room, ∃ peer, srv.peers pid = some peer) :
    srv.peers uid = none ∧ srv' = srv := by
  cases h with
  | unregistered absent => exact ⟨absent, rfl⟩
  | noRoom _ missing => cases missing.symm.trans found
  | entered entry found' announced =>
      cases found.symm.trans found'
      refine (announced.not_raise (by simp) rfl ?_).elim
      intro pid member other absent
      rw [PySet.elems_add] at member
      have inside := (Finset.mem_insert.mp member).resolve_left other
      rw [← members_of_rooms found] at inside
      obtain ⟨peer, entry⟩ := registered pid inside
      simp only [peers_writeRoom, peers_writePeer, Function.update_of_ne other] at absent
      cases absent.symm.trans entry

/--
No stretch of the loop that raises has written anything before, as long as the
room it enters exists and the members it walks are registered.
-/
theorem Runs.raise_server {w : World} {uid : Uid} {roomId : Option RoomId} {act : Act}
    {srv : WebRTCSimpleServer} {exn : Exn} (h : Runs w uid roomId act (.raise srv exn))
    (exists' : ∀ room, w.phase act.conn = .running uid roomId (.roomOk room) →
      ∃ set, w.server.rooms room = some set)
    (registered : ∀ room pid, pid ∈ w.server.members room →
      ∃ peer, w.server.peers pid = some peer) : srv = w.server := by
  cases h with
  | message waiting handled => cases handled; rfl
  | room mayReturn waiting entered =>
      obtain ⟨set, found⟩ := exists' _ waiting
      exact (entered.of_raise found (registered _)).2
  | joined mayReturn waiting announced => exact announced.server_eq
  | _ => rfl

/-- A step makes a uid known under a new socket only when a handler registers it. -/
theorem Fires.sameSockets {w : World} {act : Act} {t : Turn} (h : Fires w act t) :
    SameSockets w.server t.server ∨
    ∃ k pick u, act = .resume k false pick ∧ w.phase k = .ack u ∧
      t = .recv (w.server.register k u) (.running u none .recv) := by
  cases h with
  | registered mayReturn waiting => exact Or.inr ⟨_, _, _, rfl, waiting, rfl⟩
  | loops runs => exact Or.inl runs.sameEntries.sameSockets
  | sends runs => exact Or.inl runs.sameEntries.sameSockets
  | leaves runs removed =>
      exact Or.inl (runs.sameEntries.sameSockets.trans removed.shrinks.sameSockets)
  | partnerClosed mayReturn waiting removed => exact Or.inl removed.shrinks.sameSockets
  | leftSent mayReturn waiting announced => exact Or.inl announced.shrinks.sameSockets
  | _ => exact Or.inl (.of_peers rfl)

/-- A handler gets to its `HELLO` send from the `recv` before it. -/
theorem Fires.hello {w : World} {act : Act} {t : Turn} (h : Fires w act t)
    (fresh : t.phase = .hello ∨ ∃ u, t.phase = .ack u) :
    w.phase act.conn = .hello ∧ ∀ k j, t.closes k ≠ some j := by
  have departed : ∀ {uid}, ¬ t.phase.Departing uid := by
    rintro uid (⟨point, leaving⟩ | done)
    · rw [leaving] at fresh
      rcases fresh with hello | ⟨u, ack⟩
      · cases hello
      · cases ack
    · rw [done] at fresh
      rcases fresh with hello | ⟨u, ack⟩
      · cases hello
      · cases ack
  cases h with
  | greeted waiting fields absent word => exact ⟨waiting, by rintro k j ⟨⟩⟩
  | leaves runs removed => exact absurd removed.departing departed
  | partnerClosed mayReturn waiting removed => exact absurd removed.departing departed
  | leftSent mayReturn waiting announced => exact absurd announced.departing departed
  | _ =>
      rcases fresh with hello | ⟨u, ack⟩
      · cases hello
      · cases ack

/-! ## Where an entry comes from -/

/-- How an entry of `u` that is there after a turn came about. -/
inductive EntryFrom (w : World) (act : Act) (u : Uid) : Peer → Prop where
  | kept {peer} (was : w.server.peers u = some peer) : EntryFrom w act u peer
  | registered (waiting : w.phase act.conn = .ack u) : EntryFrom w act u ⟨act.conn, none⟩
  | linked {k pick v roomId callee old} (resumed : act = .resume k false pick)
      (waiting : w.phase k = .running v roomId (.sessionOk callee)) (either : u = v ∨ u = callee)
      (was : w.server.peers u = some old) :
      EntryFrom w act u { old with status := some inSession }
  | entered {roomId room old} (waiting : w.phase act.conn = .running u roomId (.roomOk room))
      (was : w.server.peers u = some old) (mayReturn : w.canReturn act.conn = true) :
      EntryFrom w act u { old with status := some room }

section Entries

variable {w : World} {act : Act} {v u : Uid} {roomId : Option RoomId} {body : Body} {t : Turn}
  {peer : Peer}

theorem Runs.entry (runs : Runs w v roomId act body) (found : body.server.peers u = some peer) :
    EntryFrom w act u peer := by
  cases runs with
  | message waiting handled =>
      rw [handled.peers_eq] at found
      exact .kept found
  | @session k pick callee srv mayReturn waiting linked =>
      obtain ⟨caller, calleePeer, hcaller, hcallee, hpeers, -, -⟩ := registerSession_eq linked
      rw [Body.server, hpeers] at found
      by_cases isCallee : u = callee
      · rw [isCallee, Function.update_self] at found
        cases found
        exact .linked rfl waiting (Or.inr isCallee) (isCallee ▸ hcallee)
      · rw [Function.update_of_ne isCallee] at found
        by_cases isCaller : u = v
        · rw [isCaller, Function.update_self] at found
          cases found
          exact .linked rfl waiting (Or.inl isCaller) (isCaller ▸ hcaller)
        · rw [Function.update_of_ne isCaller] at found
          exact .kept found
  | @room k pick room body mayReturn waiting entered =>
      have writes : ∀ {old : Peer}, w.server.peers v = some old →
          (w.server.writePeer v (some { old with status := some room })).peers u = some peer →
          EntryFrom w (.resume k false pick) u peer := by
        intro old registered found
        by_cases self : u = v
        · subst self
          rw [peers_writePeer, Function.update_self] at found
          cases found
          exact .entered waiting registered mayReturn
        · rw [peers_writePeer, Function.update_of_ne self] at found
          exact .kept found
      cases entered with
      | unregistered absent => exact .kept found
      | noRoom registered missing => exact writes registered found
      | entered registered exists' announced =>
          rw [announced.server_eq] at found
          exact writes registered found
  | joined mayReturn waiting announced =>
      rw [announced.server_eq] at found
      exact .kept found
  | _ => exact .kept found

theorem Fires.entry (fires : Fires w act t) (found : t.server.peers u = some peer) :
    EntryFrom w act u peer := by
  cases fires with
  | @registered k pick v mayReturn waiting =>
      by_cases self : u = v
      · subst self
        have entry : (⟨k, none⟩ : Peer) = peer := by simpa [Turn.server, register] using found
        subst entry
        exact .registered waiting
      · exact .kept (by simpa [Turn.server, register, self] using found)
  | loops runs => exact runs.entry found
  | sends runs => exact runs.entry found
  | leaves runs removed => exact runs.entry (removed.shrinks.peers u peer found)
  | partnerClosed mayReturn waiting removed => exact .kept (removed.shrinks.peers u peer found)
  | leftSent mayReturn waiting announced => exact .kept (announced.shrinks.peers u peer found)
  | _ => exact .kept found

end Entries

end GstWebrtc.Signalling
