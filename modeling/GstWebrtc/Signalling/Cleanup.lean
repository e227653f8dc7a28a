import GstWebrtc.Signalling.SessionAgreement

/-!
# Complete cleanup

`remove_peer(uid)` gives up control while `uid` is still registered, and none of
its sends and closes is guarded.  It forgets the uid completely when nobody
links, seats or overwrites the uid meanwhile and nothing fails before the
entry is deleted.
-/

namespace GstWebrtc.Signalling

open GstWebrtc.Base GstWebrtc.Base.PyText WebRTCSimpleServer

/-- No table mentions `uid`. -/
structure Forgotten (srv : WebRTCSimpleServer) (uid : Uid) : Prop where
  unregistered : srv.peers uid = none
  noKey : srv.sessions uid = none
  noValue : ∀ other, srv.sessions other ≠ some uid
  noRoom : ∀ room, uid ∉ srv.members room

/-- The handler is in `remove_peer(uid)`, before the entry is deleted. -/
def Phase.Removing (uid : Uid) : Phase → Prop
  | leaving u .partner | leaving u (.left _ _ _) => u = uid
  | _ => False

/-- The handler's `remove_peer(uid)` is over, apart from the last close. -/
def Phase.Removed (uid : Uid) : Phase → Prop
  | leaving u .close | done (some u) => u = uid
  | _ => False

instance (uid : Uid) (phase : Phase) : Decidable (phase.Removing uid) := by
  unfold Phase.Removing
  split <;> infer_instance

instance (uid : Uid) (phase : Phase) : Decidable (phase.Removed uid) := by
  unfold Phase.Removed
  split <;> infer_instance

/-- The step registers `uid`. -/
def Registers (uid : Uid) (w : World) (act : Act) : Prop :=
  ∃ k pick, act = .resume k false pick ∧ w.phase k = .ack uid

/-- The uid may be linked or seated: it is idle as far as it is registered, and
nobody is removing it. -/
def Unclaimed (w : World) (uid : Uid) : Prop :=
  (∀ peer, w.server.peers uid = some peer → peer.status = none) ∧
    ∀ k, ¬ (w.phase k).Removing uid

/-- No step takes a uid over from a handler that is still busy with it. -/
structure Undisturbed (w : World) (act : Act) : Prop where
  /-- A session is registered between unclaimed peers, or is registered already. -/
  session : ∀ k pick uid roomId callee, act = .resume k false pick →
    w.phase k = .running uid roomId (.sessionOk callee) →
    (Unclaimed w uid ∧ Unclaimed w callee) ∨
      (w.server.sessions uid = some callee ∧ w.server.sessions callee = some uid)
  /-- A room is entered by an unclaimed peer. -/
  room : ∀ k pick uid roomId room, act = .resume k false pick →
    w.phase k = .running uid roomId (.roomOk room) → Unclaimed w uid
  /-- A registration overwrites idle entries only. -/
  register : ∀ k pick uid peer, act = .resume k false pick → w.phase k = .ack uid →
    w.server.peers uid = some peer → peer.status = none
  /-- Nothing fails in the removal of a uid that is registered. -/
  delivered : ∀ k pick uid, act = .resume k true pick → (w.phase k).Removing uid →
    w.server.peers uid = none
  /-- The room of a registered uid keeps its size between two notices. -/
  size : ∀ k pick uid ws room it set, act = .resume k false pick →
    w.phase k = .leaving uid (.left ws room it) → w.server.rooms room = some set →
    set.elems.card = it.used ∨ w.server.peers uid = none

/-! ## The tables -/

/-- What holds of the tables at every await. -/
structure Tidy (srv : WebRTCSimpleServer) : Prop where
  sessions : Sessions srv fun _ => True
  rooms : Rooms srv fun _ => True
  existing : ∀ u peer room, srv.peers u = some peer → IsRoom peer.status room →
    srv.rooms room ≠ none

namespace Tidy

variable {srv : WebRTCSimpleServer} {uid : Uid} {peer : Peer}

theorem forgotten (h : Tidy srv) (absent : srv.peers uid = none) : Forgotten srv uid where
  unregistered := absent
  noKey := h.sessions.unlinked_of_absent absent
  noValue other linked := by
    have back := h.sessions.symmetric other uid linked
    exact absurd ((h.sessions.unlinked_of_absent absent).symm.trans back) (by simp)
  noRoom := h.rooms.outside_of_absent absent

theorem outside_of_idle (h : Tidy srv) (idle : ∀ peer, srv.peers uid = some peer →
    peer.status = none) (room : RoomId) : uid ∉ srv.members room := by
  intro inside
  obtain ⟨-, -, peer, found, status⟩ := h.rooms.listed room uid inside
  exact absurd ((idle peer found).symm.trans status) (by simp)

theorem alone_of_idle (h : Tidy srv) (idle : ∀ peer, srv.peers uid = some peer →
    peer.status = none) : srv.sessions uid = none := by
  cases linked : srv.sessions uid with
  | none => rfl
  | some other =>
      obtain ⟨peer, found, busy⟩ := h.sessions.busy uid other linked
      exact absurd ((idle peer found).symm.trans busy) (by simp)

/-- The entry of a uid in no room and no session is written or deleted. -/
theorem writePeer (h : Tidy srv) (outside : ∀ room, uid ∉ srv.members room)
    (alone : srv.sessions uid = none) {entry : Option Peer}
    (idle : ∀ peer, entry = some peer → peer.status = none) :
    Tidy (srv.writePeer uid entry) where
  sessions := h.sessions.writePeer alone fun peer given => by simp [idle peer given]
  rooms := h.rooms.writePeer outside alone idle fun _ _ => Or.inr trivial
  existing u peer room found member := by
    by_cases same : u = uid
    · subst same
      have status := idle peer (by simpa using found)
      exact absurd (status.symm.trans member.1) (by simp)
    · exact h.existing u peer room (by simpa [same] using found) member

theorem newRoom (h : Tidy srv) {room : RoomId} (missing : srv.rooms room = none) :
    Tidy (srv.writeRoom room .empty) where
  sessions := h.sessions.of_tables rfl rfl
  rooms := h.rooms.newRoom missing
  existing u peer r found member := by
    by_cases same : r = room
    · simp [same]
    · simpa [same] using h.existing u peer r found member

theorem leaveRoom (h : Tidy srv) {room : RoomId} {set : PySet Uid}
    (found : srv.rooms room = some set) : Tidy (srv.writeRoom room (set.remove uid)) where
  sessions := h.sessions.of_tables rfl rfl
  rooms := (h.rooms.leaveRoom found).mono fun _ _ => trivial
  existing u peer r hu member := by
    by_cases same : r = room
    · simp [same]
    · simpa [same] using h.existing u peer r hu member

theorem enterRoom (h : Tidy srv) {room : RoomId} {set : PySet Uid}
    (registered : srv.peers uid = some peer) (idle : peer.status = none)
    (found : srv.rooms room = some set) (nonempty : room ≠ []) (notSession : room ≠ inSession) :
    Tidy ((srv.writePeer uid (some { peer with status := some room })).writeRoom room
      (set.add uid)) where
  sessions := by
    have alone := h.sessions.unlinked_of_idle registered (by simp [idle])
    exact (h.sessions.writePeer alone (by rintro _ ⟨⟩; simpa using notSession)).of_tables rfl rfl
  rooms := h.rooms.enterRoom registered idle found nonempty notSession
  existing u entry r hu member := by
    by_cases same : r = room
    · simp [same]
    · by_cases self : u = uid
      · subst self
        have entered : { peer with status := some room } = entry := by simpa using hu
        rw [← entered] at member
        exact absurd (Option.some.inj member.1).symm same
      · simpa [same] using h.existing u entry r (by simpa [self] using hu) member

/-- A session between two idle peers. -/
theorem registerSession (h : Tidy srv) {callee : Uid} {srv' : WebRTCSimpleServer}
    (linked : srv.registerSession uid callee = some srv')
    (idle : ∀ u peer, u = uid ∨ u = callee → srv.peers u = some peer → peer.status = none) :
    Tidy srv' := by
  have caller := fun peer => idle uid peer (Or.inl rfl)
  have called := fun peer => idle callee peer (Or.inr rfl)
  obtain ⟨callerPeer, calleePeer, huid, hcallee, hpeers, -, hrooms⟩ := registerSession_eq linked
  refine ⟨?_, ?_, ?_⟩
  · refine h.sessions.registerSession linked (h.alone_of_idle caller) ?_
    intro other found
    exact absurd ((h.alone_of_idle called).symm.trans found) (by simp)
  · exact h.rooms.registerSession linked (h.outside_of_idle caller) (h.outside_of_idle called)
  · intro u peer room found member
    rw [hrooms]
    rw [hpeers] at found
    by_cases isCallee : u = callee
    · subst isCallee
      have entry : { calleePeer with status := some inSession } = peer := by simpa using found
      rw [← entry] at member
      exact absurd (Option.some.inj member.1).symm member.2.2
    · by_cases isCaller : u = uid
      · subst isCaller
        have entry : { callerPeer with status := some inSession } = peer := by
          simpa [isCallee] using found
        rw [← entry] at member
        exact absurd (Option.some.inj member.1).symm member.2.2
      · exact h.existing u peer room (by simpa [isCallee, isCaller] using found) member

/-- Registering a session once more writes nothing new. -/
theorem registerSession_again (h : Tidy srv) {callee : Uid} {srv' : WebRTCSimpleServer}
    (linked : srv.registerSession uid callee = some srv')
    (pair : srv.sessions uid = some callee ∧ srv.sessions callee = some uid) : srv' = srv := by
  obtain ⟨callerPeer, calleePeer, huid, hcallee, hpeers, hsessions, hrooms⟩ :=
    registerSession_eq linked
  have same : ∀ {u other peer}, srv.sessions u = some other → srv.peers u = some peer →
      Function.update srv.peers u (some { peer with status := some inSession }) = srv.peers := by
    intro u other peer key found
    obtain ⟨peer', found', busy⟩ := h.sessions.busy u other key
    cases found.symm.trans found'
    refine Function.update_eq_self_iff.mpr ?_
    rw [found, ← busy]
  have peers : srv'.peers = srv.peers := by
    rw [hpeers, same pair.1 huid, same pair.2 hcallee]
  have sessions : srv'.sessions = srv.sessions := by
    have first : Function.update srv.sessions uid (some callee) = srv.sessions :=
      Function.update_eq_self_iff.mpr pair.1.symm
    rw [hsessions, first]
    exact Function.update_eq_self_iff.mpr pair.2.symm
  cases srv
  cases srv'
  simp_all

theorem cleaned {result : WebRTCSimpleServer × Option ConnId} (h : Tidy srv)
    (cleaned : SessionCleaned srv uid result) :
    Tidy result.1 ∧ result.1.sessions uid = none := by
  obtain ⟨sessions, alone⟩ := h.sessions.cleaned cleaned
  obtain ⟨rooms, -⟩ := h.rooms.cleaned cleaned
  refine ⟨⟨sessions.mono fun _ _ => trivial, rooms, ?_⟩, alone⟩
  intro u peer room found member
  have before := h.existing u peer room (cleaned.shrinks.peers u peer found) member
  cases cleaned <;> exact before

end Tidy

/-! ## A turn of `remove_peer` -/

/-- A uid that no session and no room mentions. -/
def Unlinked (srv : WebRTCSimpleServer) (uid : Uid) : Prop :=
  srv.sessions uid = none ∧ ∀ room, uid ∉ srv.members room

theorem Unlinked.shrinks {a b : WebRTCSimpleServer} {uid : Uid} (h : Unlinked a uid)
    (shrinks : Shrinks a b) : Unlinked b uid := by
  refine ⟨?_, fun room inside => h.2 room (shrinks.members room uid inside)⟩
  cases linked : b.sessions uid with
  | none => rfl
  | some other => exact absurd (h.1.symm.trans (shrinks.sessions uid other linked)) (by simp)

/-- What a turn of `remove_peer(uid)` leaves behind. -/
structure Swept (srv : WebRTCSimpleServer) (uid : Uid) (t : Turn) : Prop where
  tidy : Tidy t.server
  shrinks : Shrinks srv t.server
  departing : t.phase.Departing uid
  removing : t.phase.Removing uid → Unlinked t.server uid
  removed : t.phase.Removed uid → Forgotten t.server uid

section Removal

variable {srv : WebRTCSimpleServer} {uid : Uid} {t : Turn}

theorem swept_stop (tidy : Tidy srv) (absent : srv.peers uid = none) :
    Swept srv uid (.stop srv (some uid)) where
  tidy := tidy
  shrinks := .refl srv
  departing := Or.inr rfl
  removing := False.elim
  removed _ := tidy.forgotten absent

theorem deletePeer_swept (tidy : Tidy srv) (alone : srv.sessions uid = none)
    (outside : ∀ room, uid ∉ srv.members room) (ws : ConnId) :
    Swept srv uid (deletePeer srv uid ws) := by
  unfold deletePeer
  split
  · next absent => exact swept_stop tidy absent
  · have after : Tidy (srv.writePeer uid none) :=
      tidy.writePeer outside alone (by rintro peer ⟨⟩)
    exact ⟨after, .dropPeer srv uid, Or.inl ⟨_, rfl⟩, False.elim,
      fun _ => after.forgotten (by simp)⟩

theorem LeftAnnounced.swept {ws : ConnId} {room : RoomId} {it : Iter Uid}
    (announced : LeftAnnounced srv uid ws room it t) (tidy : Tidy srv)
    (alone : srv.sessions uid = none) (outside : ∀ room, uid ∉ srv.members room)
    (size : ∀ set, srv.rooms room = some set → set.elems.card = it.used ∨ srv.peers uid = none) :
    Swept srv uid t := by
  cases announced with
  | changedSize found changed => exact swept_stop tidy ((size _ found).resolve_left changed)
  | finished found same all => exact deletePeer_swept tidy alone outside ws
  | missing found member absent =>
      rw [← members_of_rooms found] at member
      exact absurd member (tidy.rooms.outside_of_absent absent room)
  | notice found same member fresh recipient =>
      exact ⟨tidy, .refl srv, Or.inl ⟨_, rfl⟩, fun _ => ⟨alone, outside⟩, False.elim⟩

theorem EntryRemoved.swept (removed : EntryRemoved srv uid t) (tidy : Tidy srv)
    (alone : srv.sessions uid = none) : Swept srv uid t := by
  cases removed with
  | absent unregistered => exact swept_stop tidy unregistered
  | plain registered outside =>
      exact deletePeer_swept tidy alone (tidy.rooms.outside_of_status registered outside) _
  | noRoom registered member missing => exact absurd missing (tidy.existing _ _ _ registered member)
  | @notListed peer room set registered member found unlisted =>
      refine deletePeer_swept tidy alone (fun r inside => ?_) _
      obtain ⟨-, -, peer', found', status⟩ := tidy.rooms.listed r uid inside
      cases registered.symm.trans found'
      cases status.symm.trans member.1
      rw [members_of_rooms found] at inside
      exact unlisted inside
  | @leaves peer room set t registered member found listed announced =>
      have outside : ∀ r, uid ∉ (srv.writeRoom room (set.remove uid)).members r := by
        intro r
        rw [members_writeRoom]
        by_cases same : r = room
        · simp [same]
        · rw [Function.update_of_ne same]
          intro inside
          obtain ⟨-, -, peer', found', status⟩ := tidy.rooms.listed r uid inside
          cases registered.symm.trans found'
          exact same (Option.some.inj (status.symm.trans member.1))
      have swept := announced.swept (tidy.leaveRoom found) alone outside (by
        intro set' found'
        have same : set.remove uid = set' := by simpa using found'
        exact Or.inl (congrArg (fun s => s.elems.card) same).symm)
      exact ⟨swept.tidy, (Shrinks.leaveRoom found uid).trans swept.shrinks, swept.departing,
        swept.removing, swept.removed⟩

theorem Removed.swept (removed : Removed srv uid t) (tidy : Tidy srv) : Swept srv uid t := by
  cases removed with
  | partner cleaned =>
      obtain ⟨after, alone⟩ := tidy.cleaned cleaned
      refine ⟨after, cleaned.shrinks, Or.inl ⟨_, rfl⟩, fun _ => ⟨alone, ?_⟩, False.elim⟩
      -- a uid that had a partner was in a session, not in a room
      intro room inside
      obtain ⟨-, notSession, peer, found, status⟩ :=
        tidy.rooms.listed room uid (cleaned.shrinks.members room uid inside)
      cases cleaned with
      | partner linked different linkedBack registered =>
          obtain ⟨peer', found', busy⟩ := tidy.sessions.busy uid _ linked
          cases found.symm.trans found'
          exact notSession (Option.some.inj (status.symm.trans busy))
  | entry cleaned removed =>
      obtain ⟨after, alone⟩ := tidy.cleaned cleaned
      have swept := removed.swept after alone
      exact ⟨swept.tidy, cleaned.shrinks.trans swept.shrinks, swept.departing, swept.removing,
        swept.removed⟩

end Removal

/-! ## One step -/

/-- The room that the handler is about to enter exists. -/
def Phase.Enterable (srv : WebRTCSimpleServer) : Phase → Prop
  | running _ _ (.roomOk room) => room ≠ [] ∧ room ≠ inSession ∧ srv.rooms room ≠ none
  | _ => True

theorem Phase.Enterable.mono {a b : WebRTCSimpleServer} {phase : Phase} (h : phase.Enterable a)
    (rooms : RoomsKept a b) : phase.Enterable b := by
  cases phase with
  | running uid roomId point =>
      cases point with
      | roomOk room => exact ⟨h.1, h.2.1, rooms room h.2.2⟩
      | _ => trivial
  | _ => trivial

structure CleanupInv (w : World) : Prop where
  tidy : Tidy w.server
  entering : ∀ k, (w.phase k).Enterable w.server
  removing : ∀ k uid, (w.phase k).Removing uid → Unlinked w.server uid

section Step

variable {w w' : World} {act : Act} {t : Turn}

/-- What a stretch of the loop leaves behind. -/
structure KeptTidy (w : World) (uid : Uid) (body : Body) : Prop where
  tidy : Tidy body.server
  rooms : RoomsKept w.server body.server
  unlinked : ∀ k u, (w.phase k).Removing u → Unlinked body.server u
  next : body.Next uid fun srv phase => phase.Enterable srv

theorem Runs.tidy {uid : Uid} {roomId : Option RoomId} {body : Body}
    (runs : Runs w uid roomId act body) (inv : CleanupInv w) (guard : Undisturbed w act) :
    KeptTidy w uid body := by
  have unchanged : ∀ {body : Body}, body.server = w.server →
      body.Next uid (fun srv phase => phase.Enterable srv) → KeptTidy w uid body := by
    intro body same next
    exact ⟨same ▸ inv.tidy, .of_rooms (congrArg _ same), same ▸ inv.removing, next⟩
  cases runs with
  | message waiting handled =>
      cases handled with
      | @newRoom _ _ room registered idle command fields valid notSession missing lists =>
          refine ⟨inv.tidy.newRoom missing, .writeRoom _ _ _, ?_, valid.ne_nil, notSession, by simp⟩
          intro k u removing
          refine ⟨(inv.removing k u removing).1, fun r inside => ?_⟩
          simp only [Body.server, members_writeRoom] at inside
          by_cases same : r = room
          · simp [same] at inside
          · exact (inv.removing k u removing).2 r (by simpa [same] using inside)
      | oldRoom registered idle command fields valid notSession found fresh lists =>
          exact unchanged rfl ⟨valid.ne_nil, notSession, by simp [found]⟩
      | _ => exact unchanged rfl trivial
  | closed unusable waiting => exact unchanged rfl trivial
  | raised mayRaise waiting => exact unchanged rfl trivial
  | continued mayReturn waiting plain => exact unchanged rfl trivial
  | @session k pick callee srv mayReturn waiting linked =>
      rcases guard.session k pick uid roomId callee rfl waiting with ⟨caller, called⟩ | pair
      · refine ⟨inv.tidy.registerSession linked ?_, ?_, ?_, trivial⟩
        · rintro u peer (rfl | rfl) found
          · exact caller.1 peer found
          · exact called.1 peer found
        · obtain ⟨callerPeer, calleePeer, -, -, -, -, rooms⟩ := registerSession_eq linked
          exact .of_rooms rooms
        · intro j u removing
          have notCaller : u ≠ uid := fun same => caller.2 j (same ▸ removing)
          have notCallee : u ≠ callee := fun same => called.2 j (same ▸ removing)
          obtain ⟨callerPeer, calleePeer, -, -, -, -, rooms⟩ := registerSession_eq linked
          refine ⟨?_, ?_⟩
          · simp only [Body.server, Sessions.registered_sessions linked, notCaller, notCallee,
              if_false]
            exact (inv.removing j u removing).1
          · simp only [Body.server, members_congr rooms]
            exact (inv.removing j u removing).2
      · exact unchanged (inv.tidy.registerSession_again linked pair) trivial
  | sessionFailed mayReturn waiting missing => exact unchanged rfl trivial
  | @room k pick room body mayReturn waiting entered =>
      obtain ⟨idle, alone⟩ := guard.room k pick uid roomId room rfl waiting
      have enterable := inv.entering k
      rw [waiting] at enterable
      obtain ⟨nonempty, notSession, exists'⟩ := enterable
      cases entered with
      | unregistered absent => exact unchanged rfl trivial
      | noRoom registered missing => exact absurd missing exists'
      | @entered peer set body registered found announced =>
          have server := announced.server_eq
          refine ⟨?_, ?_, ?_, ?_⟩
          · rw [server]
            exact inv.tidy.enterRoom registered (idle _ registered) found nonempty notSession
          · rw [server]
            exact .writeRoom _ _ _
          · intro j u removing
            have other : u ≠ uid := fun same => alone j (same ▸ removing)
            obtain ⟨noKey, noRoom⟩ := inv.removing j u removing
            rw [server]
            refine ⟨noKey, fun r inside => ?_⟩
            rw [members_writeRoom, members_writePeer] at inside
            by_cases same : r = room
            · subst same
              have before : u ∈ set.elems := by simpa [other] using inside
              exact noRoom r (by rwa [members_of_rooms found])
            · exact noRoom r (by simpa [same] using inside)
          · cases announced <;> trivial
  | joined mayReturn waiting announced =>
      refine unchanged announced.server_eq ?_
      cases announced <;> trivial

/-- What a turn of handler `k` leaves behind. -/
structure TurnTidy (w : World) (k : ConnId) (t : Turn) : Prop where
  tidy : Tidy t.server
  unlinked : ∀ j u, j ≠ k → (w.phase j).Removing u → Unlinked t.server u
  rooms : RoomsKept w.server t.server
  enterable : t.phase.Enterable t.server
  removing : ∀ u, t.phase.Removing u → Unlinked t.server u
  removed : ∀ u, ¬ (w.phase k).Removed u → t.phase.Removed u → Forgotten t.server u

theorem Phase.Departing.uid {phase : Phase} {uid u : Uid} (h : phase.Departing uid)
    (ended : phase.Removing u ∨ phase.Removed u) : uid = u := by
  rcases h with ⟨point, rfl⟩ | rfl
  · cases point with
    | close => exact ended.elim False.elim id
    | _ => exact ended.elim id False.elim
  · exact ended.elim False.elim id

theorem Swept.turnTidy {srv : WebRTCSimpleServer} {uid : Uid} {k : ConnId}
    (swept : Swept srv uid t) (rooms : RoomsKept w.server t.server)
    (unlinked : ∀ j u, (w.phase j).Removing u → Unlinked srv u) : TurnTidy w k t where
  tidy := swept.tidy
  unlinked j u _ removing := (unlinked j u removing).shrinks swept.shrinks
  rooms := rooms
  enterable := by
    rcases swept.departing with ⟨point, leaving⟩ | done
    · rw [leaving]
      trivial
    · rw [done]
      trivial
  removing u removing := by
    obtain rfl := swept.departing.uid (Or.inl removing)
    exact swept.removing removing
  removed u _ removed := by
    obtain rfl := swept.departing.uid (Or.inr removed)
    exact swept.removed removed

/-- A turn outside `remove_peer`, or after it. -/
theorem turnTidy_of_phase {k : ConnId} (tidy : Tidy t.server) (rooms : RoomsKept w.server t.server)
    (unlinked : ∀ j u, (w.phase j).Removing u → Unlinked t.server u)
    (enterable : t.phase.Enterable t.server) (staying : ∀ u, ¬ t.phase.Removing u)
    (ended : ∀ u, t.phase.Removed u → (w.phase k).Removed u) : TurnTidy w k t where
  tidy := tidy
  unlinked j u _ := unlinked j u
  rooms := rooms
  enterable := enterable
  removing u removing := absurd removing (staying u)
  removed u before removed := absurd (ended u removed) before

theorem Fires.turnTidy (fires : Fires w act t) (inv : CleanupInv w) (guard : Undisturbed w act) :
    TurnTidy w act.conn t := by
  cases fires with
  | @registered k pick uid mayReturn waiting =>
      have idle := fun peer => guard.register k pick uid peer rfl waiting
      have after : Tidy (w.server.register k uid) :=
        inv.tidy.writePeer (inv.tidy.outside_of_idle idle) (inv.tidy.alone_of_idle idle) (by simp)
      refine turnTidy_of_phase after (.of_rooms rfl) ?_ trivial (fun _ => id) (fun _ => False.elim)
      intro j u removing
      exact ⟨(inv.removing j u removing).1, (inv.removing j u removing).2⟩
  | loops runs =>
      have kept := runs.tidy inv guard
      exact turnTidy_of_phase kept.tidy kept.rooms kept.unlinked kept.next (fun _ => id)
        (fun _ => False.elim)
  | sends runs =>
      have kept := runs.tidy inv guard
      exact turnTidy_of_phase kept.tidy kept.rooms kept.unlinked kept.next (fun _ => id)
        (fun _ => False.elim)
  | leaves runs removed =>
      have kept := runs.tidy inv guard
      exact (removed.swept kept.tidy).turnTidy (kept.rooms.trans removed.roomsKept) kept.unlinked
  | @partnerClosed k pick uid t mayReturn waiting removed =>
      have alone := (inv.removing k uid (waiting ▸ rfl)).1
      exact (removed.swept inv.tidy alone).turnTidy removed.roomsKept inv.removing
  | @leftSent k pick uid ws room it t mayReturn waiting announced =>
      obtain ⟨alone, outside⟩ := inv.removing k uid (waiting ▸ rfl)
      have swept := announced.swept inv.tidy alone outside fun set found =>
        guard.size k pick uid ws room it set rfl waiting found
      exact swept.turnTidy announced.roomsKept inv.removing
  | @leaveRaised k pick uid point mayRaise waiting =>
      cases point with
      | close =>
          refine turnTidy_of_phase inv.tidy (.of_rooms rfl) inv.removing trivial (fun _ => id) ?_
          rintro u rfl
          rw [Act.conn, waiting]
          rfl
      | _ =>
          have absent := guard.delivered k pick uid rfl (waiting ▸ rfl)
          exact (swept_stop inv.tidy absent).turnTidy (.of_rooms rfl) inv.removing
  | finished waiting =>
      refine turnTidy_of_phase inv.tidy (.of_rooms rfl) inv.removing trivial (fun _ => id) ?_
      rintro u rfl
      rw [Act.conn, waiting]
      rfl
  | _ =>
      exact turnTidy_of_phase inv.tidy (.of_rooms rfl) inv.removing trivial (fun _ => id)
        (fun _ => False.elim)

end Step

namespace CleanupInv

variable {w w' : World} {act : Act}

theorem init : CleanupInv World.empty :=
  ⟨⟨.empty _, .empty _, by rintro u peer room ⟨⟩⟩, fun _ => trivial, fun _ _ => False.elim⟩

theorem step (inv : CleanupInv w) (guard : Undisturbed w act) (h : w.step act = some w') :
    CleanupInv w' := by
  rcases step_cases h with ⟨k, rfl, absent, rfl⟩ | ⟨k, rfl, usable, rfl⟩ | ⟨t, fires, rfl⟩
  · refine ⟨inv.tidy, ?_, ?_⟩
    · intro j
      rw [World.phase_setConn]
      split
      · trivial
      · exact inv.entering j
    · intro j uid
      rw [World.phase_setConn]
      split
      · exact False.elim
      · exact inv.removing j uid
  · refine ⟨inv.tidy, ?_, ?_⟩
    · intro j
      rw [World.phase_lose]
      exact inv.entering j
    · intro j uid
      rw [World.phase_lose]
      exact inv.removing j uid
  · have after := fires.turnTidy inv guard
    refine ⟨?_, ?_, ?_⟩
    · rw [World.apply_server]
      exact after.tidy
    · intro j
      rw [World.apply_server]
      by_cases self : j = act.conn
      · rw [self, World.apply_phase_self]
        exact after.enterable
      · rw [World.apply_phase_of_ne _ _ _ self]
        exact (inv.entering j).mono after.rooms
    · intro j uid removing
      rw [World.apply_server]
      by_cases self : j = act.conn
      · rw [self, World.apply_phase_self] at removing
        exact after.removing uid removing
      · rw [World.apply_phase_of_ne _ _ _ self] at removing
        exact after.unlinked j uid self removing

theorem of_reachable (run : interleaved.Reachable Undisturbed w) : CleanupInv w :=
  run.invariant init fun _ _ _ inv guard h => inv.step guard h

/-- The step that ends a removal forgets the uid. -/
theorem forgotten (inv : CleanupInv w) (guard : Undisturbed w act) (h : w.step act = some w')
    {k : ConnId} {uid : Uid} (before : ¬ (w.phase k).Removed uid)
    (ended : (w'.phase k).Removed uid) : Forgotten w'.server uid := by
  rcases step_cases h with ⟨j, rfl, absent, rfl⟩ | ⟨j, rfl, usable, rfl⟩ | ⟨t, fires, rfl⟩
  · rw [World.phase_setConn] at ended
    split at ended
    · exact ended.elim
    · exact absurd ended before
  · rw [World.phase_lose] at ended
    exact absurd ended before
  · rw [World.apply_server]
    by_cases self : k = act.conn
    · subst self
      rw [World.apply_phase_self] at ended
      exact (fires.turnTidy inv guard).removed uid before ended
    · rw [World.apply_phase_of_ne _ _ _ self] at ended
      exact absurd ended before

end CleanupInv

/-! ## Until the uid is registered again -/

section Forgotten

variable {w w' : World} {act : Act} {t : Turn} {u : Uid}

theorem Forgotten.shrinks {a b : WebRTCSimpleServer} (h : Forgotten a u) (shrinks : Shrinks a b) :
    Forgotten b u where
  unregistered := by
    cases found : b.peers u with
    | none => rfl
    | some peer =>
        exact absurd (h.unregistered.symm.trans (shrinks.peers u peer found)) (by simp)
  noKey := by
    cases linked : b.sessions u with
    | none => rfl
    | some other => exact absurd (shrinks.sessions u other linked) (by simp [h.noKey])
  noValue other linked := h.noValue other (shrinks.sessions other u linked)
  noRoom room inside := h.noRoom room (shrinks.members room u inside)

/-- Sessions and rooms take registered uids only. -/
theorem Runs.forgotten {uid : Uid} {roomId : Option RoomId} {body : Body}
    (runs : Runs w uid roomId act body) (h : Forgotten w.server u) : Forgotten body.server u := by
  have different : ∀ {v peer}, w.server.peers v = some peer → u ≠ v := by
    rintro v peer found rfl
    exact absurd (h.unregistered.symm.trans found) (by simp)
  cases runs with
  | message waiting handled =>
      cases handled with
      | @newRoom _ _ room registered idle command fields valid notSession missing lists =>
          refine ⟨h.unregistered, h.noKey, h.noValue, fun r inside => ?_⟩
          simp only [Body.server, members_writeRoom] at inside
          by_cases same : r = room
          · simp [same] at inside
          · exact h.noRoom r (by simpa [same] using inside)
      | _ => exact h
  | session mayReturn waiting linked =>
      obtain ⟨callerPeer, calleePeer, huid, hcallee, hpeers, -, rooms⟩ := registerSession_eq linked
      have notCaller := different huid
      have notCallee := different hcallee
      have sessions := Sessions.registered_sessions linked
      refine ⟨?_, ?_, ?_, ?_⟩
      · simp [Body.server, hpeers, notCaller, notCallee, h.unregistered]
      · simp [Body.server, sessions, notCaller, notCallee, h.noKey]
      · intro other found
        simp only [Body.server, sessions] at found
        split at found
        · exact notCaller (Option.some.inj found).symm
        · split at found
          · exact notCallee (Option.some.inj found).symm
          · exact h.noValue other found
      · simp only [Body.server, members_congr rooms]
        exact h.noRoom
  | @room k pick room body mayReturn waiting entered =>
      cases entered with
      | unregistered absent => exact h
      | noRoom registered missing =>
          refine ⟨?_, h.noKey, h.noValue, h.noRoom⟩
          simp [Body.server, different registered, h.unregistered]
      | @entered peer set body registered found announced =>
          rw [announced.server_eq]
          refine ⟨?_, h.noKey, h.noValue, fun r inside => ?_⟩
          · simp [different registered, h.unregistered]
          · rw [members_writeRoom, members_writePeer] at inside
            refine h.noRoom r ?_
            by_cases same : r = room
            · subst same
              rw [members_of_rooms found]
              simpa [different registered] using inside
            · simpa [same] using inside
  | joined mayReturn waiting announced =>
      rw [announced.server_eq]
      exact h
  | _ => exact h

theorem Forgotten.step (h : Forgotten w.server u) (free : ¬ Registers u w act)
    (next : w.step act = some w') : Forgotten w'.server u := by
  rcases step_cases next with ⟨j, rfl, absent, rfl⟩ | ⟨j, rfl, usable, rfl⟩ | ⟨t, fires, rfl⟩
  · exact h
  · exact h
  · rw [World.apply_server]
    cases fires with
    | @registered k pick uid mayReturn waiting =>
        have other : u ≠ uid := by
          rintro rfl
          exact free ⟨k, pick, rfl, waiting⟩
        refine ⟨?_, h.noKey, h.noValue, h.noRoom⟩
        simp [Turn.server, register, other, h.unregistered]
    | loops runs => exact runs.forgotten h
    | sends runs => exact runs.forgotten h
    | leaves runs removed => exact (runs.forgotten h).shrinks removed.shrinks
    | partnerClosed mayReturn waiting removed => exact h.shrinks removed.shrinks
    | leftSent mayReturn waiting announced => exact h.shrinks announced.shrinks
    | _ => exact h

end Forgotten

/--
In the runs that nobody disturbs, a `remove_peer(uid)` that is over leaves
nothing of the uid behind, and so it stays until the uid is registered again.
-/
theorem cleanup_complete {w w' v : World} {act : Act} {k : ConnId} {uid : Uid}
    (reachable : interleaved.Reachable Undisturbed w) (guard : Undisturbed w act)
    (h : w.step act = some w') (before : ¬ (w.phase k).Removed uid)
    (ended : (w'.phase k).Removed uid)
    (later : interleaved.Run (fun v act => ¬ Registers uid v act) w' v) :
    Forgotten v.server uid := by
  have forgotten := (CleanupInv.of_reachable reachable).forgotten guard h before ended
  exact later.invariant (P := fun v => Forgotten v.server uid) forgotten
    fun _ _ _ kept free next => kept.step free next

/-! ## Checking that nobody is disturbed -/

/-- `Unclaimed` on the first `n` connections, the only ones in use. -/
def unclaimedBelow (n : Nat) (w : World) (uid : Uid) : Bool :=
  ((w.server.peers uid).all fun peer => peer.status = none) &&
    (List.range n).all fun k => ¬ (w.phase k).Removing uid

/-- Enough for `Undisturbed` when only the first `n` connections are in use. -/
def undisturbedBelow (n : Nat) (w : World) : Act → Bool
  | .resume k false _ =>
      match w.phase k with
      | .running uid _ (.sessionOk callee) => unclaimedBelow n w uid && unclaimedBelow n w callee
      | .running uid _ (.roomOk _) => unclaimedBelow n w uid
      | .ack uid => (w.server.peers uid).all fun peer => peer.status = none
      | .leaving _ (.left _ room it) =>
          (w.server.rooms room).all fun set => set.elems.card = it.used
      | _ => true
  | .resume _ true _ => false
  | _ => true

/-- Whether the step registers `uid`. -/
def registers (uid : Uid) (w : World) : Act → Bool
  | .resume k false _ =>
      match w.phase k with
      | .ack u => u = uid
      | _ => false
  | _ => false

section Checked

variable {n : Nat} {w : World} {act : Act} {uid : Uid}

theorem unclaimed_of_below (absent : AbsentFrom n w) (ok : unclaimedBelow n w uid = true) :
    Unclaimed w uid := by
  obtain ⟨idle, free⟩ := Bool.and_eq_true_iff.mp ok
  refine ⟨fun peer found => by simpa [found] using idle, fun k removing => ?_⟩
  by_cases used : k < n
  · have kept := List.all_eq_true.mp free k (List.mem_range.mpr used)
    exact of_decide_eq_true kept removing
  · rw [absent k (Nat.le_of_not_lt used)] at removing
    exact removing

theorem undisturbed_of_below (absent : AbsentFrom n w) (ok : undisturbedBelow n w act = true) :
    Undisturbed w act := by
  refine ⟨?_, ?_, ?_, ?_, ?_⟩
  · rintro k pick u roomId callee rfl waiting
    simp only [undisturbedBelow, waiting, Bool.and_eq_true] at ok
    exact Or.inl ⟨unclaimed_of_below absent ok.1, unclaimed_of_below absent ok.2⟩
  · rintro k pick u roomId room rfl waiting
    simp only [undisturbedBelow, waiting] at ok
    exact unclaimed_of_below absent ok
  · rintro k pick u peer rfl waiting found
    simpa [undisturbedBelow, waiting, found] using ok
  · rintro k pick u rfl
    cases ok
  · rintro k pick u ws room it set rfl waiting found
    exact Or.inl (by simpa [undisturbedBelow, waiting, found] using ok)

theorem not_registers (ok : (!registers uid w act) = true) : ¬ Registers uid w act := by
  rintro ⟨k, pick, rfl, waiting⟩
  simp [registers, waiting] at ok

end Checked

/--
A member leaves a room in which another one stays, while two more are in a
session.  Later a newcomer enters the room.
-/
theorem cleanup_complete_member :
    ∃ w' v, (w'.phase 0).Removed "x".toList ∧
      interleaved.Run (fun v act => ¬ Registers "x".toList v act) w' v ∧
      Forgotten v.server "x".toList ∧ v.server.members "r".toList = {"y".toList, "e".toList} ∧
      v.server.sessions "c".toList = some "d".toList := by
  obtain ⟨w, reachable, absent, test⟩ := exists_of_checked (undisturbedBelow 4)
    (fun _ _ => undisturbed_of_below)
    (greeting 0 "x" ++ greeting 1 "y" ++ greeting 2 "c" ++ greeting 3 "d" ++
      [.recv 2 "SESSION d".toList [] none, .resume 2 false none,
        .recv 0 "ROOM r".toList [] none, .resume 0 false none,
        .recv 1 "ROOM r".toList ["x".toList] none, .resume 1 false (some "x".toList),
        .resume 1 false none, .lose 0, .closed 0 (some "y".toList)])
    (fun w => undisturbedBelow 4 w (.resume 0 false none) && ¬ (w.phase 0).Removed "x".toList &&
      (w.step (.resume 0 false none)).any fun w' => (w'.phase 0).Removed "x".toList &&
        (interleaved.execIf (fun v act => !registers "x".toList v act) w'
          (.resume 0 false none :: greeting 4 "e" ++
            [.recv 4 "ROOM r".toList ["y".toList] none, .resume 4 false (some "y".toList),
              .resume 4 false none])).any fun v =>
          v.server.members "r".toList = {"y".toList, "e".toList} ∧
            v.server.sessions "c".toList = some "d".toList)
    (by decide)
  simp only [Bool.and_eq_true, decide_eq_true_eq, Option.any_eq_true] at test
  obtain ⟨⟨ok, before⟩, w', h, ended, v, done, stays, linked⟩ := test
  have guard : Undisturbed w (.resume 0 false none) := undisturbed_of_below absent ok
  have later : interleaved.Run (fun v act => ¬ Registers "x".toList v act) w' v :=
    (interleaved.run_of_execIf (fun _ => True) (fun _ _ _ free => not_registers free)
      (fun _ _ _ _ _ _ => True.intro) _ True.intro done).1
  exact ⟨w', v, ended, later, cleanup_complete reachable guard h before ended later, stays, linked⟩

/-- A member leaves a room whose other member has just gone away. -/
theorem cleanup_aborted :
    ¬ ∀ w act w' k uid v, interleaved.Reachable Machine.anyAction w → w.step act = some w' →
      ¬ (w.phase k).Removed uid → (w'.phase k).Removed uid →
      interleaved.Run (fun v act => ¬ Registers uid v act) w' v → Forgotten v.server uid := by
  intro complete
  obtain ⟨w, reachable, test⟩ := interleaved.exists_reachable_of_exec
    (greeting 0 "x" ++ greeting 1 "y" ++
      [.recv 0 "ROOM r".toList [] none, .resume 0 false none,
        .recv 1 "ROOM r".toList ["x".toList] none, .resume 1 false (some "x".toList),
        .resume 1 false none, .lose 0, .lose 1, .closed 0 (some "y".toList)])
    (fun w => ¬ (w.phase 0).Removed "x".toList && (w.step (.resume 0 true none)).any fun w' =>
      (w'.phase 0).Removed "x".toList && (w'.server.peers "x".toList).isSome) (by decide)
  simp only [Bool.and_eq_true, decide_eq_true_eq, Option.any_eq_true] at test
  obtain ⟨before, w', h, ended, still⟩ := test
  have forgotten := complete w _ w' 0 _ w' reachable h before ended .refl
  rw [forgotten.unregistered] at still
  cases still

end GstWebrtc.Signalling
