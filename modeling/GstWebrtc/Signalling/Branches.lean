import GstWebrtc.Signalling.Handler

/-!
# The branches of the handler's functions

One inversion for each function: every result it can return, with the lookups
and tests that lead there.
-/

namespace GstWebrtc.Signalling

open GstWebrtc.Base GstWebrtc.Base.PyText WebRTCSimpleServer

theorem helloPeer_cases (srv : WebRTCSimpleServer) (ws : ConnId) (msg : Text) :
    helloPeer srv ws msg = .stop srv none ∨
    helloPeer srv ws msg = .close srv ws .reject ∨
    ∃ uid, splitMax 1 msg = ["HELLO".toList, uid] ∧ srv.peers uid = none ∧ Word uid ∧
      helloPeer srv ws msg = .send srv ws .hello (.ack uid) := by
  unfold helloPeer
  split
  · next hello uid fields =>
      split
      · exact Or.inr (Or.inl rfl)
      · next greeted =>
          split
          · exact Or.inr (Or.inl rfl)
          · next accepted =>
              simp only [not_or, not_not] at greeted accepted
              refine Or.inr (Or.inr ⟨uid, ?_, ?_, ?_, rfl⟩)
              · rw [fields, greeted]
              · simpa using accepted.2.1
              · exact split_eq_singleton_iff.mp accepted.2.2
  · exact Or.inl rfl

/-- Why `connection_handler` raises before its next await. -/
inductive Raises (srv : WebRTCSimpleServer) (uid : Uid) (roomId : Option RoomId) (msg : Text) :
    Prop where
  | unregistered (absent : srv.peers uid = none)
  | noPartner {peer} (registered : srv.peers uid = some peer) (busy : peer.status = some inSession)
      (broken : ∀ other, srv.sessions uid = some other →
        ∀ partner, srv.peers other = some partner → partner.status ≠ some inSession)
  | emptyStatus {peer} (registered : srv.peers uid = some peer) (empty : peer.status = some [])
  | peerMsgFields {peer room} (registered : srv.peers uid = some peer)
      (member : IsRoom peer.status room) (command : "ROOM_PEER_MSG".toList <+: msg)
      (fields : ∀ word other payload, splitMax 2 msg ≠ [word, other, payload])
  | unassigned {peer room} (registered : srv.peers uid = some peer)
      (member : IsRoom peer.status room) (unset : roomId = none)
  | peerList {peer room} (registered : srv.peers uid = some peer)
      (member : IsRoom peer.status room) (command : msg = "ROOM_PEER_LIST".toList)
  | sessionFields {peer} (registered : srv.peers uid = some peer) (idle : peer.status = none)
      (command : "SESSION".toList <+: msg) (fields : ∀ word callee, splitMax 1 msg ≠ [word, callee])
  | roomFields {peer} (registered : srv.peers uid = some peer) (idle : peer.status = none)
      (command : "ROOM".toList <+: msg) (fields : ∀ word room, splitMax 1 msg ≠ [word, room])
  | alreadyMember {peer word room} (registered : srv.peers uid = some peer)
      (idle : peer.status = none) (command : "ROOM".toList <+: msg)
      (fields : splitMax 1 msg = [word, room]) (member : uid ∈ srv.members room)

/-- The outcomes of one message, up to the next await. -/
inductive Handled (srv : WebRTCSimpleServer) (ws : ConnId) (uid : Uid) (roomId : Option RoomId)
    (order : List Uid) (msg : Text) : Body → Prop where
  | raise {exn} (reason : Raises srv uid roomId msg) :
      Handled srv ws uid roomId order msg (.raise srv exn)
  | ignored {peer} (registered : srv.peers uid = some peer) (idle : peer.status = none)
      (notSession : ¬ "SESSION".toList <+: msg) (notRoom : ¬ "ROOM".toList <+: msg) :
      Handled srv ws uid roomId order msg (.recv srv roomId)
  | relay {peer other partner} (registered : srv.peers uid = some peer)
      (busy : peer.status = some inSession) (linked : srv.sessions uid = some other)
      (found : srv.peers other = some partner) (partnerBusy : partner.status = some inSession) :
      Handled srv ws uid roomId order msg (.send srv roomId partner.ws (.relay msg) .sent)
  | notFound {peer room word other payload} (registered : srv.peers uid = some peer)
      (member : IsRoom peer.status room) (command : "ROOM_PEER_MSG".toList <+: msg)
      (fields : splitMax 2 msg = [word, other, payload]) (absent : srv.peers other = none) :
      Handled srv ws uid roomId order msg (.send srv roomId ws (.notFound other) .sent)
  | notInRoom {peer room word other payload target current} (registered : srv.peers uid = some peer)
      (member : IsRoom peer.status room) (command : "ROOM_PEER_MSG".toList <+: msg)
      (fields : splitMax 2 msg = [word, other, payload]) (found : srv.peers other = some target)
      (assigned : roomId = some current) (elsewhere : target.status ≠ some current) :
      Handled srv ws uid roomId order msg (.send srv roomId ws (.notInRoom other) .sent)
  | peerMsg {peer room word other payload target current} (registered : srv.peers uid = some peer)
      (member : IsRoom peer.status room) (command : "ROOM_PEER_MSG".toList <+: msg)
      (fields : splitMax 2 msg = [word, other, payload]) (found : srv.peers other = some target)
      (assigned : roomId = some current) (sameRoom : target.status = some current) :
      Handled srv ws uid roomId order msg
        (.send srv roomId target.ws (.peerMsg uid payload) .sent)
  | alreadyInRoom {peer room} (registered : srv.peers uid = some peer)
      (member : IsRoom peer.status room) (other : ¬ "ROOM_PEER_MSG".toList <+: msg) :
      Handled srv ws uid roomId order msg (.send srv roomId ws .alreadyInRoom .sent)
  | calleeAbsent {peer word callee} (registered : srv.peers uid = some peer)
      (idle : peer.status = none) (command : "SESSION".toList <+: msg)
      (fields : splitMax 1 msg = [word, callee]) (absent : srv.peers callee = none) :
      Handled srv ws uid roomId order msg (.send srv roomId ws (.notFound callee) .sent)
  | sessionOk {peer word callee calleePeer} (registered : srv.peers uid = some peer)
      (idle : peer.status = none) (command : "SESSION".toList <+: msg)
      (fields : splitMax 1 msg = [word, callee]) (found : srv.peers callee = some calleePeer) :
      Handled srv ws uid roomId order msg (.send srv roomId ws .sessionOk (.sessionOk callee))
  | invalidRoom {peer word room} (registered : srv.peers uid = some peer)
      (idle : peer.status = none) (command : "ROOM".toList <+: msg)
      (fields : splitMax 1 msg = [word, room]) (invalid : ¬ (Word room ∧ room ≠ inSession)) :
      Handled srv ws uid roomId order msg (.send srv (some room) ws (.invalidRoom room) .sent)
  | newRoom {peer word room} (registered : srv.peers uid = some peer)
      (idle : peer.status = none) (command : "ROOM".toList <+: msg)
      (fields : splitMax 1 msg = [word, room]) (valid : Word room) (notSession : room ≠ inSession)
      (absent : srv.rooms room = none) (lists : PySet.empty.Lists order) :
      Handled srv ws uid roomId order msg
        (.send (srv.writeRoom room .empty) (some room) ws (.roomOk room order) (.roomOk room))
  | oldRoom {peer word room set} (registered : srv.peers uid = some peer)
      (idle : peer.status = none) (command : "ROOM".toList <+: msg)
      (fields : splitMax 1 msg = [word, room]) (valid : Word room) (notSession : room ≠ inSession)
      (found : srv.rooms room = some set) (fresh : uid ∉ set.elems) (lists : set.Lists order) :
      Handled srv ws uid roomId order msg
        (.send srv (some room) ws (.roomOk room order) (.roomOk room))

section Message

variable {srv : WebRTCSimpleServer} {ws : ConnId} {uid : Uid} {roomId : Option RoomId}
  {order : List Uid} {msg : Text} {peer : Peer}

theorem relayToSession_handled (registered : srv.peers uid = some peer)
    (busy : peer.status = some inSession) :
    Handled srv ws uid roomId order msg (relayToSession srv uid roomId msg) := by
  unfold relayToSession
  split
  · next unlinked =>
      refine .raise (.noPartner registered busy ?_)
      intro other linked
      rw [unlinked] at linked
      cases linked
  · next other linked =>
      split
      · next absent =>
          refine .raise (.noPartner registered busy ?_)
          intro found hfound partner hpartner
          rw [linked] at hfound
          cases hfound
          rw [absent] at hpartner
          cases hpartner
      · next partner found =>
          split
          · next partnerBusy => exact .relay registered busy linked found partnerBusy
          · next idle =>
              refine .raise (.noPartner registered busy ?_)
              intro found' hfound partner' hpartner
              rw [linked] at hfound
              cases hfound
              rw [found] at hpartner
              cases hpartner
              exact idle

theorem roomPeerMsg_handled {room : RoomId} (registered : srv.peers uid = some peer)
    (member : IsRoom peer.status room) (command : "ROOM_PEER_MSG".toList <+: msg) :
    Handled srv ws uid roomId order msg (roomPeerMsg srv ws uid roomId msg) := by
  unfold roomPeerMsg
  split
  · next word other payload fields =>
      split
      · next absent => exact .notFound registered member command fields absent
      · next target found =>
          split
          · exact .raise (.unassigned registered member rfl)
          · next current =>
              split
              · next elsewhere =>
                  exact .notInRoom registered member command fields found rfl elsewhere
              · next sameRoom =>
                  exact .peerMsg registered member command fields found rfl (not_not.mp sameRoom)
  · next fields => exact .raise (.peerMsgFields registered member command fields)

theorem roomCommand_handled {room : RoomId} (registered : srv.peers uid = some peer)
    (member : IsRoom peer.status room) :
    Handled srv ws uid roomId order msg (roomCommand srv ws uid roomId msg) := by
  unfold roomCommand
  split
  · next command => exact roomPeerMsg_handled registered member (startsWith_iff.mp command)
  · next other =>
      split
      · next command => exact .raise (.peerList registered member command)
      · exact .alreadyInRoom registered member (fun p => other (startsWith_iff.mpr p))

theorem requestSession_handled (registered : srv.peers uid = some peer)
    (idle : peer.status = none) (command : "SESSION".toList <+: msg) :
    Handled srv ws uid roomId order msg (requestSession srv ws roomId peer.status msg) := by
  unfold requestSession
  split
  · next word callee fields =>
      split
      · next absent =>
          exact .calleeAbsent registered idle command fields (Option.isNone_iff_eq_none.mp absent)
      · next found =>
          split
          · next busy => exact absurd idle busy
          · cases hcallee : srv.peers callee with
            | none => simp [hcallee] at found
            | some calleePeer => exact .sessionOk registered idle command fields hcallee
  · next fields => exact .raise (.sessionFields registered idle command fields)

theorem requestRoom_handled {body : Body} (registered : srv.peers uid = some peer)
    (idle : peer.status = none) (command : "ROOM".toList <+: msg)
    (h : requestRoom srv ws uid order msg = some body) :
    Handled srv ws uid roomId order msg body := by
  unfold requestRoom at h
  split at h
  · next word room fields =>
      split at h
      · next invalid =>
          cases h
          refine .invalidRoom registered idle command fields ?_
          rintro ⟨valid, notSession⟩
          exact invalid.elim notSession (fun bad => bad (split_eq_singleton_iff.mpr valid))
      · next accepted =>
          simp only [not_or, not_not] at accepted
          have valid := split_eq_singleton_iff.mp accepted.2
          split at h
          · next absent =>
              unfold sendRoomOk at h
              split at h
              · next lists =>
                  cases h
                  exact .newRoom registered idle command fields valid accepted.1 absent lists
              · cases h
          · next set found =>
              split at h
              · next member =>
                  cases h
                  refine .raise (.alreadyMember registered idle command fields ?_)
                  rw [members_of_rooms found]
                  exact member
              · next fresh =>
                  unfold sendRoomOk at h
                  split at h
                  · next lists =>
                      cases h
                      exact .oldRoom registered idle command fields valid accepted.1 found fresh
                        lists
                  · cases h
  · next fields =>
      cases h
      exact .raise (.roomFields registered idle command fields)

theorem connectionHandler_handled {body : Body}
    (h : connectionHandler srv ws uid roomId order msg = some body) :
    Handled srv ws uid roomId order msg body := by
  unfold connectionHandler at h
  split at h
  · next absent =>
      cases h
      exact .raise (.unregistered absent)
  · next peer registered =>
      split at h
      · next status hstatus =>
          split at h
          · next same =>
              cases h
              exact relayToSession_handled registered (hstatus.trans (congrArg some same))
          · next notSession =>
              split at h
              · next nonempty =>
                  cases h
                  exact roomCommand_handled registered ⟨hstatus, nonempty, notSession⟩
              · next empty =>
                  cases h
                  refine .raise (.emptyStatus registered ?_)
                  rw [hstatus, not_not.mp empty]
      · next idle =>
          split at h
          · next command =>
              cases h
              exact requestSession_handled registered idle (startsWith_iff.mp command)
          · next notSession =>
              split at h
              · next command =>
                  exact requestRoom_handled registered idle (startsWith_iff.mp command) h
              · next notRoom =>
                  cases h
                  exact .ignored registered idle (fun p => notSession (startsWith_iff.mpr p))
                    (fun p => notRoom (startsWith_iff.mpr p))

end Message

/-! ## `remove_peer` -/

/-- The outcomes of `cleanup_session` up to its await. -/
inductive SessionCleaned (srv : WebRTCSimpleServer) (uid : Uid) :
    WebRTCSimpleServer × Option ConnId → Prop where
  | unlinked (alone : srv.sessions uid = none) : SessionCleaned srv uid (srv, none)
  | oneSided {other} (linked : srv.sessions uid = some other)
      (noBack : other = uid ∨ srv.sessions other = none) :
      SessionCleaned srv uid (srv.writeSession uid none, none)
  | partnerGone {other back} (linked : srv.sessions uid = some other) (different : other ≠ uid)
      (linkedBack : srv.sessions other = some back) (absent : srv.peers other = none) :
      SessionCleaned srv uid ((srv.writeSession uid none).writeSession other none, none)
  | partner {other back peer} (linked : srv.sessions uid = some other) (different : other ≠ uid)
      (linkedBack : srv.sessions other = some back) (registered : srv.peers other = some peer) :
      SessionCleaned srv uid
        (((srv.writeSession uid none).writeSession other none).writePeer other none, some peer.ws)

theorem cleanupSession_cleaned (srv : WebRTCSimpleServer) (uid : Uid) :
    SessionCleaned srv uid (srv.cleanupSession uid) := by
  unfold cleanupSession
  split
  · next alone => exact .unlinked alone
  · next other linked =>
      dsimp only
      split
      · next noBack =>
          refine .oneSided linked ?_
          by_cases same : other = uid
          · exact Or.inl same
          · exact Or.inr (by simpa [same] using noBack)
      · next back linkedBack =>
          have different : other ≠ uid := by
            intro same
            simp [same] at linkedBack
          have linkedBack' : srv.sessions other = some back := by
            simpa [different] using linkedBack
          split
          · next absent => exact .partnerGone linked different linkedBack' absent
          · next peer registered => exact .partner linked different linkedBack' registered

/-- The outcomes of one round of the loop in `cleanup_room`. -/
inductive LeftAnnounced (srv : WebRTCSimpleServer) (uid : Uid) (ws : ConnId) (room : RoomId)
    (it : Iter Uid) : Turn → Prop where
  | changedSize {set} (found : srv.rooms room = some set) (changed : set.elems.card ≠ it.used) :
      LeftAnnounced srv uid ws room it (.stop srv (some uid))
  | finished {set} (found : srv.rooms room = some set) (same : set.elems.card = it.used)
      (all : set.changes = it.stamp → set.elems ⊆ it.seen) :
      LeftAnnounced srv uid ws room it (deletePeer srv uid ws)
  | missing {set pid} (found : srv.rooms room = some set) (member : pid ∈ set.elems)
      (absent : srv.peers pid = none) :
      LeftAnnounced srv uid ws room it (.stop srv (some uid))
  | notice {set pid peer} (found : srv.rooms room = some set) (same : set.elems.card = it.used)
      (member : pid ∈ set.elems) (fresh : set.changes = it.stamp → pid ∉ it.seen)
      (registered : srv.peers pid = some peer) :
      LeftAnnounced srv uid ws room it (.send srv peer.ws (.peerLeft uid)
        (.leaving uid (.left ws room { it with seen := insert pid it.seen })))

theorem announceLeft_announced {srv : WebRTCSimpleServer} {uid : Uid} {ws : ConnId}
    {room : RoomId} {it : Iter Uid} {pick : Option Uid} {t : Turn}
    (h : announceLeft srv uid ws room it pick = some t) :
    LeftAnnounced srv uid ws room it t := by
  unfold announceLeft at h
  split at h
  · cases h
  · next set found =>
      obtain ⟨result, asked, rfl⟩ := Option.map_eq_some_iff.mp h
      rcases Iter.next_cases asked with ⟨changed, rfl⟩ | ⟨same, all, rfl⟩ |
        ⟨pid, same, member, fresh, rfl⟩
      · exact .changedSize found changed
      · exact .finished found same all
      · dsimp only
        split
        · next absent => exact .missing found member absent
        · next peer registered => exact .notice found same member fresh registered

/-- The outcomes of `remove_peer` after `cleanup_session`. -/
inductive EntryRemoved (srv : WebRTCSimpleServer) (uid : Uid) : Turn → Prop where
  | absent (unregistered : srv.peers uid = none) : EntryRemoved srv uid (.stop srv (some uid))
  | plain {peer} (registered : srv.peers uid = some peer)
      (outside : ∀ room, ¬ IsRoom peer.status room) :
      EntryRemoved srv uid (deletePeer srv uid peer.ws)
  | noRoom {peer room} (registered : srv.peers uid = some peer)
      (member : IsRoom peer.status room) (missing : srv.rooms room = none) :
      EntryRemoved srv uid (.stop srv (some uid))
  | notListed {peer room set} (registered : srv.peers uid = some peer)
      (member : IsRoom peer.status room) (found : srv.rooms room = some set)
      (unlisted : uid ∉ set.elems) : EntryRemoved srv uid (deletePeer srv uid peer.ws)
  | leaves {peer room set t} (registered : srv.peers uid = some peer)
      (member : IsRoom peer.status room) (found : srv.rooms room = some set)
      (listed : uid ∈ set.elems)
      (announced : LeftAnnounced (srv.writeRoom room (set.remove uid)) uid peer.ws room
        ((set.remove uid).iter ∅) t) : EntryRemoved srv uid t

theorem removeEntry_removed {srv : WebRTCSimpleServer} {uid : Uid} {pick : Option Uid} {t : Turn}
    (h : removeEntry srv uid pick = some t) : EntryRemoved srv uid t := by
  unfold removeEntry at h
  split at h
  · next unregistered =>
      cases h
      exact .absent unregistered
  · next peer registered =>
      split at h
      · next idle =>
          cases h
          refine .plain registered ?_
          rintro room ⟨status, -, -⟩
          rw [idle] at status
          cases status
      · next room status =>
          split at h
          · next isRoom =>
              have member : IsRoom peer.status room := ⟨status, isRoom⟩
              unfold cleanupRoom at h
              split at h
              · next missing =>
                  cases h
                  exact .noRoom registered member missing
              · next set found =>
                  split at h
                  · next unlisted =>
                      cases h
                      exact .notListed registered member found unlisted
                  · next listed =>
                      exact .leaves registered member found (not_not.mp listed)
                        (announceLeft_announced h)
          · next notRoom =>
              cases h
              refine .plain registered ?_
              rintro room' ⟨status', isRoom⟩
              rw [status] at status'
              cases status'
              exact notRoom isRoom

/-- The outcomes of `remove_peer` up to its first await. -/
inductive Removed (srv : WebRTCSimpleServer) (uid : Uid) : Turn → Prop where
  | partner {srv' wso} (cleaned : SessionCleaned srv uid (srv', some wso)) :
      Removed srv uid (.close srv' wso (.leaving uid .partner))
  | entry {srv' t} (cleaned : SessionCleaned srv uid (srv', none))
      (removed : EntryRemoved srv' uid t) : Removed srv uid t

theorem removePeer_removed {srv : WebRTCSimpleServer} {uid : Uid} {pick : Option Uid} {t : Turn}
    (h : removePeer srv uid pick = some t) : Removed srv uid t := by
  have cleaned := cleanupSession_cleaned srv uid
  unfold removePeer at h
  split at h
  · next srv' result =>
      rw [result] at cleaned
      exact .entry cleaned (removeEntry_removed h)
  · next srv' wso result =>
      rw [result] at cleaned
      cases h
      exact .partner cleaned

/-! ## After `SESSION_OK` and `ROOM_OK` -/

theorem registerSession_eq {srv srv' : WebRTCSimpleServer} {uid callee : Uid}
    (h : srv.registerSession uid callee = some srv') :
    ∃ peer calleePeer, srv.peers uid = some peer ∧ srv.peers callee = some calleePeer ∧
      srv'.peers = Function.update
        (Function.update srv.peers uid (some { peer with status := some inSession }))
        callee (some { calleePeer with status := some inSession }) ∧
      srv'.sessions =
        Function.update (Function.update srv.sessions uid (some callee)) callee (some uid) ∧
      srv'.rooms = srv.rooms := by
  unfold registerSession setStatus at h
  split at h
  · cases h
  · next calleePeer hcallee =>
      cases huid : srv.peers uid with
      | none => simp [huid] at h
      | some peer =>
          refine ⟨peer, calleePeer, rfl, hcallee, ?_⟩
          by_cases same : callee = uid
          · subst same
            rw [huid] at hcallee
            cases hcallee
            simp only [huid, peers_writeSession, peers_writePeer, Function.update_self,
              Option.some.injEq] at h
            subst h
            exact ⟨rfl, rfl, rfl⟩
          · simp only [huid, peers_writeSession, peers_writePeer,
              Function.update_of_ne same, hcallee, Option.some.injEq] at h
            subst h
            exact ⟨rfl, rfl, rfl⟩

theorem registerSession_none {srv : WebRTCSimpleServer} {uid callee : Uid}
    (h : srv.registerSession uid callee = none) :
    srv.peers uid = none ∨ srv.peers callee = none := by
  cases huid : srv.peers uid with
  | none => exact Or.inl rfl
  | some peer =>
      cases hcallee : srv.peers callee with
      | none => exact Or.inr rfl
      | some calleePeer =>
          by_cases same : callee = uid
          · subst same
            simp [registerSession, setStatus, huid] at h
          · simp [registerSession, setStatus, huid, hcallee, same] at h

/-- A session is registered at once, or a lookup fails and nothing is written. -/
theorem establishSession_cases (srv : WebRTCSimpleServer) (uid callee : Uid)
    (roomId : Option RoomId) :
    (∃ srv', srv.registerSession uid callee = some srv' ∧
      establishSession srv uid callee roomId = .recv srv' roomId) ∨
    ((srv.peers uid = none ∨ srv.peers callee = none) ∧
      establishSession srv uid callee roomId = .raise srv .keyError) := by
  unfold establishSession
  split
  · next failed => exact Or.inr ⟨registerSession_none failed, rfl⟩
  · next srv' linked => exact Or.inl ⟨srv', linked, rfl⟩

/-- The outcomes of one round of the loop that announces a joiner. -/
inductive JoinAnnounced (srv : WebRTCSimpleServer) (uid : Uid) (roomId : Option RoomId)
    (room : RoomId) (it : Iter Uid) : Body → Prop where
  | changedSize {set} (found : srv.rooms room = some set) (changed : set.elems.card ≠ it.used) :
      JoinAnnounced srv uid roomId room it (.raise srv .runtimeError)
  | finished {set} (found : srv.rooms room = some set) (same : set.elems.card = it.used)
      (all : set.changes = it.stamp → set.elems ⊆ it.seen) :
      JoinAnnounced srv uid roomId room it (.recv srv roomId)
  | missing {set pid} (found : srv.rooms room = some set) (member : pid ∈ set.elems)
      (other : pid ≠ uid) (absent : srv.peers pid = none) :
      JoinAnnounced srv uid roomId room it (.raise srv .keyError)
  | notice {set pid peer} (found : srv.rooms room = some set) (same : set.elems.card = it.used)
      (member : pid ∈ set.elems) (other : pid ≠ uid)
      (fresh : set.changes = it.stamp → pid ∉ it.seen) (registered : srv.peers pid = some peer) :
      JoinAnnounced srv uid roomId room it (.send srv roomId peer.ws (.peerJoined uid)
        (.joined room { it with seen := insert pid it.seen }))

theorem announceJoined_announced {srv : WebRTCSimpleServer} {uid : Uid} {roomId : Option RoomId}
    {room : RoomId} {it : Iter Uid} {pick : Option Uid} {body : Body}
    (h : announceJoined srv uid roomId room it pick = some body) :
    JoinAnnounced srv uid roomId room it body := by
  unfold announceJoined at h
  split at h
  · cases h
  · next set found =>
      split at h
      · cases h
      · next notSelf =>
          obtain ⟨result, asked, rfl⟩ := Option.map_eq_some_iff.mp h
          rcases Iter.next_cases asked with ⟨changed, rfl⟩ | ⟨same, all, rfl⟩ |
            ⟨pid, same, member, fresh, rfl⟩
          · exact .changedSize found changed
          · exact .finished found same all
          · have other : pid ≠ uid := by
              intro self
              subst self
              exact notSelf (Iter.pick_of_yield asked)
            dsimp only
            split
            · next absent => exact .missing found member other absent
            · next peer registered => exact .notice found same member other fresh registered

/-- The outcomes of the `ROOM` branch after `ROOM_OK`, up to the next await. -/
inductive RoomEntered (srv : WebRTCSimpleServer) (uid : Uid) (roomId : Option RoomId)
    (room : RoomId) : Body → Prop where
  | unregistered (absent : srv.peers uid = none) :
      RoomEntered srv uid roomId room (.raise srv .keyError)
  | noRoom {peer} (registered : srv.peers uid = some peer) (missing : srv.rooms room = none) :
      RoomEntered srv uid roomId room
        (.raise (srv.writePeer uid (some { peer with status := some room })) .keyError)
  | entered {peer set body} (registered : srv.peers uid = some peer)
      (found : srv.rooms room = some set)
      (announced : JoinAnnounced
        ((srv.writePeer uid (some { peer with status := some room })).writeRoom room (set.add uid))
        uid roomId room ((set.add uid).iter {uid}) body) :
      RoomEntered srv uid roomId room body

theorem establishRoom_entered {srv : WebRTCSimpleServer} {uid : Uid} {roomId : Option RoomId}
    {room : RoomId} {pick : Option Uid} {body : Body}
    (h : establishRoom srv uid roomId room pick = some body) :
    RoomEntered srv uid roomId room body := by
  unfold establishRoom enterRoom setStatus at h
  cases hpeer : srv.peers uid with
  | none =>
      simp only [hpeer, Option.some.injEq] at h
      subst h
      exact .unregistered hpeer
  | some peer =>
      cases hroom : srv.rooms room with
      | none =>
          simp only [hpeer, rooms_writePeer, hroom, Option.some.injEq] at h
          subst h
          exact .noRoom hpeer hroom
      | some set =>
          simp only [hpeer, rooms_writePeer, hroom] at h
          exact .entered hpeer hroom (announceJoined_announced h)

end GstWebrtc.Signalling
