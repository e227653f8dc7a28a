import GstWebrtc.Signalling.RoomViews

/-!
# Faults of other members

The handler of a room member leaves its loop by any exception, also by the
`ConnectionClosed` of another member's socket and by the errors of a broadcast
whose set was changed.  A member whose own client behaves is kept as long as
these do not occur and nobody else works for its uid or calls it.
-/

namespace GstWebrtc.Signalling

open GstWebrtc.Base GstWebrtc.Base.PyText WebRTCSimpleServer

/-- `ROOM room` or `ROOM_PEER_MSG peer msg`, as the handler splits them. -/
def wellFormed (msg : Text) : Bool :=
  ((splitMax 1 msg).length = 2 && (splitMax 1 msg).head? = some "ROOM".toList) ||
    ((splitMax 2 msg).length = 3 && (splitMax 2 msg).head? = some "ROOM_PEER_MSG".toList)

/-- The client of connection `k` stays connected and sends room commands only. -/
def roomConduct (k : ConnId) (w : World) : Act → Bool
  | .lose j => j ≠ k
  | .recv j msg _ _ =>
      match w.phase j with
      | .running _ _ _ => j ≠ k || wellFormed msg
      | _ => true
  | _ => true

/-- What keeps the faults of others away from handler `k`. -/
structure Shielded (k : ConnId) (w : World) (act : Act) : Prop where
  /-- Nothing is left of the uid that the handler registers, and nobody works for it. -/
  register : ∀ pick u, act = .resume k false pick → w.phase k = .ack u →
    Forgotten w.server u ∧ ∀ j, (w.phase j).past? ≠ some u
  /-- Nobody else registers its uid. -/
  unshared : ∀ u, (w.phase k).past? = some u → ∀ j pick, act = .resume j false pick →
    w.phase j ≠ .ack u
  /-- Nobody's call to its uid is put through. -/
  uncalled : ∀ u, (w.phase k).past? = some u → ∀ j pick v roomId callee,
    act = .resume j false pick → w.phase j = .running v roomId (.sessionOk callee) → callee ≠ u
  /-- No send to another connection raises. -/
  delivered : ∀ pick, act = .resume k true pick → (w.conns k).target = k
  /-- A broadcast finds the room in the size it began with. -/
  size : ∀ pick u roomId room it set, act = .resume k false pick →
    w.phase k = .running u roomId (.joined room it) → w.server.rooms room = some set →
    set.elems.card = it.used
  /-- A broadcast finds the members registered. -/
  members : ∀ pick u roomId room, act = .resume k false pick →
    (w.phase k = .running u roomId (.roomOk room) ∨
      ∃ it, w.phase k = .running u roomId (.joined room it)) →
    ∀ pid ∈ w.server.members room, w.server.peers pid ≠ none

/-- The steps of the runs in which the member of connection `k` is safe. -/
def Guarded (k : ConnId) (w : World) (act : Act) : Prop :=
  roomConduct k w act = true ∧ Shielded k w act

/-- A registered member of a room, whose handler is in its message loop. -/
structure RoomMember (w : World) (k : ConnId) (u : Uid) (room : RoomId) : Prop where
  running : ∃ roomId point, w.phase k = .running u roomId point
  registered : w.server.peers u = some ⟨k, some room⟩
  listed : u ∈ w.server.members room

/-! ## Well-formed commands -/

section WellFormed

variable {msg : Text}

theorem wellFormed_cases (h : wellFormed msg = true) :
    (∃ room, splitMax 1 msg = ["ROOM".toList, room]) ∨
    ∃ other payload, splitMax 2 msg = ["ROOM_PEER_MSG".toList, other, payload] := by
  simp only [wellFormed, Bool.or_eq_true, Bool.and_eq_true, decide_eq_true_eq] at h
  rcases h with ⟨two, first⟩ | ⟨three, first⟩
  · obtain ⟨word, room, fields⟩ := List.length_eq_two.mp two
    rw [fields] at first
    exact Or.inl ⟨room, by rw [fields, Option.some.inj first]⟩
  · obtain ⟨word, other, payload, fields⟩ := List.length_eq_three.mp three
    rw [fields] at first
    exact Or.inr ⟨other, payload, by rw [fields, Option.some.inj first]⟩

theorem wellFormed_fields (h : wellFormed msg = true) :
    ∃ word rest, splitMax 1 msg = [word, rest] ∧
      (word = "ROOM".toList ∨ word = "ROOM_PEER_MSG".toList) := by
  rcases wellFormed_cases h with ⟨room, fields⟩ | ⟨other, payload, fields⟩
  · exact ⟨_, room, fields, Or.inl rfl⟩
  · obtain ⟨rest, fields'⟩ := splitMax_one_of_two fields
    exact ⟨_, rest, fields', Or.inr rfl⟩

theorem wellFormed_not_session (h : wellFormed msg = true) : ¬ "SESSION".toList <+: msg := by
  intro starts
  obtain ⟨word, rest, fields, either⟩ := wellFormed_fields h
  have head := prefix_field_of_prefix (by decide) fields starts
  rcases either with rfl | rfl
  · exact absurd head (by decide)
  · exact absurd head (by decide)

theorem wellFormed_peerMsg (h : wellFormed msg = true) (starts : "ROOM_PEER_MSG".toList <+: msg) :
    ∃ word other payload, splitMax 2 msg = [word, other, payload] := by
  rcases wellFormed_cases h with ⟨room, fields⟩ | ⟨other, payload, fields⟩
  · have head := prefix_field_of_prefix (by decide) fields starts
    exact absurd head (by decide)
  · exact ⟨_, other, payload, fields⟩

theorem wellFormed_not_list (h : wellFormed msg = true) : msg ≠ "ROOM_PEER_LIST".toList := by
  rintro rfl
  exact absurd h (by decide)

end WellFormed

/-! ## What other handlers leave alone -/

/-- The tables still say the same about `u`. -/
structure Spares (u : Uid) (srv srv' : WebRTCSimpleServer) : Prop where
  peers : srv'.peers u = srv.peers u
  members : ∀ room, u ∈ srv'.members room ↔ u ∈ srv.members room
  rooms : RoomsKept srv srv'
  noKey : srv.sessions u = none → srv'.sessions u = none
  noValue : ∀ other, srv'.sessions other = some u → srv.sessions other = some u

namespace Spares

variable {u : Uid} {a b c : WebRTCSimpleServer}

theorem refl (u : Uid) (a : WebRTCSimpleServer) : Spares u a a :=
  ⟨rfl, fun _ => Iff.rfl, .of_rooms rfl, id, fun _ => id⟩

theorem trans (ab : Spares u a b) (bc : Spares u b c) : Spares u a c where
  peers := bc.peers.trans ab.peers
  members room := (bc.members room).trans (ab.members room)
  rooms := ab.rooms.trans bc.rooms
  noKey h := bc.noKey (ab.noKey h)
  noValue other h := ab.noValue other (bc.noValue other h)

theorem writePeer {v : Uid} (other : u ≠ v) (a : WebRTCSimpleServer) (entry : Option Peer) :
    Spares u a (a.writePeer v entry) where
  peers := by simp [other]
  members room := by rw [members_writePeer]
  rooms := .of_rooms rfl
  noKey := id
  noValue _ := id

theorem writeRoom {room : RoomId} {set : PySet Uid}
    (same : u ∈ set.elems ↔ u ∈ a.members room) : Spares u a (a.writeRoom room set) where
  peers := rfl
  members r := by
    rw [members_writeRoom]
    by_cases here : r = room
    · subst here
      rw [Function.update_self, same]
    · rw [Function.update_of_ne here]
  rooms := .writeRoom a room set
  noKey := id
  noValue _ := id

theorem of_shrinks (shrinks : Shrinks a b) (peers : b.peers u = a.peers u)
    (members : ∀ room, u ∈ b.members room ↔ u ∈ a.members room) (rooms : RoomsKept a b) :
    Spares u a b where
  peers := peers
  members := members
  rooms := rooms
  noKey alone := by
    cases linked : b.sessions u with
    | none => rfl
    | some other => exact absurd (shrinks.sessions u other linked) (by simp [alone])
  noValue other := shrinks.sessions other u

end Spares

section Removal

variable {srv : WebRTCSimpleServer} {uid u : Uid} {t : Turn} {room : RoomId}

theorem deletePeer_members (srv : WebRTCSimpleServer) (uid : Uid) (ws : ConnId) :
    (deletePeer srv uid ws).server.members = srv.members := by
  unfold deletePeer
  split
  · rfl
  · exact members_writePeer srv uid none

theorem LeftAnnounced.members_eq {ws : ConnId} {it : Iter Uid}
    (h : LeftAnnounced srv uid ws room it t) : t.server.members = srv.members := by
  cases h with
  | finished found same all => exact deletePeer_members srv uid ws
  | _ => rfl

theorem LeftAnnounced.spares {ws : ConnId} {it : Iter Uid}
    (h : LeftAnnounced srv uid ws room it t) (other : u ≠ uid) : Spares u srv t.server :=
  .of_shrinks h.shrinks (h.peers_eq other) (fun _ => by rw [h.members_eq]) h.roomsKept

theorem EntryRemoved.spares (h : EntryRemoved srv uid t) (other : u ≠ uid) :
    Spares u srv t.server := by
  refine .of_shrinks h.shrinks (h.peers_eq other) ?_ h.roomsKept
  intro r
  cases h with
  | absent unregistered => rfl
  | plain registered outside => rw [deletePeer_members]
  | noRoom registered member missing => rfl
  | notListed registered member found unlisted => rw [deletePeer_members]
  | @leaves peer room set t registered member found listed announced =>
      rw [announced.members_eq, members_writeRoom]
      by_cases here : r = room
      · subst here
        simp [members_of_rooms found, other]
      · rw [Function.update_of_ne here]

theorem Removed.spares (h : Removed srv uid t) (other : u ≠ uid)
    (unlinked : srv.sessions uid ≠ some u) : Spares u srv t.server := by
  cases h with
  | partner cleaned =>
      exact .of_shrinks cleaned.shrinks (cleaned.peers_eq unlinked)
        (fun room => by rw [Turn.server, cleaned.members_eq]) cleaned.roomsKept
  | entry cleaned removed =>
      refine .trans (.of_shrinks cleaned.shrinks (cleaned.peers_eq unlinked) ?_
        cleaned.roomsKept) (removed.spares other)
      intro room
      rw [cleaned.members_eq]

end Removal

section Others

variable {w : World} {act : Act} {t : Turn} {u v : Uid} {roomId : Option RoomId} {body : Body}

theorem registerSession_spares {srv srv' : WebRTCSimpleServer} {callee : Uid}
    (linked : srv.registerSession v callee = some srv') (caller : u ≠ v) (called : callee ≠ u) :
    Spares u srv srv' := by
  obtain ⟨peer, calleePeer, -, -, hpeers, -, hrooms⟩ := registerSession_eq linked
  have sessions := Sessions.registered_sessions linked
  refine ⟨?_, ?_, .of_rooms hrooms, ?_, ?_⟩
  · rw [hpeers]
    simp [caller, called.symm]
  · intro room
    rw [members_congr hrooms]
  · intro alone
    simp [sessions, caller, called.symm, alone]
  · intro other found
    rw [sessions] at found
    split at found
    · exact absurd (Option.some.inj found).symm caller
    · split at found
      · exact absurd (Option.some.inj found) called
      · exact found

/-- The loop of another handler spares `u` unless it registers a call to it. -/
theorem Runs.spares (runs : Runs w v roomId act body) (other : u ≠ v)
    (uncalled : ∀ j pick callee, act = .resume j false pick →
      w.phase j = .running v roomId (.sessionOk callee) → callee ≠ u) :
    Spares u w.server body.server := by
  cases runs with
  | message waiting handled =>
      cases handled with
      | newRoom registered idle command fields valid notSession missing lists =>
          exact .writeRoom (by simp [members, missing])
      | _ => exact .refl u _
  | session mayReturn waiting linked =>
      exact registerSession_spares linked other (uncalled _ _ _ rfl waiting)
  | room mayReturn waiting entered =>
      cases entered with
      | unregistered absent => exact .refl u _
      | noRoom registered missing => exact .writePeer other _ _
      | entered registered found announced =>
          rw [announced.server_eq]
          exact (Spares.writePeer other _ _).trans
            (.writeRoom (by simp [members_of_rooms found, other]))
  | joined mayReturn waiting announced =>
      rw [announced.server_eq]
      exact .refl u _
  | _ => exact .refl u _

/-- A turn on behalf of another uid spares `u`. -/
theorem Fires.spares (fires : Fires w act t) (other : (w.phase act.conn).past? ≠ some u)
    (unshared : ∀ j pick, act = .resume j false pick → w.phase j ≠ .ack u)
    (noValue : ∀ x, w.server.sessions x ≠ some u)
    (uncalled : ∀ j pick v roomId callee, act = .resume j false pick →
      w.phase j = .running v roomId (.sessionOk callee) → callee ≠ u) :
    Spares u w.server t.server := by
  have apart : ∀ {v}, (w.phase act.conn).past? = some v → u ≠ v := by
    rintro v past rfl
    exact other past
  cases fires with
  | @registered k pick v mayReturn waiting =>
      refine .writePeer ?_ _ _
      rintro rfl
      exact unshared k pick rfl waiting
  | loops runs =>
      exact runs.spares (apart runs.past) fun j pick callee => uncalled j pick _ _ callee
  | sends runs =>
      exact runs.spares (apart runs.past) fun j pick callee => uncalled j pick _ _ callee
  | leaves runs removed =>
      refine (runs.spares (apart runs.past) fun j pick callee => uncalled j pick _ _ callee).trans
        (removed.spares (apart runs.past) ?_)
      rw [runs.sessions_of_raise]
      exact noValue _
  | partnerClosed mayReturn waiting removed =>
      exact removed.spares (apart (congrArg Phase.past? waiting))
  | leftSent mayReturn waiting announced =>
      exact announced.spares (apart (congrArg Phase.past? waiting))
  | _ => exact .refl u _

end Others

/-! ## What the handler finds when it goes on -/

def LoopPoint.Safe (srv : WebRTCSimpleServer) (roomId : Option RoomId) (status : Option Text) :
    LoopPoint → Prop
  | sessionOk _ => False
  | roomOk room => status = none ∧ roomId = some room ∧ room ≠ [] ∧ room ≠ inSession ∧
      srv.rooms room ≠ none
  | joined room _ => status = some room
  | _ => True

/-- The tables are as handler `k` of `u` left them. -/
structure SafeUid (srv : WebRTCSimpleServer) (k : ConnId) (u : Uid) (roomId : Option RoomId)
    (point : LoopPoint) : Prop where
  noKey : srv.sessions u = none
  noValue : ∀ other, srv.sessions other ≠ some u
  entry : ∃ status, srv.peers u = some ⟨k, status⟩ ∧ point.Safe srv roomId status ∧
    (status = none → ∀ room, u ∉ srv.members room) ∧
    ∀ room, status = some room → u ∈ srv.members room ∧ roomId = some room ∧
      room ≠ [] ∧ room ≠ inSession

theorem SafeUid.spared {srv srv' : WebRTCSimpleServer} {k : ConnId} {u : Uid}
    {roomId : Option RoomId} {point : LoopPoint} (safe : SafeUid srv k u roomId point)
    (spares : Spares u srv srv') : SafeUid srv' k u roomId point where
  noKey := spares.noKey safe.noKey
  noValue other linked := safe.noValue other (spares.noValue other linked)
  entry := by
    obtain ⟨status, found, here, idle, member⟩ := safe.entry
    refine ⟨status, spares.peers.trans found, ?_, ?_, ?_⟩
    · cases point with
      | roomOk room =>
          obtain ⟨none, assigned, nonempty, notSession, exists'⟩ := here
          exact ⟨none, assigned, nonempty, notSession, spares.rooms room exists'⟩
      | _ => exact here
    · intro none room inside
      exact idle none room ((spares.members room).mp inside)
    · intro room isRoom
      obtain ⟨inside, rest⟩ := member room isRoom
      exact ⟨(spares.members room).mpr inside, rest⟩

theorem SafeUid.plain {srv : WebRTCSimpleServer} {k : ConnId} {u : Uid} {roomId : Option RoomId}
    {point point' : LoopPoint} (safe : SafeUid srv k u roomId point) (plain : point'.plain = true) :
    SafeUid srv k u roomId point' where
  noKey := safe.noKey
  noValue := safe.noValue
  entry := by
    obtain ⟨status, found, -, rest⟩ := safe.entry
    refine ⟨status, found, ?_, rest⟩
    cases point' with
    | recv => trivial
    | ping => trivial
    | sent => trivial
    | _ => cases plain

/-- A peer that is idle may note any room. -/
theorem SafeUid.assign {srv : WebRTCSimpleServer} {k : ConnId} {u : Uid}
    {roomId roomId' : Option RoomId} {point point' : LoopPoint}
    (safe : SafeUid srv k u roomId point) (idle : srv.peers u = some ⟨k, none⟩)
    (here : point'.Safe srv roomId' none) : SafeUid srv k u roomId' point' where
  noKey := safe.noKey
  noValue := safe.noValue
  entry := by
    obtain ⟨status, found, -, outside, -⟩ := safe.entry
    cases idle.symm.trans found
    exact ⟨none, found, here, outside, by simp⟩

/-- The tables stay safe and membership is kept. -/
structure Kept (before srv : WebRTCSimpleServer) (k : ConnId) (u : Uid) (roomId : Option RoomId)
    (point : LoopPoint) : Prop where
  safe : SafeUid srv k u roomId point
  member : ∀ room, before.peers u = some ⟨k, some room⟩ → srv.peers u = some ⟨k, some room⟩

/-- A stretch of the loop does not raise, and leaves the tables safe. -/
def Body.Continues (before : WebRTCSimpleServer) (k : ConnId) (u : Uid) : Body → Prop
  | .recv srv roomId => Kept before srv k u roomId .recv
  | .send srv roomId _ _ next => Kept before srv k u roomId next
  | .raise _ _ => False

section Own

variable {w : World} {act : Act} {u : Uid} {roomId : Option RoomId} {point : LoopPoint}
  {body : Body} {k : ConnId} {order : List Uid} {msg : Text}

/-- A well-formed room command raises nothing. -/
theorem Raises.false_of_wellFormed (reason : Raises w.server u roomId msg)
    (safe : SafeUid w.server k u roomId point) (formed : wellFormed msg = true) : False := by
  obtain ⟨status, found, -, outside, member⟩ := safe.entry
  cases reason with
  | unregistered absent => cases found.symm.trans absent
  | noPartner registered busy broken =>
      cases found.symm.trans registered
      exact (member inSession busy).2.2.2 rfl
  | emptyStatus registered empty =>
      cases found.symm.trans registered
      exact (member [] empty).2.2.1 rfl
  | peerMsgFields registered isRoom command fields =>
      obtain ⟨word, other, payload, split⟩ := wellFormed_peerMsg formed command
      exact fields word other payload split
  | unassigned registered isRoom unset =>
      cases found.symm.trans registered
      cases unset.symm.trans (member _ isRoom.1).2.1
  | peerList registered isRoom command => exact wellFormed_not_list formed command
  | sessionFields registered idle command fields => exact wellFormed_not_session formed command
  | roomFields registered idle command fields =>
      obtain ⟨word, rest, split, -⟩ := wellFormed_fields formed
      exact fields word rest split
  | alreadyMember registered idle command fields inside =>
      cases found.symm.trans registered
      exact outside idle _ inside

theorem Handled.continues (handled : Handled w.server k u roomId order msg body)
    (safe : SafeUid w.server k u roomId point) (formed : wellFormed msg = true) :
    body.Continues w.server k u := by
  obtain ⟨status, found, -, outside, member⟩ := safe.entry
  have idleEntry : ∀ {peer : Peer}, w.server.peers u = some peer → peer.status = none →
      w.server.peers u = some ⟨k, none⟩ := by
    intro peer registered idle
    cases found.symm.trans registered
    cases idle
    exact found
  cases handled with
  | raise reason => exact reason.false_of_wellFormed safe formed
  | relay registered busy linked found' partnerBusy =>
      cases found.symm.trans registered
      exact absurd rfl (member inSession busy).2.2.2
  | calleeAbsent registered idle command fields absent =>
      exact absurd command (wellFormed_not_session formed)
  | sessionOk registered idle command fields found' =>
      exact absurd command (wellFormed_not_session formed)
  | invalidRoom registered idle command fields invalid =>
      exact ⟨safe.assign (idleEntry registered idle) trivial, fun _ => id⟩
  | @newRoom _ _ room registered idle command fields valid notSession missing lists =>
      have spares : Spares u w.server (w.server.writeRoom room .empty) :=
        .writeRoom (by simp [members, missing])
      refine ⟨(safe.spared spares).assign (idleEntry registered idle) ?_, fun _ => id⟩
      exact ⟨rfl, rfl, valid.ne_nil, notSession, by simp⟩
  | oldRoom registered idle command fields valid notSession exists' fresh lists =>
      refine ⟨safe.assign (idleEntry registered idle) ?_, fun _ => id⟩
      exact ⟨rfl, rfl, valid.ne_nil, notSession, by simp [exists']⟩
  | ignored registered idle notSession notRoom => exact ⟨safe.plain rfl, fun _ => id⟩
  | notFound registered isRoom command fields absent => exact ⟨safe.plain rfl, fun _ => id⟩
  | notInRoom registered isRoom command fields found' assigned elsewhere =>
      exact ⟨safe.plain rfl, fun _ => id⟩
  | peerMsg registered isRoom command fields found' assigned sameRoom =>
      exact ⟨safe.plain rfl, fun _ => id⟩
  | alreadyInRoom registered isRoom other => exact ⟨safe.plain rfl, fun _ => id⟩

/-- An announcement goes on in a room of known size with registered members. -/
theorem JoinAnnounced.continues {before srv : WebRTCSimpleServer} {room : RoomId} {it : Iter Uid}
    (announced : JoinAnnounced srv u roomId room it body) {set : PySet Uid}
    (found : srv.rooms room = some set) (size : set.elems.card = it.used)
    (registered : ∀ pid ∈ set.elems, pid ≠ u → srv.peers pid ≠ none)
    (kept : ∀ it', Kept before srv k u roomId (.joined room it')) :
    body.Continues before k u := by
  cases announced with
  | changedSize found' changed =>
      cases found.symm.trans found'
      exact changed size
  | missing found' member other absent =>
      cases found.symm.trans found'
      exact registered _ member other absent
  | finished found' same all => exact ⟨(kept it).safe.plain rfl, (kept it).member⟩
  | notice found' same member other fresh recipient => exact kept _

theorem Runs.continues (runs : Runs w u roomId act body)
    (waiting : w.phase act.conn = .running u roomId point)
    (safe : SafeUid w.server act.conn u roomId point) (opened : w.socket act.conn = .open)
    (usable : (w.conns act.conn).target = act.conn → (w.conns act.conn).usable = true)
    (conduct : roomConduct act.conn w act = true) (shield : Shielded act.conn w act) :
    body.Continues w.server act.conn u := by
  cases runs with
  | message waiting' handled =>
      refine handled.continues safe ?_
      simpa [roomConduct, waiting', Act.conn] using conduct
  | closed unusable waiting' => exact absurd opened unusable
  | raised mayRaise waiting' =>
      have own := shield.delivered _ rfl
      have ready := usable own
      rw [Act.conn] at own ready opened
      have notClosing : (w.phase _).inClose = false := congrArg Phase.inClose waiting'
      rw [World.canRaise, notClosing, own, ready, opened] at mayRaise
      simp at mayRaise
  | continued mayReturn waiting' plain => exact ⟨safe.plain rfl, fun _ => id⟩
  | session mayReturn waiting' linked =>
      cases waiting.symm.trans waiting'
      obtain ⟨status, -, impossible, -⟩ := safe.entry
      exact impossible.elim
  | sessionFailed mayReturn waiting' missing =>
      cases waiting.symm.trans waiting'
      obtain ⟨status, -, impossible, -⟩ := safe.entry
      exact impossible.elim
  | @room k pick room body mayReturn waiting' entered =>
      cases waiting.symm.trans waiting'
      obtain ⟨status, found, ⟨rfl, rfl, nonempty, notSession, exists'⟩, outside, -⟩ := safe.entry
      cases entered with
      | unregistered absent => cases found.symm.trans absent
      | noRoom registered missing => exact absurd missing exists'
      | @entered peer set body registered found' announced =>
          cases found.symm.trans registered
          refine announced.continues (by simp) rfl ?_ fun it => ⟨⟨safe.noKey, safe.noValue, ?_⟩, ?_⟩
          · intro pid member other
            rw [PySet.elems_add] at member
            have inside := (Finset.mem_insert.mp member).resolve_left other
            rw [← members_of_rooms found'] at inside
            simpa [other] using shield.members pick u _ room rfl (Or.inl waiting') pid inside
          · refine ⟨some room, by simp, rfl, by simp, ?_⟩
            rintro r ⟨⟩
            exact ⟨by simp [members], rfl, nonempty, notSession⟩
          · intro r before
            cases found.symm.trans before
  | @joined k pick room it body mayReturn waiting' announced =>
      cases waiting.symm.trans waiting'
      obtain ⟨status, found, rfl, -, member⟩ := safe.entry
      cases exists' : w.server.rooms room with
      | none =>
          have inside := (member room rfl).1
          simp [members, exists'] at inside
      | some set =>
          refine announced.continues exists'
            (shield.size pick u roomId room it set rfl waiting' exists') ?_ fun it' => ⟨?_, fun _ => id⟩
          · intro pid inside other
            rw [← members_of_rooms exists'] at inside
            exact shield.members pick u roomId room rfl (Or.inr ⟨it, waiting'⟩) pid inside
          · obtain ⟨status', found', here, rest⟩ := safe.entry
            exact ⟨safe.noKey, safe.noValue, status', found', here, rest⟩

end Own

/-! ## The invariant -/

/-- Handler `k` has not left its loop, and its socket and its uid are its own. -/
structure SafeHandler (k : ConnId) (w : World) : Prop where
  entries : ∀ v peer, w.server.peers v = some peer → peer.ws = k →
    ∃ roomId point, w.phase k = .running v roomId point
  locals : ∀ j v ws room it, j ≠ k → w.phase j = .leaving v (.left ws room it) → ws ≠ k
  stays : ∀ u point, w.phase k ≠ .leaving u point
  opened : (w.phase k).Talks → w.socket k = .open
  usable : (w.phase k).Talks → (w.conns k).target = k → (w.conns k).usable = true
  alone : ∀ u, (w.phase k).past? = some u → ∀ j, (w.phase j).past? = some u → j = k
  safe : ∀ u roomId point, w.phase k = .running u roomId point →
    SafeUid w.server k u roomId point

namespace SafeHandler

variable {w w' : World} {act : Act} {t : Turn} {k : ConnId}

theorem init (k : ConnId) : SafeHandler k World.empty := by
  refine ⟨by rintro v peer ⟨⟩, ?_, ?_, ?_, ?_, ?_, ?_⟩
  · rintro j v ws room it - ⟨⟩
  · rintro u point ⟨⟩
  · rintro (hello | ⟨u, ack⟩ | ⟨u, roomId, point, running⟩)
    · cases hello
    · cases ack
    · cases running
  · intro _ _
    rfl
  · rintro u ⟨⟩
  · rintro u roomId point ⟨⟩

theorem past_running (inv : SafeHandler k w) {u : Uid} (past : (w.phase k).past? = some u) :
    ∃ roomId point, w.phase k = .running u roomId point := by
  cases phase : w.phase k with
  | running v roomId point =>
      rw [phase] at past
      cases past
      exact ⟨roomId, point, rfl⟩
  | leaving v point => exact absurd phase (inv.stays v point)
  | _ =>
      rw [phase] at past
      cases past

/-- Another handler does not close the socket of handler `k`. -/
theorem other_closes (inv : SafeHandler k w) (fires : Fires w act t) (other : act.conn ≠ k) :
    t.closes act.conn ≠ some k := by
  intro closes
  rcases fires.closes closes with self | ⟨v, past, x, peer, may, found, same⟩ | ⟨v, room, it, leaving⟩
  · exact other self.symm
  · obtain ⟨roomId, point, running⟩ := inv.entries x peer found same
    have mine := congrArg Phase.past? running
    rcases may with rfl | linked
    · exact other (inv.alone x mine act.conn past)
    · exact (inv.safe x roomId point running).noValue v linked
  · exact inv.locals act.conn v k room it other leaving rfl

/-- A turn of another handler does no harm. -/
theorem other_turn (inv : SafeHandler k w) (shield : Shielded k w act) (fires : Fires w act t)
    (other : act.conn ≠ k) : SafeHandler k (w.apply act.conn t) ∧
      ∀ u room, RoomMember w k u room → RoomMember (w.apply act.conn t) k u room := by
  have mine := World.apply_phase_of_ne w act.conn t other.symm
  have socket : (w.apply act.conn t).socket k = w.socket k := by
    rw [World.apply_socket, if_neg (inv.other_closes fires other)]
  have spares : ∀ u, (w.phase k).past? = some u → Spares u w.server t.server := by
    intro u past
    obtain ⟨roomId, point, running⟩ := inv.past_running past
    exact fires.spares (fun past' => other (inv.alone u past act.conn past'))
      (shield.unshared u past) (inv.safe u roomId point running).noValue
      (shield.uncalled u past)
  refine ⟨⟨?_, ?_, ?_, ?_, ?_, ?_, ?_⟩, ?_⟩
  · intro v peer found same
    rw [World.apply_server] at found
    rw [mine]
    rcases fires.sameSockets with sockets | ⟨j, pick, u, rfl, waiting, rfl⟩
    · obtain ⟨old, was, sameWs⟩ := sockets v peer found
      exact inv.entries v old was (sameWs.trans same)
    · by_cases new : v = u
      · have entry : (⟨j, none⟩ : Peer) = peer := by
          simpa [Turn.server, register, new] using found
        rw [← entry] at same
        exact absurd same other
      · exact inv.entries v peer (by simpa [Turn.server, register, new] using found) same
  · intro j v ws room it apart leaving same
    by_cases self : j = act.conn
    · subst self
      rw [World.apply_phase_self] at leaving
      rcases fires.leftWs leaving with ⟨room', it', before⟩ | ⟨past, peer, found, sameWs⟩
      · exact inv.locals _ v ws room' it' apart before same
      · obtain ⟨roomId, point, running⟩ := inv.entries v peer found (sameWs.trans same)
        exact other (inv.alone v (congrArg Phase.past? running) act.conn past)
    · rw [World.apply_phase_of_ne _ _ _ self] at leaving
      exact inv.locals j v ws room it apart leaving same
  · intro u point
    rw [mine]
    exact inv.stays u point
  · rw [mine, socket]
    exact inv.opened
  · rw [mine, World.apply_target_of_ne _ _ _ other.symm, World.apply_usable_of_ne _ _ _ other.symm]
    exact inv.usable
  · intro u past j past'
    rw [mine] at past
    by_cases self : j = act.conn
    · subst self
      rw [World.apply_phase_self] at past'
      rcases fires.past past' with before | ⟨pick, resumed, waiting, -⟩
      · exact inv.alone u past act.conn before
      · exact absurd waiting (shield.unshared u past _ pick resumed)
    · rw [World.apply_phase_of_ne _ _ _ self] at past'
      exact inv.alone u past j past'
  · intro u roomId point running
    rw [mine] at running
    rw [World.apply_server]
    exact (inv.safe u roomId point running).spared (spares u (congrArg Phase.past? running))
  · rintro u room ⟨⟨roomId, point, running⟩, registered, listed⟩
    have spared := spares u (congrArg Phase.past? running)
    refine ⟨⟨roomId, point, mine.trans running⟩, ?_, ?_⟩
    · rw [World.apply_server, spared.peers, registered]
    · rw [World.apply_server]
      exact (spared.members room).mpr listed

/-- A turn of handler `k` that neither starts nor continues its loop. -/
theorem outside_turn (inv : SafeHandler k w) (same : t.server = w.server)
    (outside : ∀ u, (w.phase k).past? ≠ some u) (past : t.phase.past? = none)
    (opened : t.phase.Talks → (w.phase k).Talks ∧ ∀ j, t.closes k ≠ some j) :
    SafeHandler k (w.apply k t) ∧
      ∀ u room, RoomMember w k u room → RoomMember (w.apply k t) k u room := by
  refine ⟨⟨?_, ?_, ?_, ?_, ?_, ?_, ?_⟩, ?_⟩
  · intro v peer found self
    rw [World.apply_server, same] at found
    obtain ⟨roomId, point, running⟩ := inv.entries v peer found self
    exact absurd (congrArg Phase.past? running) (outside v)
  · intro j v ws room it apart leaving
    rw [World.apply_phase_of_ne _ _ _ apart] at leaving
    exact inv.locals j v ws room it apart leaving
  · intro u point leaving
    rw [World.apply_phase_self] at leaving
    rw [leaving] at past
    cases past
  · intro talks
    rw [World.apply_phase_self] at talks
    rw [World.apply_socket, if_neg ((opened talks).2 k)]
    exact inv.opened (opened talks).1
  · intro talks own
    rw [World.apply_phase_self] at talks
    refine World.apply_usable_self _ _ _ (opened talks).2 ?_ own
    simp [inv.opened (opened talks).1]
  · intro u past'
    rw [World.apply_phase_self, past] at past'
    cases past'
  · intro u roomId point running
    rw [World.apply_phase_self] at running
    rw [running] at past
    cases past
  · rintro u room ⟨⟨roomId, point, running⟩, -⟩
    exact absurd (congrArg Phase.past? running) (outside u)

/-- A turn after which the loop of handler `k` waits, with tables that are safe. -/
theorem loop_turn (inv : SafeHandler k w) {u : Uid} {roomId : Option RoomId} {point : LoopPoint}
    (phase : t.phase = .running u roomId point) (talked : (w.phase k).Talks)
    (closes : ∀ j, t.closes k ≠ some j) (safe : SafeUid t.server k u roomId point)
    (entries : ∀ v peer, t.server.peers v = some peer → peer.ws = k → v = u)
    (alone : ∀ j, j ≠ k → (w.phase j).past? ≠ some u) : SafeHandler k (w.apply k t) := by
  have running : (w.apply k t).phase k = .running u roomId point := by
    rw [World.apply_phase_self, phase]
  have opened := inv.opened talked
  refine ⟨?_, ?_, ?_, ?_, ?_, ?_, ?_⟩
  · intro v peer found self
    rw [World.apply_server] at found
    cases entries v peer found self
    exact ⟨roomId, point, running⟩
  · intro j v ws room it apart leaving
    rw [World.apply_phase_of_ne _ _ _ apart] at leaving
    exact inv.locals j v ws room it apart leaving
  · intro v p leaving
    cases running.symm.trans leaving
  · intro _
    rw [World.apply_socket, if_neg (closes k)]
    exact opened
  · intro _ own
    exact World.apply_usable_self _ _ _ closes (by simp [opened]) own
  · intro v past j past'
    rw [running] at past
    cases past
    by_contra apart
    rw [World.apply_phase_of_ne _ _ _ apart] at past'
    exact alone j apart past'
  · intro v r p running'
    cases running.symm.trans running'
    rw [World.apply_server]
    exact safe

/-- The loop of handler `k` goes on over the tables of `srv`. -/
theorem kept_turn (inv : SafeHandler k w) {u : Uid} {roomId roomId' : Option RoomId}
    {point point' : LoopPoint} (waiting : w.phase k = .running u roomId point)
    (phase : t.phase = .running u roomId' point') (closes : ∀ j, t.closes k ≠ some j)
    (sockets : SameSockets w.server t.server)
    (kept : Kept w.server t.server k u roomId' point') : SafeHandler k (w.apply k t) ∧
      ∀ u room, RoomMember w k u room → RoomMember (w.apply k t) k u room := by
  have past := congrArg Phase.past? waiting
  refine ⟨inv.loop_turn phase (Or.inr (Or.inr ⟨_, _, _, waiting⟩)) closes kept.safe ?_ ?_, ?_⟩
  · intro v peer found self
    obtain ⟨old, was, sameWs⟩ := sockets v peer found
    obtain ⟨r, p, running⟩ := inv.entries v old was (sameWs.trans self)
    cases waiting.symm.trans running
    rfl
  · intro j apart past'
    exact apart (inv.alone u past j past')
  · rintro v room ⟨⟨r, p, running⟩, registered, -⟩
    cases waiting.symm.trans running
    have registered' := kept.member room registered
    obtain ⟨status, found, -, -, member⟩ := kept.safe.entry
    cases registered'.symm.trans found
    refine ⟨⟨_, _, (World.apply_phase_self _ _ _).trans phase⟩, ?_, ?_⟩
    · rw [World.apply_server]
      exact registered'
    · rw [World.apply_server]
      exact (member room rfl).1

theorem own_turn (inv : SafeHandler act.conn w) (conduct : roomConduct act.conn w act = true)
    (shield : Shielded act.conn w act) (fires : Fires w act t) :
    SafeHandler act.conn (w.apply act.conn t) ∧
      ∀ u room, RoomMember w act.conn u room →
        RoomMember (w.apply act.conn t) act.conn u room := by
  have continues : ∀ {u roomId body}, Runs w u roomId act body →
      body.Continues w.server act.conn u := by
    intro u roomId body runs
    obtain ⟨point, waiting⟩ := runs.running
    have talks : (w.phase act.conn).Talks := Or.inr (Or.inr ⟨_, _, _, waiting⟩)
    exact runs.continues waiting (inv.safe u roomId point waiting) (inv.opened talks)
      (inv.usable talks) conduct shield
  have hello : w.phase act.conn = .hello → ∀ u, (w.phase act.conn).past? ≠ some u := by
    rintro waiting u past
    rw [waiting] at past
    cases past
  have ack : ∀ {u}, w.phase act.conn = .ack u → ∀ v, (w.phase act.conn).past? ≠ some v := by
    rintro u waiting v past
    rw [waiting] at past
    cases past
  cases fires with
  | greeted waiting fields absent word =>
      exact inv.outside_turn rfl (hello waiting) rfl
        fun _ => ⟨Or.inl waiting, by rintro j ⟨⟩⟩
  | refused waiting =>
      exact inv.outside_turn rfl (hello waiting) rfl (by simp [Turn.phase, Phase.Talks])
  | helloFailed waiting =>
      exact inv.outside_turn rfl (hello waiting) rfl (by simp [Turn.phase, Phase.Talks])
  | helloClosed unusable waiting =>
      exact inv.outside_turn rfl (hello waiting) rfl (by simp [Turn.phase, Phase.Talks])
  | @rejected k raises pick waiting =>
      refine inv.outside_turn rfl ?_ rfl (by simp [Turn.phase, Phase.Talks])
      rintro u past
      rw [Act.conn, waiting] at past
      cases past
  | ackFailed mayRaise waiting =>
      exact inv.outside_turn rfl (ack waiting) rfl (by simp [Turn.phase, Phase.Talks])
  | @registered k pick u mayReturn waiting =>
      obtain ⟨forgotten, nobody⟩ := shield.register pick u rfl waiting
      have spares : ∀ v, v ≠ u → Spares v w.server (w.server.register k u) :=
        fun v other => .writePeer other _ _
      refine ⟨inv.loop_turn (u := u) rfl (Or.inr (Or.inl ⟨u, waiting⟩)) (by rintro j ⟨⟩)
        ⟨forgotten.noKey, forgotten.noValue, none, ?_, trivial, fun _ => ?_, by simp⟩ ?_ ?_, ?_⟩
      · simp [Turn.server, register, Act.conn]
      · intro room
        rw [Turn.server, register, members_writePeer]
        exact forgotten.noRoom room
      · intro v peer found self
        by_contra other
        rw [Turn.server, (spares v other).peers] at found
        obtain ⟨r, p, running⟩ := inv.entries v peer found self
        exact ack waiting v (congrArg Phase.past? running)
      · intro j _
        exact nobody j
      · rintro v room ⟨⟨r, p, running⟩, -⟩
        exact absurd (congrArg Phase.past? running) (ack waiting v)
  | timeout waiting =>
      exact inv.kept_turn waiting rfl (by rintro j ⟨⟩) (.of_peers rfl)
        ⟨(inv.safe _ _ _ waiting).plain rfl, fun _ => id⟩
  | loops runs =>
      obtain ⟨point, waiting⟩ := runs.running
      exact inv.kept_turn waiting rfl (by rintro j ⟨⟩) runs.sameEntries.sameSockets
        (continues runs)
  | sends runs =>
      obtain ⟨point, waiting⟩ := runs.running
      exact inv.kept_turn waiting rfl (by rintro j ⟨⟩) runs.sameEntries.sameSockets
        (continues runs)
  | leaves runs removed => exact (continues runs).elim
  | partnerClosed mayReturn waiting removed => exact absurd waiting (inv.stays _ _)
  | leftSent mayReturn waiting announced => exact absurd waiting (inv.stays _ _)
  | leaveRaised mayRaise waiting => exact absurd waiting (inv.stays _ _)
  | finished waiting => exact absurd waiting (inv.stays _ _)

/-- A step of the environment, which does not take the client of handler `k` away. -/
theorem environment (inv : SafeHandler k w) (env : Environment w w')
    (conns : w'.conns k = w.conns k ∨
      (w.phase k = .absent ∧ w'.conns k = ⟨.open, .hello, k, true⟩)) :
    SafeHandler k w' ∧ ∀ u room, RoomMember w k u room → RoomMember w' k u room := by
  have others : ∀ j, w'.phase j = w.phase j ∨ (w.phase j = .absent ∧ w'.phase j = .hello) :=
    fun j => (env.conns j).imp (fun h => h.1) fun h => ⟨h.1, h.2.1⟩
  have past : ∀ j u, (w'.phase j).past? = some u → (w.phase j).past? = some u := by
    intro j u past
    rcases others j with same | ⟨-, hello⟩
    · rwa [same] at past
    · rw [hello] at past
      cases past
  have running : ∀ u roomId point, w.phase k = .running u roomId point →
      w'.phase k = .running u roomId point := by
    intro u roomId point waiting
    rcases others k with same | ⟨absent, -⟩
    · exact same.trans waiting
    · cases absent.symm.trans waiting
  refine ⟨⟨?_, ?_, ?_, ?_, ?_, ?_, ?_⟩, ?_⟩
  · intro v peer found self
    rw [env.server] at found
    obtain ⟨roomId, point, waiting⟩ := inv.entries v peer found self
    exact ⟨roomId, point, running v roomId point waiting⟩
  · intro j v ws room it apart leaving
    rcases others j with same | ⟨-, hello⟩
    · exact inv.locals j v ws room it apart (same.symm.trans leaving)
    · cases hello.symm.trans leaving
  · intro u point leaving
    rcases others k with same | ⟨-, hello⟩
    · exact inv.stays u point (same.symm.trans leaving)
    · cases hello.symm.trans leaving
  · intro talks
    rcases conns with same | ⟨-, fresh⟩
    · rw [World.phase, same] at talks
      rw [World.socket, same]
      exact inv.opened talks
    · rw [World.socket, fresh]
  · intro talks own
    rcases conns with same | ⟨-, fresh⟩
    · rw [World.phase, same] at talks
      rw [same] at own ⊢
      exact inv.usable talks own
    · rw [fresh]
  · intro u mine j theirs
    exact inv.alone u (past k u mine) j (past j u theirs)
  · intro u roomId point waiting
    rw [env.server]
    rcases others k with same | ⟨-, hello⟩
    · exact inv.safe u roomId point (same.symm.trans waiting)
    · cases hello.symm.trans waiting
  · rintro u room ⟨⟨roomId, point, waiting⟩, registered, listed⟩
    refine ⟨⟨roomId, point, running u roomId point waiting⟩, ?_, ?_⟩
    · rw [env.server]
      exact registered
    · rw [env.server]
      exact listed

theorem step (inv : SafeHandler k w) (conduct : roomConduct k w act = true)
    (shield : Shielded k w act) (h : w.step act = some w') :
    SafeHandler k w' ∧ ∀ u room, RoomMember w k u room → RoomMember w' k u room := by
  rcases step_cases h with ⟨j, rfl, absent, rfl⟩ | ⟨j, rfl, usable, rfl⟩ | ⟨t, fires, rfl⟩
  · refine inv.environment (environment_connect absent) ?_
    by_cases self : k = j
    · subst self
      exact Or.inr ⟨absent, by simp [World.setConn]⟩
    · exact Or.inl (by simp [World.setConn, self])
  · refine inv.environment environment_lose (Or.inl ?_)
    have other : k ≠ j := by
      rintro rfl
      simp [roomConduct] at conduct
    simp [World.setConn, other]
  · by_cases self : act.conn = k
    · subst self
      exact inv.own_turn conduct shield fires
    · exact inv.other_turn shield fires self

end SafeHandler

/--
A room member whose client stays connected and sends room commands only stays a
member, whatever the others do, as long as their faults are kept from its
handler.
-/
theorem member_survives {k : ConnId} {w w' : World} {u : Uid} {room : RoomId}
    (run : interleaved.Reachable (Guarded k) w) (member : RoomMember w k u room)
    (later : interleaved.Run (Guarded k) w w') :
    RoomMember w' k u room := by
  have safe : SafeHandler k w :=
    run.invariant (.init k) fun _ _ _ inv allowed h => (inv.step allowed.1 allowed.2 h).1
  have both : SafeHandler k w' ∧ RoomMember w' k u room := by
    refine later.invariant (P := fun w => SafeHandler k w ∧ RoomMember w k u room)
      ⟨safe, member⟩ ?_
    rintro v act v' ⟨inv, stays⟩ allowed h
    obtain ⟨inv', keeps⟩ := inv.step allowed.1 allowed.2 h
    exact ⟨inv', keeps u room stays⟩
  exact both.2

/-! ## Checking that a member is safe -/

/-- Every member of the room is registered. -/
def membersRegistered (srv : WebRTCSimpleServer) (room : RoomId) : Bool :=
  decide (∀ pid ∈ srv.members room, (srv.peers pid).isSome)

/-- Enough for `Shielded` when the first `n` connections are in use and nothing is
left of a uid without an entry. -/
def shieldedBelow (n : Nat) (k : ConnId) (w : World) : Act → Bool
  | .resume j false _ =>
      match w.phase j with
      | .ack u =>
          (w.phase k).past? ≠ some u && (j ≠ k || (w.server.peers u = none &&
            (List.range n).all fun i => (w.phase i).past? ≠ some u))
      | .running _ _ (.sessionOk callee) => (w.phase k).past? ≠ some callee
      | .running _ _ (.roomOk room) => j ≠ k || membersRegistered w.server room
      | .running _ _ (.joined room it) => j ≠ k || (membersRegistered w.server room &&
          (w.server.rooms room).all fun set => set.elems.card = it.used)
      | _ => true
  | .resume j true _ => j ≠ k || (w.conns k).target = k
  | _ => true

/-- Steps of the first `n` connections that disturb nobody and keep handler `k` safe. -/
def guardedBelow (n : Nat) (k : ConnId) (w : World) (act : Act) : Bool :=
  decide (act.conn < n) && undisturbedBelow n w act && roomConduct k w act &&
    shieldedBelow n k w act

/-- What the checks of one step rest on. -/
structure Checkable (n : Nat) (w : World) : Prop where
  absent : AbsentFrom n w
  clean : CleanupInv w

section Checked

variable {n : Nat} {k : ConnId} {w w' : World} {act : Act}

theorem registered_of_members {srv : WebRTCSimpleServer} {room : RoomId}
    (ok : membersRegistered srv room = true) : ∀ pid ∈ srv.members room, srv.peers pid ≠ none :=
  fun pid inside => Option.isSome_iff_ne_none.mp (of_decide_eq_true ok pid inside)

theorem shielded_of_below (known : Checkable n w) (ok : shieldedBelow n k w act = true) :
    Shielded k w act := by
  refine ⟨?_, ?_, ?_, ?_, ?_, ?_⟩
  · rintro pick u rfl waiting
    simp only [shieldedBelow, waiting, ne_eq, not_true_eq_false, decide_false, Bool.false_or,
      Bool.and_eq_true, decide_eq_true_eq, List.all_eq_true] at ok
    refine ⟨known.clean.tidy.forgotten ok.2.1, fun j past => ?_⟩
    by_cases used : j < n
    · exact ok.2.2 j (List.mem_range.mpr used) past
    · rw [known.absent j (Nat.le_of_not_lt used)] at past
      cases past
  · rintro u past j pick rfl waiting
    simp only [shieldedBelow, waiting, Bool.and_eq_true, decide_eq_true_eq] at ok
    exact ok.1 past
  · rintro u past j pick v roomId callee rfl waiting rfl
    simp only [shieldedBelow, waiting, decide_eq_true_eq] at ok
    exact ok past
  · rintro pick rfl
    simpa [shieldedBelow] using ok
  · rintro pick u roomId room it set rfl waiting found
    simp only [shieldedBelow, waiting, found, ne_eq, not_true_eq_false, decide_false,
      Bool.false_or, Bool.and_eq_true, Option.all_some, decide_eq_true_eq] at ok
    exact ok.2
  · rintro pick u roomId room rfl (waiting | ⟨it, waiting⟩)
    · simp only [shieldedBelow, waiting, ne_eq, not_true_eq_false, decide_false,
        Bool.false_or] at ok
      exact registered_of_members ok
    · simp only [shieldedBelow, waiting, ne_eq, not_true_eq_false, decide_false,
        Bool.false_or, Bool.and_eq_true] at ok
      exact registered_of_members ok.1

theorem guardedBelow_iff : guardedBelow n k w act = true ↔
    ((act.conn < n ∧ undisturbedBelow n w act = true) ∧ roomConduct k w act = true) ∧
      shieldedBelow n k w act = true := by
  simp [guardedBelow]

theorem Checkable.step (known : Checkable n w) (ok : guardedBelow n k w act = true)
    (h : w.step act = some w') : Checkable n w' := by
  obtain ⟨⟨⟨used, undisturbed⟩, -⟩, -⟩ := guardedBelow_iff.mp ok
  exact ⟨known.absent.step used h,
    known.clean.step (undisturbed_of_below known.absent undisturbed) h⟩

theorem guarded_of_below (known : Checkable n w) (ok : guardedBelow n k w act = true) :
    Guarded k w act := by
  obtain ⟨⟨-, conduct⟩, shielded⟩ := guardedBelow_iff.mp ok
  exact ⟨conduct, shielded_of_below known shielded⟩

/-- A checked list of actions keeps handler `k` safe. -/
theorem guarded_run {actions : List Act} (known : Checkable n w)
    (done : interleaved.execIf (guardedBelow n k) w actions = some w') :
    interleaved.Run (Guarded k) w w' ∧ Checkable n w' :=
  interleaved.run_of_execIf (Checkable n) (fun _ _ known ok => guarded_of_below known ok)
    (fun _ _ _ known ok h => known.step ok h) actions known done

end Checked

/--
A member announces itself to the room, another one joins, is written to and
dies, and the member that was there first leaves.
-/
theorem member_survives_departures :
    ∃ w w', RoomMember w 1 "y".toList "r".toList ∧ interleaved.Run (Guarded 1) w w' ∧
      RoomMember w' 1 "y".toList "r".toList ∧
      w.server.members "r".toList = {"x".toList, "y".toList} ∧
      w'.server.members "r".toList = {"y".toList} ∧
      (2, Reply.peerMsg "y".toList "hi".toList) ∈ w'.log := by
  have passes : (interleaved.execIf (guardedBelow 3 1) World.empty
      (greeting 0 "x" ++ greeting 1 "y" ++ greeting 2 "z" ++
        [.recv 0 "ROOM r".toList [] none, .resume 0 false none,
          .recv 1 "ROOM r".toList ["x".toList] none, .resume 1 false (some "x".toList)])).any
      (fun w => (w.phase 1).joining "r".toList "y".toList &&
        w.server.peers "y".toList = some ⟨1, some "r".toList⟩ &&
        w.server.members "r".toList = {"x".toList, "y".toList} &&
        (interleaved.execIf (guardedBelow 3 1) w
          [.resume 1 false none, .recv 2 "ROOM r".toList ["x".toList, "y".toList] none,
            .resume 2 false (some "x".toList), .resume 2 false (some "y".toList),
            .resume 2 false none, .recv 1 "ROOM_PEER_MSG z hi".toList [] none,
            .resume 1 false none, .lose 2, .closed 2 (some "x".toList),
            .resume 2 false (some "y".toList), .resume 2 false none, .resume 2 false none,
            .lose 0, .closed 0 (some "y".toList), .resume 0 false none]).any
          fun w' => w'.server.members "r".toList = {"y".toList} ∧
            (2, Reply.peerMsg "y".toList "hi".toList) ∈ w'.log) = true := by decide
  obtain ⟨w, before, test⟩ := (Option.any_eq_true _ _).mp passes
  simp only [Bool.and_eq_true, decide_eq_true_eq, Option.any_eq_true] at test
  obtain ⟨⟨⟨joining, registered⟩, listed⟩, w', after, alone, written⟩ := test
  obtain ⟨run, known⟩ := guarded_run ⟨fun _ _ => rfl, .init⟩ before
  obtain ⟨later, -⟩ := guarded_run known after
  obtain ⟨roomId, it, running⟩ := Phase.running_of_joining joining
  have member : RoomMember w 1 "y".toList "r".toList :=
    ⟨⟨_, _, running⟩, registered, by rw [listed]; decide⟩
  exact ⟨w, w', member, later, member_survives run member later, listed, alone, written⟩

/-- The announcement of a joiner is sent to a member that has just gone away. -/
theorem member_disconnected :
    ¬ ∀ k w w' u room, interleaved.Reachable (fun w act => roomConduct k w act) w →
      RoomMember w k u room → interleaved.Run (fun w act => roomConduct k w act) w w' →
      RoomMember w' k u room := by
  intro survives
  have passes : (interleaved.execIf
      (fun w act => decide (act.conn < 2) && roomConduct 1 w act) World.empty
      (greeting 0 "x" ++ greeting 1 "y" ++
        [.recv 0 "ROOM r".toList [] none, .resume 0 false none,
          .recv 1 "ROOM r".toList ["x".toList] none, .resume 1 false (some "x".toList),
          .lose 0])).any (fun w =>
        (w.phase 1).joining "r".toList "y".toList &&
        w.server.peers "y".toList = some ⟨1, some "r".toList⟩ &&
        "y".toList ∈ w.server.members "r".toList &&
        (w.step (.resume 1 true (some "x".toList))).any fun w' =>
          "y".toList ∉ w'.server.members "r".toList) = true := by decide
  obtain ⟨w, run, -, test⟩ :
      ∃ w, interleaved.Reachable (fun w act => roomConduct 1 w act) w ∧ AbsentFrom 2 w ∧ _ :=
    exists_of_checked (roomConduct 1) (fun _ _ _ conduct => conduct) _ _ passes
  simp only [Bool.and_eq_true, decide_eq_true_eq, Option.any_eq_true] at test
  obtain ⟨⟨⟨joining, registered⟩, listed⟩, w', h, gone⟩ := test
  obtain ⟨roomId, it, running⟩ := Phase.running_of_joining joining
  have member : RoomMember w 1 "y".toList "r".toList := ⟨⟨_, _, running⟩, registered, listed⟩
  have conduct : roomConduct 1 w (.resume 1 true (some "x".toList)) = true := rfl
  exact gone (survives 1 w w' _ _ run member (.single conduct h)).listed

end GstWebrtc.Signalling
