import GstWebrtc.Signalling.Serving
import GstWebrtc.Signalling.SessionTable
import GstWebrtc.Signalling.RoomTable

/-!
# The effect of `remove_peer`

Two helpers update three tables in turn, each looking up what an earlier one
may have deleted.  From tables that agree with each other the call takes away
one uid and its session partner, tells the rest of its room, and leaves tables
that agree again.
-/

namespace GstWebrtc.Signalling

open GstWebrtc.Base GstWebrtc.Base.PyText WebRTCSimpleServer

/-- The three tables tell the same story. -/
structure Consistent (srv : WebRTCSimpleServer) : Prop where
  symmetric : ∀ a b, srv.sessions a = some b → srv.sessions b = some a
  registered : ∀ a b, srv.sessions a = some b → ∃ peer, srv.peers b = some peer
  status : ∀ a peer, srv.peers a = some peer →
    (peer.status = some inSession ↔ ∃ b, srv.sessions a = some b)
  rooms : ∀ room u, u ∈ srv.members room ↔
    ∃ peer, srv.peers u = some peer ∧ IsRoom peer.status room

/-- The room that `uid` is in. -/
def InRoom (srv : WebRTCSimpleServer) (uid : Uid) (room : RoomId) : Prop :=
  ∃ peer, srv.peers uid = some peer ∧ IsRoom peer.status room

/-- The tables without `uid` and its session partner, and otherwise as they were. -/
structure Without (srv srv' : WebRTCSimpleServer) (uid : Uid) : Prop where
  gone : ∀ v, MayDelete srv uid v → srv'.peers v = none ∧ srv'.sessions v = none
  others : ∀ v, ¬ MayDelete srv uid v →
    srv'.peers v = srv.peers v ∧ srv'.sessions v = srv.sessions v
  ownRoom : ∀ room, InRoom srv uid room →
    srv'.members room = (srv.members room).erase uid
  otherRooms : ∀ room, ¬ InRoom srv uid room → srv'.rooms room = srv.rooms room

/-- `ROOM_PEER_LEFT uid` on the connection of `v`. -/
def leftNotice (srv : WebRTCSimpleServer) (uid v : Uid) : Option (ConnId × Reply) :=
  (srv.peers v).map fun peer => (peer.ws, .peerLeft uid)

/-- The remaining members of the room are told once each, and nobody else is told anything. -/
def Announced (srv : WebRTCSimpleServer) (uid : Uid) (sent : List (ConnId × Reply)) : Prop :=
  ∃ order : List Uid, order.Nodup ∧
    (∀ v, v ∈ order ↔ v ≠ uid ∧ ∃ room, InRoom srv uid room ∧ InRoom srv v room) ∧
    sent = order.filterMap (leftNotice srv uid)

/-- The states after each turn of handler `k` in `remove_peer(uid)`, when it is not disturbed
and its sends succeed. -/
inductive Removing (w : World) (k : ConnId) (uid : Uid) : World → Prop where
  | begins {pick t} (turn : removePeer w.server uid pick = some t) :
      Removing w k uid (w.apply k t)
  | goesOn {v pick w'} (before : Removing w k uid v)
      (fires : v.step (.resume k false pick) = some w') : Removing w k uid w'

/-- `remove_peer(uid)` has returned, and with it the handler. -/
def Removes (w : World) (k : ConnId) (uid : Uid) (w' : World) : Prop :=
  Removing w k uid w' ∧ w'.phase k = .done (some uid)

/-- What `remove_peer(uid)` does.  Connection `k` is closed when its handler ends. -/
structure Removal (w : World) (k : ConnId) (uid : Uid) (w' : World) : Prop where
  tables : Without w.server w'.server uid
  notices : ∃ sent, w'.log = w.log ++ sent ∧ Announced w.server uid sent
  sockets : ∀ j, w'.socket j = .closed ↔
    w.socket j = .closed ∨ MayClose w.server uid j ∨ j = k
  consistent : Consistent w'.server
  /-- A later call for either uid finds nothing to do. -/
  idempotent : ∀ v, MayDelete w.server uid v → ∀ pick,
    removePeer w'.server v pick = some (.stop w'.server (some v))

/-! ## The tables -/

section Tables

variable {srv srv' : WebRTCSimpleServer} {uid v : Uid}

/-- The entries that are left were there before. -/
theorem Without.peer_before (without : Without srv srv' uid) {peer : Peer}
    (found : srv'.peers v = some peer) : srv.peers v = some peer ∧ ¬ MayDelete srv uid v := by
  have kept : ¬ MayDelete srv uid v := by
    intro deleted
    cases (without.gone v deleted).1.symm.trans found
  exact ⟨(without.others v kept).1.symm.trans found, kept⟩

theorem Without.session_before (without : Without srv srv' uid) {other : Uid}
    (linked : srv'.sessions v = some other) :
    srv.sessions v = some other ∧ ¬ MayDelete srv uid v := by
  have kept : ¬ MayDelete srv uid v := by
    intro deleted
    cases (without.gone v deleted).2.symm.trans linked
  exact ⟨(without.others v kept).2.symm.trans linked, kept⟩

namespace Consistent

theorem inRoom_iff (h : Consistent srv) {room : RoomId} : InRoom srv v room ↔ v ∈ srv.members room :=
  (h.rooms room v).symm

/-- Who is in a room is in no session. -/
theorem unlinked_of_room (h : Consistent srv) {room : RoomId} (inside : InRoom srv uid room) :
    srv.sessions uid = none := by
  obtain ⟨peer, found, status, -, notSession⟩ := inside
  cases linked : srv.sessions uid with
  | none => rfl
  | some other =>
      have busy := (h.status uid peer found).mpr ⟨other, linked⟩
      exact absurd (Option.some.inj (status.symm.trans busy)) notSession

/-- Nobody who is left was in a session with one of the two. -/
theorem partner_kept (h : Consistent srv) {a b : Uid} (linked : srv.sessions a = some b)
    (kept : ¬ MayDelete srv uid a) : ¬ MayDelete srv uid b := by
  rintro (rfl | back)
  · exact kept (Or.inr (h.symmetric a b linked))
  · cases (h.symmetric a b linked).symm.trans (h.symmetric uid b back)
    exact kept (Or.inl rfl)

/-- Of a room only the uid itself may be deleted. -/
theorem mayDelete_iff_of_room (h : Consistent srv) {room : RoomId} {u : Uid}
    (inside : InRoom srv u room) : MayDelete srv uid u ↔ u = uid := by
  refine ⟨fun may => may.resolve_right fun linked => ?_, Or.inl⟩
  cases (h.unlinked_of_room inside).symm.trans (h.symmetric uid u linked)

/-- The rooms are still what the statuses say. -/
theorem members_of_without (h : Consistent srv) (without : Without srv srv' uid)
    (room : RoomId) (u : Uid) :
    (∃ peer, srv'.peers u = some peer ∧ IsRoom peer.status room) ↔ u ∈ srv'.members room := by
  have entry : (∃ peer, srv'.peers u = some peer ∧ IsRoom peer.status room) ↔
      InRoom srv u room ∧ ¬ MayDelete srv uid u := by
    constructor
    · rintro ⟨peer, found, member⟩
      obtain ⟨was, kept⟩ := without.peer_before found
      exact ⟨⟨peer, was, member⟩, kept⟩
    · rintro ⟨⟨peer, was, member⟩, kept⟩
      exact ⟨peer, (without.others u kept).1.trans was, member⟩
  rw [entry]
  by_cases own : InRoom srv uid room
  · rw [without.ownRoom room own, Finset.mem_erase, ← h.inRoom_iff]
    constructor
    · rintro ⟨inside, kept⟩
      exact ⟨fun same => kept (Or.inl same), inside⟩
    · rintro ⟨other, inside⟩
      exact ⟨inside, fun may => other ((h.mayDelete_iff_of_room inside).mp may)⟩
  · have same : srv'.members room = srv.members room := by
      unfold members
      rw [without.otherRooms room own]
    rw [same, ← h.inRoom_iff]
    refine ⟨And.left, fun inside => ⟨inside, fun may => own ?_⟩⟩
    exact (h.mayDelete_iff_of_room inside).mp may ▸ inside

/-- The tables agree again without `uid` and its partner. -/
theorem of_without (h : Consistent srv) (without : Without srv srv' uid) : Consistent srv' := by
  refine ⟨?_, ?_, ?_, ?_⟩
  · intro a b linked
    obtain ⟨was, kept⟩ := without.session_before linked
    rw [(without.others b (h.partner_kept was kept)).2]
    exact h.symmetric a b was
  · intro a b linked
    obtain ⟨was, kept⟩ := without.session_before linked
    rw [(without.others b (h.partner_kept was kept)).1]
    exact h.registered a b was
  · intro a peer found
    obtain ⟨was, kept⟩ := without.peer_before found
    rw [(without.others a kept).2]
    exact h.status a peer was
  · exact fun room u => (h.members_of_without without room u).symm

end Consistent

/-- The tables agree in the quiet states of the runs that keep each of them in order. -/
theorem consistent_of_quiet {w : World} (sessions : SessionInv w) (rooms : RoomInv w)
    (quiet : w.Quiet) : Consistent w.server := by
  have linked := sessions.settled quiet
  have placed := rooms.settled quiet
  refine ⟨linked.symmetric, ?_, ?_, fun room u => ⟨fun inside => ?_, ?_⟩⟩
  · intro a b session
    obtain ⟨peer, found, -⟩ := linked.busy b a (linked.symmetric a b session)
    exact ⟨peer, found⟩
  · intro a peer found
    refine ⟨fun busy => (linked.key a peer found busy).resolve_left id, ?_⟩
    rintro ⟨b, session⟩
    obtain ⟨peer', found', busy⟩ := linked.busy a b session
    cases found.symm.trans found'
    exact busy
  · obtain ⟨nonempty, notSession, peer, found, status⟩ := placed.listed room u inside
    exact ⟨peer, found, status, nonempty, notSession⟩
  · rintro ⟨peer, found, status, -, notSession⟩
    exact (placed.counted u peer room found status notSession).resolve_left id

theorem Without.idempotent (without : Without srv srv' uid) (deleted : MayDelete srv uid v)
    (pick : Option Uid) : removePeer srv' v pick = some (.stop srv' (some v)) := by
  obtain ⟨absent, alone⟩ := without.gone v deleted
  simp only [removePeer, cleanupSession, alone, removeEntry, absent]

end Tables

/-! ## After `cleanup_session` -/

/-- The tables without the session of `uid` and without its partner. -/
structure SessionGone (srv srv' : WebRTCSimpleServer) (uid : Uid) : Prop where
  own : srv'.peers uid = srv.peers uid
  partner : ∀ v, v ≠ uid → srv.sessions uid = some v → srv'.peers v = none
  peers : ∀ v, v ≠ uid → srv.sessions uid ≠ some v → srv'.peers v = srv.peers v
  gone : ∀ v, MayDelete srv uid v → srv'.sessions v = none
  sessions : ∀ v, ¬ MayDelete srv uid v → srv'.sessions v = srv.sessions v
  rooms : srv'.rooms = srv.rooms

section Cleaning

variable {srv srv' : WebRTCSimpleServer} {uid v : Uid} {room : RoomId}

/-- Without a session there is no session to remove. -/
theorem SessionGone.of_alone (alone : srv.sessions uid = none) : SessionGone srv srv uid := by
  refine ⟨rfl, ?_, fun _ _ _ => rfl, ?_, fun _ _ => rfl, rfl⟩
  · intro x _ linked
    cases alone.symm.trans linked
  · rintro x (rfl | linked)
    · exact alone
    · cases alone.symm.trans linked

/-- The sessions of the two are deleted, and the partner's entry with its socket. -/
theorem SessionCleaned.gone {wso : Option ConnId} (cleaned : SessionCleaned srv uid (srv', wso))
    (consistent : Consistent srv) : SessionGone srv srv' uid ∧
      ∀ j, wso = some j ↔ ∃ other peer, other ≠ uid ∧ srv.sessions uid = some other ∧
        srv.peers other = some peer ∧ peer.ws = j := by
  cases cleaned with
  | unlinked alone =>
      refine ⟨.of_alone alone, fun j => iff_of_false (by rintro ⟨⟩) ?_⟩
      rintro ⟨other, peer, -, linked, -⟩
      cases alone.symm.trans linked
  | @oneSided other linked noBack =>
      have self : other = uid := by
        refine noBack.resolve_right fun none => ?_
        cases none.symm.trans (consistent.symmetric uid other linked)
      subst self
      refine ⟨⟨rfl, ?_, fun v _ _ => rfl, ?_, ?_, rfl⟩, fun j => ?_⟩
      · intro v different linked'
        cases linked.symm.trans linked'
        exact absurd rfl different
      · rintro v (rfl | linked')
        · exact Function.update_self _ _ _
        · cases linked.symm.trans linked'
          exact Function.update_self _ _ _
      · intro v kept
        exact Function.update_of_ne (fun same => kept (Or.inl same)) _ _
      · refine iff_of_false (by rintro ⟨⟩) ?_
        rintro ⟨other', peer, different, linked', -⟩
        cases linked.symm.trans linked'
        exact different rfl
  | @partnerGone other back linked different linkedBack absent =>
      obtain ⟨peer, found⟩ := consistent.registered uid other linked
      cases absent.symm.trans found
  | @partner other back peer linked different linkedBack registered =>
      refine ⟨⟨?_, ?_, ?_, ?_, ?_, rfl⟩, fun j => ?_⟩
      · exact Function.update_of_ne different.symm _ _
      · intro v _ linked'
        cases linked.symm.trans linked'
        exact Function.update_self _ _ _
      · intro v _ notPartner
        have other : v ≠ _ := fun same => notPartner (linked.trans (congrArg some same.symm))
        exact Function.update_of_ne other _ _
      · rintro v (rfl | linked')
        · simp [different.symm]
        · cases linked.symm.trans linked'
          simp
      · intro v kept
        have notPartner : v ≠ other := fun same => kept (Or.inr (same ▸ linked))
        have notOwn : v ≠ uid := fun same => kept (Or.inl same)
        simp [notPartner, notOwn]
      · constructor
        · rintro ⟨⟩
          exact ⟨other, peer, different, linked, registered, rfl⟩
        · rintro ⟨other', peer', -, linked', registered', rfl⟩
          cases linked.symm.trans linked'
          cases registered.symm.trans registered'
          rfl

/-- The entry of `uid` is deleted too, and it is in no room. -/
theorem SessionGone.without (gone : SessionGone srv srv' uid) {after : WebRTCSimpleServer}
    (deleted : after.peers uid = none) (peers : ∀ v, v ≠ uid → after.peers v = srv'.peers v)
    (sessions : after.sessions = srv'.sessions)
    (ownRoom : ∀ room, InRoom srv uid room → after.members room = (srv.members room).erase uid)
    (otherRooms : ∀ room, ¬ InRoom srv uid room → after.rooms room = srv.rooms room) :
    Without srv after uid := by
  refine ⟨fun v may => ⟨?_, ?_⟩, fun v kept => ⟨?_, ?_⟩, ownRoom, otherRooms⟩
  · by_cases own : v = uid
    · exact own ▸ deleted
    · rw [peers v own]
      exact gone.partner v own (may.resolve_left own)
  · rw [sessions]
    exact gone.gone v may
  · have own : v ≠ uid := fun same => kept (Or.inl same)
    rw [peers v own]
    exact gone.peers v own fun linked => kept (Or.inr linked)
  · rw [sessions]
    exact gone.sessions v kept

theorem SessionGone.inRoom_iff (gone : SessionGone srv srv' uid) :
    (∃ peer, srv'.peers uid = some peer ∧ IsRoom peer.status room) ↔ InRoom srv uid room := by
  rw [gone.own]
  rfl

end Cleaning

/-! ## The loop of `cleanup_room` -/

section Loop

variable {srv : WebRTCSimpleServer} {uid : Uid} {ws : ConnId} {room : RoomId} {set : PySet Uid}
  {order : List Uid} {t : Turn}

/-- The iterator over the rest of the room after the members in `order` were told. -/
def told (set : PySet Uid) (uid : Uid) (order : List Uid) : Iter Uid :=
  { (set.remove uid).iter ∅ with seen := order.toFinset }

/-- One round: the loop is over and the entry is deleted, or one more member is told. -/
theorem LeftAnnounced.deleted_or_told
    (announced : LeftAnnounced (srv.writeRoom room (set.remove uid)) uid ws room
      (told set uid order) t)
    (registered : srv.peers uid ≠ none)
    (members : ∀ v ∈ set.elems, v ≠ uid → ∃ peer, srv.peers v = some peer) :
    ((∀ v ∈ set.elems, v ≠ uid → v ∈ order) ∧
      t = .close ((srv.writeRoom room (set.remove uid)).writePeer uid none) ws
        (.leaving uid .close)) ∨
    ∃ v peer, v ∈ set.elems ∧ v ≠ uid ∧ v ∉ order ∧ srv.peers v = some peer ∧
      t = .send (srv.writeRoom room (set.remove uid)) peer.ws (.peerLeft uid)
        (.leaving uid (.left ws room (told set uid (order ++ [v])))) := by
  have current : ∀ {found : PySet Uid}, (srv.writeRoom room (set.remove uid)).rooms room = some found →
      found = set.remove uid := by
    intro found same
    rw [rooms_writeRoom, Function.update_self] at same
    exact (Option.some.inj same).symm
  cases announced with
  | changedSize found changed =>
      obtain rfl := current found
      exact absurd rfl changed
  | finished found same all =>
      obtain rfl := current found
      refine Or.inl ⟨fun v inside other => ?_, ?_⟩
      · have seen := all rfl (Finset.mem_erase.mpr ⟨other, inside⟩)
        exact List.mem_toFinset.mp seen
      · unfold deletePeer
        cases entry : srv.peers uid with
        | none => exact absurd entry registered
        | some peer => simp [entry]
  | @missing found v _ inside absent =>
      obtain rfl := current ‹_›
      obtain ⟨other, inside⟩ := Finset.mem_erase.mp inside
      obtain ⟨peer, entry⟩ := members v inside other
      cases absent.symm.trans entry
  | @notice found v peer _ same inside fresh entry =>
      obtain rfl := current ‹_›
      obtain ⟨other, inside⟩ := Finset.mem_erase.mp inside
      have untold : v ∉ order := fun seen => fresh rfl (List.mem_toFinset.mpr seen)
      refine Or.inr ⟨v, peer, inside, other, untold, entry, ?_⟩
      have seen : insert v order.toFinset = (order ++ [v]).toFinset := by
        ext x
        simp
      simp only [told, ← seen]

end Loop

/-! ## The whole call -/

/-- The socket of the session partner. -/
def PartnerSocket (srv : WebRTCSimpleServer) (uid : Uid) (j : ConnId) : Prop :=
  ∃ other peer, other ≠ uid ∧ srv.sessions uid = some other ∧ srv.peers other = some peer ∧
    peer.ws = j

theorem mayClose_iff {srv : WebRTCSimpleServer} {uid : Uid} {j : ConnId} :
    MayClose srv uid j ↔
      PartnerSocket srv uid j ∨ ∃ peer, srv.peers uid = some peer ∧ peer.ws = j := by
  constructor
  · rintro ⟨v, peer, rfl | linked, found, own⟩
    · exact Or.inr ⟨peer, found, own⟩
    · by_cases same : v = uid
      · subst same
        exact Or.inr ⟨peer, found, own⟩
      · exact Or.inl ⟨v, peer, same, linked, found, own⟩
  · rintro (⟨v, peer, -, linked, found, own⟩ | ⟨peer, found, own⟩)
    · exact ⟨v, peer, Or.inr linked, found, own⟩
    · exact ⟨uid, peer, Or.inl rfl, found, own⟩

/-- Where the call is, with what it has done until then. -/
inductive Stage (w : World) (k : ConnId) (uid : Uid) (v : World) : Prop where
  | partner (phase : v.phase k = .leaving uid .partner) (linked : w.server.sessions uid ≠ none)
      (gone : SessionGone w.server v.server uid)
      (log : v.log = w.log)
      (sockets : ∀ j, v.socket j = .closed ↔ w.socket j = .closed ∨ PartnerSocket w.server uid j)
  | telling {peer room set order last member}
      (registered : w.server.peers uid = some peer) (inside : IsRoom peer.status room)
      (found : w.server.rooms room = some set)
      (phase : v.phase k = .leaving uid (.left peer.ws room (told set uid (order ++ [last]))))
      (server : v.server = w.server.writeRoom room (set.remove uid))
      (nodup : (order ++ [last]).Nodup)
      (members : ∀ x ∈ order ++ [last], x ∈ set.elems ∧ x ≠ uid)
      (entry : w.server.peers last = some member)
      (usable : (v.conns k).usable = (w.socket member.ws != .closed))
      (log : v.log = w.log ++ order.filterMap (leftNotice w.server uid) ++
        if w.socket member.ws = .closed then [] else [(member.ws, .peerLeft uid)])
      (sockets : ∀ j, v.socket j = w.socket j)
  | closing (phase : v.phase k = .leaving uid .close) (without : Without w.server v.server uid)
      (notices : ∃ sent, v.log = w.log ++ sent ∧ Announced w.server uid sent)
      (sockets : ∀ j, v.socket j = .closed ↔ w.socket j = .closed ∨ MayClose w.server uid j)
  | finished (phase : v.phase k = .done (some uid)) (without : Without w.server v.server uid)
      (notices : ∃ sent, v.log = w.log ++ sent ∧ Announced w.server uid sent)
      (sockets : ∀ j, v.socket j = .closed ↔
        w.socket j = .closed ∨ MayClose w.server uid j ∨ j = k)

section Stages

variable {w v w' : World} {k : ConnId} {uid : Uid} {t : Turn}

/-- Outside a room nobody is told. -/
theorem announced_nil {srv : WebRTCSimpleServer} (outside : ∀ room, ¬ InRoom srv uid room) :
    Announced srv uid [] :=
  ⟨[], List.nodup_nil, fun _ => iff_of_false List.not_mem_nil fun told =>
    outside _ told.2.choose_spec.1, rfl⟩

/-- The entry of a uid in no room is deleted. -/
theorem Stage.of_plain (gone : SessionGone w.server v.server uid) {peer : Peer}
    (registered : w.server.peers uid = some peer) (outside : ∀ room, ¬ InRoom w.server uid room)
    (log : v.log = w.log)
    (sockets : ∀ j, v.socket j = .closed ↔ w.socket j = .closed ∨ PartnerSocket w.server uid j) :
    Stage w k uid (v.apply k (deletePeer v.server uid peer.ws)) := by
  have turn : deletePeer v.server uid peer.ws =
      .close (v.server.writePeer uid none) peer.ws (.leaving uid .close) := by
    simp only [deletePeer, gone.own, registered]
  rw [turn]
  refine .closing (World.apply_phase_self _ _ _) ?_ ⟨[], ?_, announced_nil outside⟩ fun j => ?_
  · rw [World.apply_server]
    refine gone.without (Function.update_self _ _ _)
      (fun v other => Function.update_of_ne other _ _) rfl (fun room inside => ?_) fun room _ => ?_
    · exact absurd inside (outside room)
    · exact congrFun gone.rooms room
  · rw [World.apply_log, log]
    rfl
  · rw [World.apply_socket, mayClose_iff]
    simp only [Turn.closes, Option.some.injEq]
    split
    · next same => simp [registered, same]
    · next other =>
        rw [sockets]
        simp [registered, other]

theorem InRoom.eq_of_inRoom {srv : WebRTCSimpleServer} {room room' : RoomId}
    (inside : InRoom srv uid room) (inside' : InRoom srv uid room') : room = room' := by
  obtain ⟨peer, registered, isRoom⟩ := inside
  obtain ⟨peer', registered', isRoom'⟩ := inside'
  cases registered.symm.trans registered'
  exact Option.some.inj (isRoom.1.symm.trans isRoom'.1)

/-- One more round of the loop over the rest of the room. -/
theorem Stage.of_round (consistent : Consistent w.server) {peer : Peer} {room : RoomId}
    {set : PySet Uid} {order : List Uid}
    (registered : w.server.peers uid = some peer) (inside : IsRoom peer.status room)
    (found : w.server.rooms room = some set) (nodup : order.Nodup)
    (members : ∀ x ∈ order, x ∈ set.elems ∧ x ≠ uid)
    (log : v.log = w.log ++ order.filterMap (leftNotice w.server uid))
    (sockets : ∀ j, v.socket j = w.socket j)
    (announced : LeftAnnounced (w.server.writeRoom room (set.remove uid)) uid peer.ws room
      (told set uid order) t) :
    Stage w k uid (v.apply k t) ∧
      (t.phase = .leaving uid .close ∨ ∃ x ∈ set.elems, x ∉ order ∧
        t.phase = .leaving uid (.left peer.ws room (told set uid (order ++ [x])))) := by
  have own : InRoom w.server uid room := ⟨peer, registered, inside⟩
  have alone := consistent.unlinked_of_room own
  have listed : ∀ x, x ∈ set.elems ↔ InRoom w.server x room := by
    intro x
    rw [consistent.inRoom_iff, members_of_rooms found]
  have noPartner : ∀ j, ¬ PartnerSocket w.server uid j := by
    rintro j ⟨other, -, -, linked, -⟩
    cases alone.symm.trans linked
  have entries : ∀ x ∈ set.elems, x ≠ uid → ∃ peer, w.server.peers x = some peer := by
    intro x member _
    obtain ⟨entry, found', -⟩ := (listed x).mp member
    exact ⟨entry, found'⟩
  rcases announced.deleted_or_told (by simp [registered]) entries with
    ⟨all, rfl⟩ | ⟨x, member, inRoom, other, untold, entry, rfl⟩
  · refine ⟨.closing (World.apply_phase_self _ _ _) ?_ ⟨_, ?_, order, nodup, fun x => ?_, rfl⟩
      fun j => ?_, Or.inl rfl⟩
    · rw [World.apply_server]
      refine (SessionGone.of_alone alone).without (Function.update_self _ _ _)
        (fun v other => Function.update_of_ne other _ _) rfl (fun room' inside' => ?_)
        fun room' outside => ?_
      · obtain rfl := inside'.eq_of_inRoom own
        rw [Turn.server, members_writePeer, members_writeRoom, Function.update_self,
          PySet.elems_remove, members_of_rooms found]
      · have different : room' ≠ room := by
          rintro rfl
          exact outside own
        exact Function.update_of_ne different _ _
    · rw [World.apply_log, log]
      exact List.append_nil _
    · constructor
      · intro told
        obtain ⟨member, other⟩ := members x told
        exact ⟨other, room, own, (listed x).mp member⟩
      · rintro ⟨other, room', inside', member⟩
        obtain rfl := inside'.eq_of_inRoom own
        exact all x ((listed x).mpr member) other
    · rw [World.apply_socket, mayClose_iff]
      simp only [Turn.closes, Option.some.injEq, noPartner, false_or]
      split
      · next same => simp [registered, same]
      · next notOwn =>
          rw [sockets]
          simp [registered, notOwn]
  · refine ⟨.telling registered inside found (World.apply_phase_self _ _ _)
      (World.apply_server _ _ _) ?_ ?_ entry ?_ ?_ fun j => ?_,
      Or.inr ⟨x, inRoom, untold, rfl⟩⟩
    · rw [List.nodup_append]
      refine ⟨nodup, List.nodup_singleton x, ?_⟩
      rintro y told z last rfl
      rw [List.mem_singleton] at last
      exact untold (last ▸ told)
    · intro y told
      rcases List.mem_append.mp told with before | last
      · exact members y before
      · rw [List.mem_singleton] at last
        exact last ▸ ⟨inRoom, other⟩
    · rw [World.apply_send_usable, sockets]
    · rw [World.apply_log, log, World.delivered, sockets]
    · rw [World.apply_socket]
      simpa [Turn.closes] using sockets j

theorem SessionGone.eq_of_alone {srv srv' : WebRTCSimpleServer} (gone : SessionGone srv srv' uid)
    (alone : srv.sessions uid = none) : srv' = srv := by
  have notLinked : ∀ x, srv.sessions uid ≠ some x := fun x linked => by
    cases alone.symm.trans linked
  have peers : srv'.peers = srv.peers := by
    funext x
    by_cases own : x = uid
    · rw [own, gone.own]
    · exact gone.peers x own (notLinked x)
  have sessions : srv'.sessions = srv.sessions := by
    funext x
    by_cases own : x = uid
    · rw [own, alone]
      exact gone.gone uid (Or.inl rfl)
    · exact gone.sessions x fun may => own (may.resolve_right (notLinked x))
  cases srv
  cases srv'
  cases peers
  cases sessions
  cases gone.rooms
  rfl

/-- `remove_peer` from `if uid in self.peers` on. -/
theorem Stage.of_entry (consistent : Consistent w.server)
    (gone : SessionGone w.server v.server uid) (log : v.log = w.log)
    (sockets : ∀ j, v.socket j = .closed ↔ w.socket j = .closed ∨ PartnerSocket w.server uid j)
    (same : w.server.sessions uid = none → ∀ j, v.socket j = w.socket j)
    (removed : EntryRemoved v.server uid t) : Stage w k uid (v.apply k t) := by
  have listed : ∀ {peer room}, v.server.peers uid = some peer → IsRoom peer.status room →
      uid ∈ v.server.members room := by
    intro peer room registered inside
    rw [members_congr gone.rooms, consistent.rooms]
    exact ⟨peer, gone.own.symm.trans registered, inside⟩
  cases removed with
  | absent unregistered =>
      have absent := gone.own.symm.trans unregistered
      have outside : ∀ room, ¬ InRoom w.server uid room := by
        rintro room ⟨peer, registered, -⟩
        cases absent.symm.trans registered
      refine .finished (World.apply_phase_self _ _ _) ?_ ⟨[], ?_, announced_nil outside⟩ fun j => ?_
      · rw [World.apply_server]
        exact gone.without unregistered (fun _ _ => rfl) rfl
          (fun room inside => absurd inside (outside room)) fun room _ => congrFun gone.rooms room
      · rw [World.apply_log, log]
        rfl
      · rw [World.apply_socket, mayClose_iff]
        simp only [Turn.closes, Option.some.injEq, absent, reduceCtorEq, false_and, exists_false,
          or_false]
        split
        · next same => simp [same]
        · next other =>
            rw [sockets]
            simp [Ne.symm other]
  | @plain peer registered outside =>
      refine .of_plain gone (gone.own.symm.trans registered) ?_ log sockets
      rintro room ⟨peer', registered', inside⟩
      cases registered.symm.trans (gone.own.trans registered')
      exact outside room inside
  | noRoom registered member missing =>
      have inside := listed registered member
      rw [members, missing] at inside
      exact absurd inside (Finset.notMem_empty _)
  | notListed registered member found unlisted =>
      exact absurd (members_of_rooms found ▸ listed registered member) unlisted
  | @leaves peer room set t registered member found inside announced =>
      have registered' := gone.own.symm.trans registered
      have alone := consistent.unlinked_of_room ⟨_, registered', member⟩
      have unchanged := gone.eq_of_alone alone
      rw [unchanged] at found announced
      have nobody : ∀ x ∈ ([] : List Uid), x ∈ set.elems ∧ x ≠ uid := by rintro x ⟨⟩
      have begins : v.log = w.log ++ ([] : List Uid).filterMap (leftNotice w.server uid) := by
        rw [log]
        exact (List.append_nil _).symm
      exact (Stage.of_round consistent registered' member found List.nodup_nil nobody begins
        (same alone) announced).1

/-- A handler in `remove_peer` goes on. -/
theorem step_of_leaving {point : LeavePoint} {pick : Option Uid}
    (phase : v.phase k = .leaving uid point) (fires : v.step (.resume k false pick) = some w') :
    ∃ t, w' = v.apply k t ∧
      match point with
      | .partner => removeEntry v.server uid pick = some t
      | .left ws room it => announceLeft v.server uid ws room it pick = some t
      | .close => t = .stop v.server (some uid) := by
  simp only [World.step, World.turn, phase, canReturn_of_step fires, if_true] at fires
  cases point with
  | partner =>
      obtain ⟨t, turn, applied⟩ := Option.map_eq_some_iff.mp fires
      exact ⟨t, applied.symm, turn⟩
  | left ws room it =>
      obtain ⟨t, turn, applied⟩ := Option.map_eq_some_iff.mp fires
      exact ⟨t, applied.symm, turn⟩
  | close => exact ⟨_, (Option.some.inj fires).symm, rfl⟩

theorem apply_withServer (w : World) (srv : WebRTCSimpleServer) (k : ConnId) (t : Turn) :
    (w.withServer srv).apply k t = w.apply k t := by
  cases t <;> rfl

/-- The notice is on its way once the recipient can be reached. -/
theorem log_told {srv : WebRTCSimpleServer} {order : List Uid} {last : Uid} {member : Peer}
    {before log : List (ConnId × Reply)} (entry : srv.peers last = some member) {shut : Prop}
    [Decidable shut] (opened : ¬ shut)
    (sent : log = before ++ order.filterMap (leftNotice srv uid) ++
      if shut then [] else [(member.ws, .peerLeft uid)]) :
    log = before ++ (order ++ [last]).filterMap (leftNotice srv uid) := by
  rw [sent, if_neg opened, List.filterMap_append, List.append_assoc]
  simp [leftNotice, entry]

theorem Removing.stage (consistent : Consistent w.server) (removing : Removing w k uid v) :
    Stage w k uid v := by
  induction removing with
  | @begins pick t turn =>
      cases removePeer_removed turn with
      | @partner srv' wso cleaned =>
          obtain ⟨gone, sockets⟩ := cleaned.gone consistent
          refine .partner (World.apply_phase_self _ _ _) ?_ ?_ ?_ fun j => ?_
          · obtain ⟨other, -, -, linked, -⟩ := (sockets _).mp rfl
            rw [linked]
            exact Option.some_ne_none other
          · rw [World.apply_server]
            exact gone
          · rw [World.apply_log]
            exact List.append_nil _
          · rw [World.apply_socket, ← show _ ↔ PartnerSocket w.server uid j from sockets j]
            by_cases same : some wso = some j
            · simp [Turn.closes, same]
            · simp [Turn.closes, same]
      | entry cleaned removed =>
          obtain ⟨gone, sockets⟩ := cleaned.gone consistent
          rw [← apply_withServer w _ k t]
          refine .of_entry consistent gone rfl (fun j => ?_) (fun _ _ => rfl) removed
          have nobody : ¬ PartnerSocket w.server uid j := fun partner => by
            cases (sockets j).mpr partner
          simp [nobody]
  | goesOn before fires ih =>
      cases ih with
      | partner phase linked gone log sockets =>
          obtain ⟨t, rfl, turn⟩ := step_of_leaving phase fires
          exact .of_entry consistent gone log sockets (fun alone => absurd alone linked)
            (removeEntry_removed turn)
      | @telling peer room set order last member registered inside found phase server nodup members
          entry usable log sockets =>
          obtain ⟨t, rfl, turn⟩ := step_of_leaving phase fires
          have opened : w.socket member.ws ≠ .closed := by
            have returns := canReturn_of_step fires
            simpa [World.canReturn, phase, Phase.inSend, Phase.inClose, usable] using returns
          have announced := announceLeft_announced turn
          rw [server] at announced
          exact (Stage.of_round consistent registered inside found nodup members
            (log_told entry opened log) sockets announced).1
      | closing phase without notices sockets =>
          obtain ⟨t, rfl, rfl⟩ := step_of_leaving phase fires
          refine .finished (World.apply_phase_self _ _ _) ?_ ?_ fun j => ?_
          · rw [World.apply_server]
            exact without
          · rw [World.apply_log]
            simpa [World.delivered] using notices
          · rw [World.apply_socket]
            simp only [Turn.closes, Option.some.injEq]
            split
            · next same => simp [same]
            · next other =>
                rw [sockets]
                simp [Ne.symm other]
      | finished phase without notices sockets =>
          exact (Serving.stops (by rw [phase]; rfl) fires).elim

theorem Removes.removal (consistent : Consistent w.server) (removes : Removes w k uid w') :
    Removal w k uid w' := by
  obtain ⟨removing, done⟩ := removes
  cases removing.stage consistent with
  | partner phase => cases done.symm.trans phase
  | telling _ _ _ phase => cases done.symm.trans phase
  | closing phase => cases done.symm.trans phase
  | finished phase without notices sockets =>
      exact ⟨without, notices, sockets, consistent.of_without without,
        fun v deleted pick => without.idempotent deleted pick⟩

/-! The call comes to its end. -/

theorem Removing.completes_of_close (removing : Removing w k uid v)
    (phase : v.phase k = .leaving uid .close) : ∃ w', Removes w k uid w' := by
  have fires : v.step (.resume k false none) = some (v.apply k (.stop v.server (some uid))) := by
    simp [World.step, World.turn, World.canReturn, phase, Phase.inClose, Act.conn]
  exact ⟨_, .goesOn removing fires, World.apply_phase_self _ _ _⟩

theorem Removing.completes_of_left (consistent : Consistent w.server)
    (opened : ∀ x room peer, x ≠ uid → InRoom w.server uid room → InRoom w.server x room →
      w.server.peers x = some peer → w.socket peer.ws ≠ .closed)
    {ws : ConnId} {room : RoomId} {it : Iter Uid} {set : PySet Uid}
    (removing : Removing w k uid v) (phase : v.phase k = .leaving uid (.left ws room it))
    (found : w.server.rooms room = some set) : ∃ w', Removes w k uid w' := by
  induction size : (set.elems \ it.seen).card using Nat.strong_induction_on generalizing v it with
  | _ n ih =>
      cases removing.stage consistent with
      | partner phase' => cases phase.symm.trans phase'
      | closing phase' => cases phase.symm.trans phase'
      | finished phase' => cases phase.symm.trans phase'
      | @telling peer _ _ order last member registered inside found' phase' server nodup members
          entry usable log sockets =>
          cases phase.symm.trans phase'
          cases found.symm.trans found'
          have own : InRoom w.server uid room := ⟨peer, registered, inside⟩
          obtain ⟨listed, other⟩ := members last (List.mem_append_right _ (List.mem_singleton_self _))
          have inRoom : InRoom w.server last room := by
            rw [consistent.inRoom_iff, members_of_rooms found]
            exact listed
          have reached := opened last room member other own inRoom entry
          have rest : v.server.rooms room = some (set.remove uid) := by
            rw [server, rooms_writeRoom, Function.update_self]
          obtain ⟨pick, t, turn⟩ := exists_announceLeft rest uid peer.ws
            (told set uid (order ++ [last]))
          have fires : v.step (.resume k false pick) = some (v.apply k t) := by
            simp [World.step, World.turn, World.canReturn, phase', Phase.inSend, usable, reached,
              turn, Act.conn]
          have announced := announceLeft_announced turn
          rw [server] at announced
          have next : Removing w k uid (v.apply k t) := .goesOn removing fires
          have round := Stage.of_round (k := k) consistent registered inside found nodup members
            (log_told entry reached log) sockets announced
          rcases round.2 with closes | ⟨x, inside', untold, told⟩
          · exact next.completes_of_close ((World.apply_phase_self _ _ _).trans closes)
          · refine ih _ ?_ next ((World.apply_phase_self _ _ _).trans told) rfl
            rw [← size]
            refine Finset.card_lt_card (Finset.ssubset_iff_of_subset ?_ |>.mpr ⟨x, ?_, ?_⟩)
            · refine Finset.sdiff_subset_sdiff (Finset.Subset.refl _) fun y seen => ?_
              simp only [Signalling.told, List.mem_toFinset] at seen ⊢
              exact List.mem_append_left _ seen
            · simp only [Signalling.told, Finset.mem_sdiff, List.mem_toFinset]
              exact ⟨inside', untold⟩
            · simp [Signalling.told]

theorem deletePeer_not_partner (srv : WebRTCSimpleServer) (ws : ConnId) :
    (deletePeer srv uid ws).phase ≠ .leaving uid .partner := by
  unfold deletePeer
  split <;> simp [Turn.phase]

theorem EntryRemoved.not_partner {srv : WebRTCSimpleServer} (removed : EntryRemoved srv uid t) :
    t.phase ≠ .leaving uid .partner := by
  cases removed with
  | plain registered outside => exact deletePeer_not_partner srv _
  | notListed registered member found unlisted => exact deletePeer_not_partner srv _
  | leaves registered member found listed announced =>
      cases announced with
      | finished found same all => exact deletePeer_not_partner _ _
      | _ => simp [Turn.phase]
  | _ => simp [Turn.phase]

/-- `remove_peer(uid)` ends when the members of its room can be reached. -/
theorem exists_removes (consistent : Consistent w.server)
    (opened : ∀ x room peer, x ≠ uid → InRoom w.server uid room → InRoom w.server x room →
      w.server.peers x = some peer → w.socket peer.ws ≠ .closed) : ∃ w', Removes w k uid w' := by
  have settled : ∀ {v}, Removing w k uid v → v.phase k ≠ .leaving uid .partner →
      ∃ w', Removes w k uid w' := by
    intro v removing past
    cases removing.stage consistent with
    | partner phase => exact absurd phase past
    | telling _ _ found phase => exact removing.completes_of_left consistent opened phase found
    | closing phase => exact removing.completes_of_close phase
    | finished phase => exact ⟨v, removing, phase⟩
  obtain ⟨pick, t, turn⟩ := exists_removePeer w.server uid
  have begun : Removing w k uid (w.apply k t) := .begins turn
  by_cases past : (w.apply k t).phase k = .leaving uid .partner
  · obtain ⟨pick', t', turn'⟩ := exists_removeEntry (w.apply k t).server uid
    rw [World.apply_server] at turn'
    have fires : (w.apply k t).step (.resume k false pick') =
        some ((w.apply k t).apply k t') := by
      simp [World.step, World.turn, World.canReturn, past, Phase.inClose, turn', Act.conn]
    refine settled (.goesOn begun fires) ?_
    rw [World.apply_phase_self]
    exact (removeEntry_removed turn').not_partner
  · exact settled begun past

end Stages

/--
From tables that agree, `remove_peer(uid)` deletes the entries and the session
of `uid` and its partner, closes the two connections, takes `uid` out of its
room, tells the rest of that room, and touches nothing else; the tables agree
again, and a second call finds nothing to do.
-/
theorem remove_peer_exact {w : World} {k : ConnId} {uid : Uid} (consistent : Consistent w.server) :
    (∀ w', Removes w k uid w' → Removal w k uid w') ∧
    ((∀ v room peer, v ≠ uid → InRoom w.server uid room → InRoom w.server v room →
        w.server.peers v = some peer → w.socket peer.ws ≠ .closed) →
      ∃ w', Removes w k uid w') :=
  ⟨fun _ removes => removes.removal consistent, exists_removes consistent⟩

/-- The first of two members leaves the room. -/
theorem remove_peer_exact_pair :
    ∃ w w', InRoom w.server "x".toList "r".toList ∧ InRoom w.server "y".toList "r".toList ∧
      Removes w 0 "x".toList w' ∧ Removal w 0 "x".toList w' := by
  obtain ⟨w, run, absent, test⟩ := exists_sequential 2
    (fun w act => calleeFree w act && calleeOutside w act)
    (greeting 0 "x" ++ greeting 1 "y" ++
      [.recv 0 "ROOM r".toList [] none, .resume 0 false none,
        .recv 1 "ROOM r".toList ["x".toList] none, .resume 1 false (some "x".toList),
        .resume 1 false none])
    (fun w => quietBelow 2 w && w.server.peers "x".toList = some ⟨0, some "r".toList⟩ &&
      w.server.peers "y".toList = some ⟨1, some "r".toList⟩)
    (by decide)
  simp only [Bool.and_eq_true, decide_eq_true_eq] at run test
  have rooms : RoomInv w := .of_reachable (run.mono fun _ _ allowed => ⟨allowed.1, allowed.2.2⟩)
  have sessions : SessionInv w :=
    .of_reachable (run.mono fun _ _ allowed => ⟨allowed.1, allowed.2.1⟩)
  have consistent := consistent_of_quiet sessions rooms (absent.quiet test.1.1)
  obtain ⟨exactly, completes⟩ := @remove_peer_exact w 0 "x".toList consistent
  obtain ⟨w', removes⟩ := completes fun v _ peer _ _ _ found => (rooms.owner v peer found).2
  have named : ∀ ws, IsRoom (Peer.mk ws (some "r".toList)).status "r".toList :=
    fun _ => ⟨rfl, by decide, by decide⟩
  exact ⟨w, w', ⟨_, test.1.2, named 0⟩, ⟨_, test.2, named 1⟩, removes, exactly w' removes⟩

end GstWebrtc.Signalling
