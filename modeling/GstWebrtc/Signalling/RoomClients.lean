import GstWebrtc.Base.Roster
import GstWebrtc.Signalling.Cleanup

/-!
# Clients that use rooms only

Runs without `SESSION` commands, in which sends return and a uid is registered
only while no other handler works for it.  A member of a room is then
registered by the running handler that entered it, and one inversion says all
that a turn can do to the rooms.
-/

namespace GstWebrtc.Signalling

open GstWebrtc.Base GstWebrtc.Base.PyText WebRTCSimpleServer

namespace Phase

/-- The handler is suspended in a `send`, and not in a ping. -/
def sends : Phase → Bool
  | ack _ => true
  | running _ _ .recv | running _ _ .ping => false
  | running _ _ _ => true
  | leaving _ (.left _ _ _) => true
  | _ => false

/-- The uid that the handler works for or is about to register. -/
def uid? : Phase → Option Uid
  | ack uid | running uid _ _ | leaving uid _ => some uid
  | _ => none

/-- The handler takes messages, or will. -/
def Talks (phase : Phase) : Prop :=
  phase = .hello ∨ (∃ u, phase = .ack u) ∨ ∃ u roomId point, phase = .running u roomId point

/-- The handler is suspended in an announcement to a room. -/
def announces : Phase → Bool
  | running _ _ (.joined _ _) | leaving _ (.left _ _ _) => true
  | _ => false

end Phase

/-- No `SESSION` command is sent and no send fails. -/
def roomsOnly (w : World) : Act → Bool
  | .recv _ msg _ _ => !startsWith msg "SESSION".toList
  | .resume k true _ => !(w.phase k).sends
  | _ => true

/-- The runs of clients that use rooms only. -/
def RoomClients (w : World) (act : Act) : Prop :=
  RegistersAlone w act ∧ roomsOnly w act = true

/-! ## What members are told -/

/-- What a reply says about the membership of the recipient's room. -/
def Reply.notice : Reply → Option (Notice Uid)
  | roomOk _ peers => some (.roster peers)
  | peerJoined uid => some (.joined uid)
  | peerLeft uid => some (.left uid)
  | _ => none

/-- The notice that a turn sends. -/
def Turn.notice : Turn → Option (Notice Uid)
  | send _ _ reply _ => reply.notice
  | _ => none

/-! ## The state between two turns -/

namespace LoopPoint

/-- The loop is at its `recv` or in an await after which it goes back there. -/
def plain : LoopPoint → Bool
  | recv | ping | sent => true
  | _ => false

end LoopPoint

/-- What a suspended loop relies on, with the status of its uid. -/
def LoopPoint.Standing (srv : WebRTCSimpleServer) (u : Uid) (status : Option Text) :
    LoopPoint → Prop
  | sessionOk _ => False
  | roomOk room => status = none ∧ room ≠ [] ∧ room ≠ inSession ∧ ∃ set, srv.rooms room = some set
  | joined room it =>
      ∃ set, srv.rooms room = some set ∧ u ∈ srv.members room ∧ it.stamp ≤ set.changes
  | _ => True

/-- What the handler of connection `k` relies on when it goes on. -/
def Phase.Standing (srv : WebRTCSimpleServer) (k : ConnId) : Phase → Prop
  | running u _ point =>
      ∃ status, srv.peers u = some ⟨k, status⟩ ∧
        (∀ room, status = some room → u ∈ srv.members room) ∧ point.Standing srv u status
  | leaving _ .partner => False
  | leaving u (.left _ room it) =>
      (∃ peer, srv.peers u = some peer) ∧ ∃ set, srv.rooms room = some set ∧
        it.stamp ≤ set.changes ∧ (it.Current set → it.seen ⊆ set.elems)
  | _ => True

structure RoomInvariant (w : World) : Prop where
  handlers : OneHandler w
  alone : ∀ u, w.server.sessions u = none
  member : ∀ room u, u ∈ w.server.members room → room ≠ [] ∧ room ≠ inSession ∧
    ∃ k roomId point, w.server.peers u = some ⟨k, some room⟩ ∧
      w.phase k = .running u roomId point
  standing : ∀ k, (w.phase k).Standing w.server k
  usable : ∀ k, (w.phase k).Talks → w.socket k ≠ .closed

/-! ## What a turn can do -/

/-- One round of the loop that announces a joiner. -/
inductive JoinRound (srv : WebRTCSimpleServer) (u : Uid) (roomId : Option RoomId) (room : RoomId)
    (set : PySet Uid) (it : Iter Uid) : Turn → Prop where
  | done (same : set.elems.card = it.used) (all : set.changes = it.stamp → set.elems ⊆ it.seen) :
      JoinRound srv u roomId room set it (.recv srv (.running u roomId .recv))
  | tell {pid peer} (same : set.elems.card = it.used) (member : pid ∈ set.elems)
      (other : pid ≠ u) (fresh : set.changes = it.stamp → pid ∉ it.seen)
      (registered : srv.peers pid = some peer) :
      JoinRound srv u roomId room set it (.send srv peer.ws (.peerJoined u)
        (.running u roomId (.joined room { it with seen := insert pid it.seen })))

/-- One round of the loop that announces a leaver. -/
inductive LeftRound (srv : WebRTCSimpleServer) (u : Uid) (ws : ConnId) (room : RoomId)
    (set : PySet Uid) (it : Iter Uid) : Turn → Prop where
  | done (same : set.elems.card = it.used) (all : set.changes = it.stamp → set.elems ⊆ it.seen) :
      LeftRound srv u ws room set it (.close (srv.writePeer u none) ws (.leaving u .close))
  | tell {pid peer} (same : set.elems.card = it.used) (member : pid ∈ set.elems)
      (fresh : set.changes = it.stamp → pid ∉ it.seen) (registered : srv.peers pid = some peer) :
      LeftRound srv u ws room set it (.send srv peer.ws (.peerLeft u)
        (.leaving u (.left ws room { it with seen := insert pid it.seen })))
  | broken (changed : set.elems.card ≠ it.used) :
      LeftRound srv u ws room set it (.stop srv (some u))

/-- All that a turn can do when clients use rooms only, with the uid it is about if any. -/
inductive RoomStep (w : World) : Act → Option Uid → Turn → Prop where
  /-- The tables stay as they are, and what is sent is no notice about a room. -/
  | still {act t} (server : t.server = w.server) (silent : t.notice = none)
      (before : (w.phase act.conn).announces = false)
      (after : (t.phase.past? = none ∧
          ∀ u roomId point, w.phase act.conn ≠ .running u roomId point) ∨
        ∃ u roomId roomId' point point', w.phase act.conn = .running u roomId point ∧
          t.phase = .running u roomId' point' ∧ point'.plain = true) :
      RoomStep w act none t
  | registers {k pick u} (waiting : w.phase k = .ack u) :
      RoomStep w (.resume k false pick) (some u)
        (.recv (w.server.register k u) (.running u none .recv))
  | lists {k msg order pick u roomId room srv} (waiting : w.phase k = .running u roomId .recv)
      (idle : w.server.peers u = some ⟨k, none⟩) (nonempty : room ≠ [])
      (notSession : room ≠ inSession)
      (created : (srv = w.server ∧ ∃ set, w.server.rooms room = some set) ∨
        (srv = w.server.writeRoom room .empty ∧ w.server.rooms room = none))
      (nodup : order.Nodup) (lists : order.toFinset = w.server.members room) :
      RoomStep w (.recv k msg order pick) (some u)
        (.send srv k (.roomOk room order) (.running u (some room) (.roomOk room)))
  | enters {k pick u roomId room set t} (waiting : w.phase k = .running u roomId (.roomOk room))
      (idle : w.server.peers u = some ⟨k, none⟩) (nonempty : room ≠ [])
      (notSession : room ≠ inSession) (found : w.server.rooms room = some set)
      (round : JoinRound
        ((w.server.writePeer u (some ⟨k, some room⟩)).writeRoom room (set.add u))
        u roomId room (set.add u) ((set.add u).iter {u}) t) :
      RoomStep w (.resume k false pick) (some u) t
  | joins {k pick u roomId room it set t} (waiting : w.phase k = .running u roomId (.joined room it))
      (found : w.server.rooms room = some set)
      (round : JoinRound w.server u roomId room set it t) :
      RoomStep w (.resume k false pick) (some u) t
  | quits {act u roomId point} (waiting : w.phase act.conn = .running u roomId point)
      (idle : w.server.peers u = some ⟨act.conn, none⟩) :
      RoomStep w act (some u)
        (.close (w.server.writePeer u none) act.conn (.leaving u .close))
  | leaves {act u roomId point room set t} (waiting : w.phase act.conn = .running u roomId point)
      (member : w.server.peers u = some ⟨act.conn, some room⟩)
      (found : w.server.rooms room = some set) (listed : u ∈ set.elems)
      (round : LeftRound (w.server.writeRoom room (set.remove u)) u act.conn room (set.remove u)
        ((set.remove u).iter ∅) t) :
      RoomStep w act (some u) t
  | tells {k pick u room it set t} (waiting : w.phase k = .leaving u (.left k room it))
      (found : w.server.rooms room = some set)
      (round : LeftRound w.server u k room set it t) :
      RoomStep w (.resume k false pick) (some u) t

namespace RoomInvariant

variable {w w' : World} {act : Act} {t : Turn} {u : Uid} {k : ConnId} {room : RoomId}

theorem registered (inv : RoomInvariant w) (inside : u ∈ w.server.members room) :
    ∃ peer, w.server.peers u = some peer := by
  obtain ⟨-, -, k, roomId, point, found, -⟩ := inv.member room u inside
  exact ⟨_, found⟩

/-- A member acts through the connection that it is registered with. -/
theorem member_running (inv : RoomInvariant w) (inside : u ∈ w.server.members room)
    (past : (w.phase k).past? = some u) :
    w.server.peers u = some ⟨k, some room⟩ ∧ ∃ roomId point, w.phase k = .running u roomId point := by
  obtain ⟨-, -, j, roomId, point, found, running⟩ := inv.member room u inside
  have same : j = k := inv.handlers.unique j k u (congrArg Phase.past? running) past
  subst same
  exact ⟨found, roomId, point, running⟩

/-- A running handler is registered, and is idle or in the room of its status. -/
theorem status_cases (inv : RoomInvariant w) {roomId : Option RoomId} {point : LoopPoint}
    (running : w.phase k = .running u roomId point) :
    w.server.peers u = some ⟨k, none⟩ ∨
    ∃ room, w.server.peers u = some ⟨k, some room⟩ ∧ u ∈ w.server.members room ∧
      room ≠ [] ∧ room ≠ inSession := by
  have standing := inv.standing k
  rw [running] at standing
  obtain ⟨status, found, inside, -⟩ := standing
  cases status with
  | none => exact Or.inl found
  | some room =>
      obtain ⟨nonempty, notSession, -⟩ := inv.member room u (inside room rfl)
      exact Or.inr ⟨room, found, inside room rfl, nonempty, notSession⟩

/-- A handler that waits for its `ROOM_OK` is idle, and the room is there. -/
theorem roomOk_standing (inv : RoomInvariant w) {roomId : Option RoomId}
    (waiting : w.phase k = .running u roomId (.roomOk room)) :
    w.server.peers u = some ⟨k, none⟩ ∧ room ≠ [] ∧ room ≠ inSession ∧
      ∃ set, w.server.rooms room = some set := by
  have standing := inv.standing k
  rw [waiting] at standing
  obtain ⟨status, found, -, rfl, rest⟩ := standing
  exact ⟨found, rest⟩

/-- The handler that announces a joiner relies on the room of its status. -/
theorem joined_standing (inv : RoomInvariant w) {roomId : Option RoomId} {it : Iter Uid}
    (waiting : w.phase k = .running u roomId (.joined room it)) :
    ∃ set, w.server.rooms room = some set ∧ u ∈ w.server.members room ∧
      it.stamp ≤ set.changes := by
  have standing := inv.standing k
  rw [waiting] at standing
  obtain ⟨status, -, -, rest⟩ := standing
  exact rest

/-- Who is announced as a joiner is a member. -/
theorem member_of_joined (inv : RoomInvariant w) {roomId : Option RoomId} {it : Iter Uid}
    (waiting : w.phase k = .running u roomId (.joined room it)) : u ∈ w.server.members room := by
  obtain ⟨set, -, member, -⟩ := inv.joined_standing waiting
  exact member

theorem outside_of_idle (inv : RoomInvariant w) (idle : w.server.peers u = some ⟨k, none⟩)
    (room : RoomId) : u ∉ w.server.members room := by
  intro inside
  obtain ⟨-, -, j, roomId, point, found, -⟩ := inv.member room u inside
  cases idle.symm.trans found

end RoomInvariant

section Rounds

variable {srv srv' : WebRTCSimpleServer} {u : Uid} {roomId roomId' : Option RoomId} {room : RoomId}
  {set : PySet Uid} {it : Iter Uid} {t : Turn}

theorem JoinAnnounced.recv_round (found : srv.rooms room = some set)
    (h : JoinAnnounced srv u roomId room it (.recv srv' roomId')) :
    JoinRound srv u roomId room set it (.recv srv' (.running u roomId' .recv)) := by
  cases h with
  | finished found' same all =>
      cases found.symm.trans found'
      exact .done same all

theorem JoinAnnounced.send_round {target : ConnId} {reply : Reply} {next : LoopPoint}
    (found : srv.rooms room = some set)
    (h : JoinAnnounced srv u roomId room it (.send srv' roomId' target reply next)) :
    JoinRound srv u roomId room set it (.send srv' target reply (.running u roomId' next)) := by
  cases h with
  | notice found' same member other fresh registered =>
      cases found.symm.trans found'
      exact .tell same member other fresh registered

theorem LeftAnnounced.round {ws : ConnId} (found : srv.rooms room = some set)
    (own : ∃ peer, srv.peers u = some peer)
    (registered : ∀ pid ∈ set.elems, ∃ peer, srv.peers pid = some peer)
    (h : LeftAnnounced srv u ws room it t) : LeftRound srv u ws room set it t := by
  cases h with
  | changedSize found' changed =>
      cases found.symm.trans found'
      exact .broken changed
  | finished found' same all =>
      cases found.symm.trans found'
      obtain ⟨peer, entry⟩ := own
      simp only [deletePeer, entry]
      exact .done same all
  | missing found' member absent =>
      cases found.symm.trans found'
      obtain ⟨peer, entry⟩ := registered _ member
      exact absurd (absent.symm.trans entry) (by simp)
  | notice found' same member fresh recipient =>
      cases found.symm.trans found'
      exact .tell same member fresh recipient

end Rounds

namespace RoomInvariant

variable {w w' : World} {act : Act} {t : Turn} {u : Uid} {k : ConnId} {room : RoomId}

/-- What `remove_peer` does when it is called by a running handler. -/
theorem removed (inv : RoomInvariant w) {roomId : Option RoomId} {point : LoopPoint}
    (running : w.phase act.conn = .running u roomId point) (h : Removed w.server u t) :
    RoomStep w act (some u) t := by
  have alone := inv.alone u
  cases h with
  | partner cleaned =>
      cases cleaned with
      | partner linked different linkedBack registered => cases alone.symm.trans linked
  | @entry srv t cleaned entry =>
      have same : srv = w.server := by
        cases cleaned with
        | unlinked alone => rfl
        | oneSided linked noBack => cases alone.symm.trans linked
        | partnerGone linked different linkedBack absent => cases alone.symm.trans linked
      subst same
      rcases inv.status_cases running with idle | ⟨room, member, inside, nonempty, notSession⟩
      · cases entry with
        | absent unregistered => cases unregistered.symm.trans idle
        | plain registered outside =>
            cases registered.symm.trans idle
            simp only [deletePeer, idle]
            exact .quits running idle
        | noRoom registered isRoom missing =>
            cases registered.symm.trans idle
            cases isRoom.1
        | notListed registered isRoom found unlisted =>
            cases registered.symm.trans idle
            cases isRoom.1
        | leaves registered isRoom found listed announced =>
            cases registered.symm.trans idle
            cases isRoom.1
      · have hasRoom : IsRoom (some room) room := ⟨rfl, nonempty, notSession⟩
        cases entry with
        | absent unregistered => cases unregistered.symm.trans member
        | plain registered outside =>
            cases registered.symm.trans member
            exact absurd hasRoom (outside room)
        | noRoom registered isRoom missing =>
            cases registered.symm.trans member
            cases isRoom.1
            simp [members, missing] at inside
        | notListed registered isRoom found unlisted =>
            cases registered.symm.trans member
            cases isRoom.1
            rw [members_of_rooms found] at inside
            exact absurd inside unlisted
        | @leaves peer room' set t registered isRoom found listed announced =>
            cases registered.symm.trans member
            cases isRoom.1
            refine .leaves running member found listed
              (announced.round (by simp) ⟨_, registered⟩ ?_)
            intro pid remains
            have before := Finset.mem_of_mem_erase remains
            rw [← members_of_rooms found] at before
            exact inv.registered before

theorem raise_server (inv : RoomInvariant w) {roomId : Option RoomId} {srv : WebRTCSimpleServer}
    {exn : Exn} (runs : Runs w u roomId act (.raise srv exn)) : srv = w.server := by
  refine runs.raise_server ?_ fun room pid inside => inv.registered inside
  intro room waiting
  exact (inv.roomOk_standing waiting).2.2.2

/-- A turn outside the loop that leaves the tables as they are. -/
theorem still_outside {phase : Phase} (waiting : w.phase act.conn = phase)
    (quiet : phase.announces = false)
    (apart : ∀ u roomId point, phase ≠ .running u roomId point) (server : t.server = w.server)
    (silent : t.notice = none) (past : t.phase.past? = none) : RoomStep w act none t := by
  subst waiting
  exact .still server silent quiet (Or.inl ⟨past, apart⟩)

/-- A turn of the loop that leaves the tables as they are. -/
theorem still_running {roomId roomId' : Option RoomId} {point point' : LoopPoint}
    (waiting : w.phase act.conn = .running u roomId point)
    (quiet : (Phase.running u roomId point).announces = false) (server : t.server = w.server)
    (silent : t.notice = none) (next : t.phase = .running u roomId' point')
    (plain : point'.plain = true) : RoomStep w act none t := by
  refine .still server silent ?_ (Or.inr ⟨_, _, _, _, _, waiting, next, plain⟩)
  rw [waiting]
  exact quiet

/-- What a handled text sends. -/
theorem roomStep_message (inv : RoomInvariant w) {msg : Text} {order : List Uid}
    {pick : Option Uid} {roomId roomId' : Option RoomId} {srv : WebRTCSimpleServer}
    {target : ConnId} {reply : Reply} {next : LoopPoint}
    (allowed : roomsOnly w (.recv k msg order pick) = true)
    (waiting : w.phase k = .running u roomId .recv)
    (handled : Handled w.server k u roomId order msg (.send srv roomId' target reply next)) :
    ∃ own, RoomStep w (.recv k msg order pick) own
      (.send srv target reply (.running u roomId' next)) := by
  have still {target : ConnId} {reply : Reply} {roomId' : Option RoomId}
      (silent : reply.notice = none) : RoomStep w (.recv k msg order pick) none
        (.send w.server target reply (.running u roomId' .sent)) :=
    still_running waiting rfl rfl silent rfl rfl
  have idle {peer : Peer} (registered : w.server.peers u = some peer) (free : peer.status = none) :
      w.server.peers u = some ⟨k, none⟩ := by
    rcases inv.status_cases waiting with found | ⟨room, member, -⟩
    · exact found
    · cases registered.symm.trans member
      cases free
  have noCall : ¬ "SESSION".toList <+: msg := by
    intro command
    rw [roomsOnly, startsWith_iff.mpr command] at allowed
    cases allowed
  cases handled with
  | relay registered busy linked found partnerBusy => cases (inv.alone u).symm.trans linked
  | calleeAbsent registered idle command fields absent => exact absurd command noCall
  | sessionOk registered idle command fields found => exact absurd command noCall
  | newRoom registered free command fields valid notSession absent lists =>
      refine ⟨_, .lists waiting (idle registered free) valid.ne_nil notSession
        (Or.inr ⟨rfl, absent⟩) lists.1 ?_⟩
      rw [lists.2]
      simp [members, absent]
  | oldRoom registered free command fields valid notSession found fresh lists =>
      refine ⟨_, .lists waiting (idle registered free) valid.ne_nil notSession
        (Or.inl ⟨rfl, _, found⟩) lists.1 ?_⟩
      rw [lists.2, members_of_rooms found]
  | _ => exact ⟨none, still rfl⟩

theorem roomStep (inv : RoomInvariant w) (allowed : roomsOnly w act = true)
    (fires : Fires w act t) : ∃ own, RoomStep w act own t := by
  cases fires with
  | greeted waiting fields absent word =>
      exact ⟨none, still_outside waiting rfl nofun rfl rfl rfl⟩
  | refused waiting => exact ⟨none, still_outside waiting rfl nofun rfl rfl rfl⟩
  | helloFailed waiting => exact ⟨none, still_outside waiting rfl nofun rfl rfl rfl⟩
  | helloClosed unusable waiting => exact ⟨none, still_outside waiting rfl nofun rfl rfl rfl⟩
  | rejected waiting => exact ⟨none, still_outside waiting rfl nofun rfl rfl rfl⟩
  | ackFailed mayRaise waiting => simp [roomsOnly, waiting, Phase.sends] at allowed
  | registered mayReturn waiting => exact ⟨_, .registers waiting⟩
  | timeout waiting => exact ⟨none, still_running waiting rfl rfl rfl rfl rfl⟩
  | @loops act u roomId srv roomId' runs =>
      cases runs with
      | message waiting handled =>
          cases handled
          exact ⟨none, still_running waiting rfl rfl rfl rfl rfl⟩
      | continued mayReturn waiting plain =>
          rcases plain with rfl | rfl
          · exact ⟨none, still_running waiting rfl rfl rfl rfl rfl⟩
          · exact ⟨none, still_running waiting rfl rfl rfl rfl rfl⟩
      | @session k pick callee srv mayReturn waiting linked =>
          have standing := inv.standing k
          rw [waiting] at standing
          obtain ⟨status, -, -, impossible⟩ := standing
          exact impossible.elim
      | room mayReturn waiting entered =>
          obtain ⟨idle, nonempty, notSession, -⟩ := inv.roomOk_standing waiting
          cases entered with
          | entered registered found announced =>
              cases registered.symm.trans idle
              exact ⟨_, .enters waiting idle nonempty notSession found
                (announced.recv_round (by simp))⟩
      | joined mayReturn waiting announced =>
          obtain ⟨set, found, -⟩ := inv.joined_standing waiting
          exact ⟨_, .joins waiting found (announced.recv_round found)⟩
  | @sends act u roomId srv roomId' target reply next runs =>
      cases runs with
      | message waiting handled => exact inv.roomStep_message allowed waiting handled
      | room mayReturn waiting entered =>
          obtain ⟨idle, nonempty, notSession, -⟩ := inv.roomOk_standing waiting
          cases entered with
          | entered registered found announced =>
              cases registered.symm.trans idle
              exact ⟨_, .enters waiting idle nonempty notSession found
                (announced.send_round (by simp))⟩
      | joined mayReturn waiting announced =>
          obtain ⟨set, found, -⟩ := inv.joined_standing waiting
          exact ⟨_, .joins waiting found (announced.send_round found)⟩
  | leaves runs removed =>
      obtain ⟨point, waiting⟩ := runs.running
      rw [inv.raise_server runs] at removed
      exact ⟨_, inv.removed waiting removed⟩
  | @partnerClosed k pick u t mayReturn waiting removed =>
      have standing := inv.standing k
      rw [waiting] at standing
      exact standing.elim
  | @leftSent k pick u ws room it t mayReturn waiting announced =>
      have standing := inv.standing k
      rw [waiting] at standing
      obtain ⟨own, set, found, -⟩ := standing
      have self := inv.handlers.leftWs k u ws room it waiting
      subst self
      refine ⟨_, .tells waiting found (announced.round found own ?_)⟩
      intro pid inside
      rw [← members_of_rooms found] at inside
      exact inv.registered inside
  | @leaveRaised k pick u point mayRaise waiting =>
      cases point with
      | partner =>
          have standing := inv.standing k
          rw [waiting] at standing
          exact standing.elim
      | left ws room it => simp [roomsOnly, waiting, Phase.sends] at allowed
      | close => exact ⟨none, still_outside waiting rfl nofun rfl rfl rfl⟩
  | finished waiting => exact ⟨none, still_outside waiting rfl nofun rfl rfl rfl⟩

end RoomInvariant

/-! ## What a turn leaves alone -/

/-- The changes that a turn on behalf of `own` can make to the tables. -/
structure Touches (own : Option Uid) (srv srv' : WebRTCSimpleServer) : Prop where
  peers : ∀ v, own ≠ some v → srv'.peers v = srv.peers v
  members : ∀ room v, own ≠ some v → (v ∈ srv'.members room ↔ v ∈ srv.members room)
  rooms : ∀ room set, srv.rooms room = some set →
    ∃ set', srv'.rooms room = some set' ∧ (set' = set ∨ set.changes < set'.changes)
  sessions : srv'.sessions = srv.sessions

namespace Touches

variable {own : Option Uid} {srv srv' srv'' : WebRTCSimpleServer} {u : Uid} {room : RoomId}
  {set : PySet Uid}

theorem refl (own : Option Uid) (srv : WebRTCSimpleServer) : Touches own srv srv :=
  ⟨fun _ _ => rfl, fun _ _ _ => Iff.rfl, fun _ set found => ⟨set, found, Or.inl rfl⟩, rfl⟩

theorem trans (first : Touches own srv srv') (second : Touches own srv' srv'') :
    Touches own srv srv'' where
  peers v other := (second.peers v other).trans (first.peers v other)
  members room v other := (second.members room v other).trans (first.members room v other)
  rooms room set found := by
    obtain ⟨set', found', before⟩ := first.rooms room set found
    obtain ⟨set'', found'', after⟩ := second.rooms room set' found'
    refine ⟨set'', found'', ?_⟩
    rcases after with rfl | later
    · exact before
    · rcases before with rfl | earlier
      · exact Or.inr later
      · exact Or.inr (earlier.trans later)
  sessions := second.sessions.trans first.sessions

theorem writePeer (srv : WebRTCSimpleServer) (u : Uid) (entry : Option Peer) :
    Touches (some u) srv (srv.writePeer u entry) where
  peers v other := by
    have different : v ≠ u := fun same => other (congrArg some same.symm)
    simp [different]
  members room v other := by rw [members_writePeer]
  rooms room set found := ⟨set, found, Or.inl rfl⟩
  sessions := rfl

theorem newRoom (own : Option Uid) (missing : srv.rooms room = none) :
    Touches own srv (srv.writeRoom room .empty) where
  peers v other := rfl
  members r v other := by
    rw [members_writeRoom]
    by_cases same : r = room
    · subst same
      simp [WebRTCSimpleServer.members, missing]
    · rw [Function.update_of_ne same]
  rooms r set found := by
    have other : r ≠ room := by
      rintro rfl
      cases missing.symm.trans found
    exact ⟨set, by simpa [other] using found, Or.inl rfl⟩
  sessions := rfl

theorem writeRoom (found : srv.rooms room = some set) {set' : PySet Uid}
    (later : set' = set ∨ set.changes < set'.changes)
    (same : ∀ v, v ≠ u → (v ∈ set'.elems ↔ v ∈ set.elems)) :
    Touches (some u) srv (srv.writeRoom room set') where
  peers v other := rfl
  members r v other := by
    rw [members_writeRoom]
    by_cases here : r = room
    · subst here
      rw [Function.update_self, members_of_rooms found]
      exact same v fun self => other (congrArg some self.symm)
    · rw [Function.update_of_ne here]
  rooms r old found' := by
    by_cases here : r = room
    · subst here
      cases found.symm.trans found'
      exact ⟨set', by simp, later⟩
    · exact ⟨old, by simpa [here] using found', Or.inl rfl⟩
  sessions := rfl

theorem add (found : srv.rooms room = some set) :
    Touches (some u) srv (srv.writeRoom room (set.add u)) := by
  refine writeRoom found ?_ ?_
  · unfold PySet.add
    split
    · exact Or.inl rfl
    · exact Or.inr (Nat.lt_succ_self _)
  · intro v other
    simp [other]

theorem remove (found : srv.rooms room = some set) :
    Touches (some u) srv (srv.writeRoom room (set.remove u)) := by
  refine writeRoom found (Or.inr (Nat.lt_succ_self _)) ?_
  intro v other
  simp [other]

end Touches

/-- An iterator over a set that was changed since is not current any more. -/
theorem not_current_of_changed {it : Iter Uid} {set set' : PySet Uid}
    (before : it.stamp ≤ set.changes) (changed : set.changes < set'.changes) :
    ¬ it.Current set' := by
  rintro ⟨-, stamp⟩
  exact absurd (before.trans_lt changed) (by simp [stamp])

/-- A handler stands as before after a turn of another one. -/
theorem Phase.Standing.touched {own : Option Uid} {srv srv' : WebRTCSimpleServer} {k : ConnId}
    {phase : Phase} (h : phase.Standing srv k) (touches : Touches own srv srv')
    (other : ∀ u, phase.past? = some u → own ≠ some u) : phase.Standing srv' k := by
  cases phase with
  | running u roomId point =>
      obtain ⟨status, found, inside, standing⟩ := h
      have apart := other u rfl
      refine ⟨status, (touches.peers u apart).trans found, ?_, ?_⟩
      · intro room isRoom
        exact (touches.members room u apart).mpr (inside room isRoom)
      · cases point with
        | sessionOk callee => exact standing
        | roomOk room =>
            obtain ⟨idle, nonempty, notSession, set, exists'⟩ := standing
            obtain ⟨set', still, -⟩ := touches.rooms room set exists'
            exact ⟨idle, nonempty, notSession, set', still⟩
        | joined room it =>
            obtain ⟨set, exists', member, stamp⟩ := standing
            obtain ⟨set', still, same | later⟩ := touches.rooms room set exists'
            · subst same
              exact ⟨set', still, (touches.members room u apart).mpr member, stamp⟩
            · exact ⟨set', still, (touches.members room u apart).mpr member,
                stamp.trans later.le⟩
        | _ => trivial
  | leaving u point =>
      cases point with
      | left ws room it =>
          obtain ⟨⟨peer, found⟩, set, exists', stamp, seen⟩ := h
          refine ⟨⟨peer, (touches.peers u (other u rfl)).trans found⟩, ?_⟩
          obtain ⟨set', still, same | later⟩ := touches.rooms room set exists'
          · subst same
            exact ⟨set', still, stamp, seen⟩
          · exact ⟨set', still, stamp.trans later.le, fun current =>
              absurd current (not_current_of_changed stamp later)⟩
      | _ => exact h
  | _ => trivial

/-! ## One step -/

/-- What a turn of handler `k` on behalf of `own` leaves behind. -/
structure RoomTurn (w : World) (k : ConnId) (own : Option Uid) (t : Turn) : Prop where
  touches : Touches own w.server t.server
  apart : ∀ j u, j ≠ k → (w.phase j).past? = some u → own ≠ some u
  standing : t.phase.Standing t.server k
  member : ∀ room u, own = some u → u ∈ t.server.members room → room ≠ [] ∧ room ≠ inSession ∧
    t.server.peers u = some ⟨k, some room⟩ ∧ ∃ roomId point, t.phase = .running u roomId point
  keeps : ∀ u roomId point, w.phase k = .running u roomId point → own = some u ∨
    ∃ roomId' point', t.phase = .running u roomId' point'

section Rounds

variable {srv : WebRTCSimpleServer} {u : Uid} {roomId : Option RoomId} {room : RoomId}
  {set : PySet Uid} {it : Iter Uid} {t : Turn} {k : ConnId}

theorem JoinRound.server (h : JoinRound srv u roomId room set it t) : t.server = srv := by
  cases h <;> rfl

theorem JoinRound.running (h : JoinRound srv u roomId room set it t) :
    ∃ point, t.phase = .running u roomId point := by
  cases h <;> exact ⟨_, rfl⟩

theorem JoinRound.standing (h : JoinRound srv u roomId room set it t)
    (found : srv.rooms room = some set) (registered : srv.peers u = some ⟨k, some room⟩)
    (inside : u ∈ srv.members room) (stamp : it.stamp ≤ set.changes) :
    t.phase.Standing t.server k := by
  have member : ∀ r, some room = some r → u ∈ srv.members r := by
    rintro r ⟨⟩
    exact inside
  cases h with
  | done same all => exact ⟨_, registered, member, trivial⟩
  | tell same mem other fresh recipient =>
      exact ⟨_, registered, member, set, found, inside, stamp⟩

theorem LeftRound.touches (h : LeftRound srv u k room set it t) :
    Touches (some u) srv t.server := by
  cases h with
  | done same all => exact .writePeer srv u none
  | tell same mem fresh recipient => exact .refl _ _
  | broken changed => exact .refl _ _

theorem LeftRound.members (h : LeftRound srv u k room set it t) :
    t.server.members = srv.members := by
  cases h with
  | done same all => exact members_writePeer srv u none
  | tell same mem fresh recipient => rfl
  | broken changed => rfl

theorem LeftRound.standing (h : LeftRound srv u k room set it t)
    (found : srv.rooms room = some set) (registered : ∃ peer, srv.peers u = some peer)
    (stamp : it.stamp ≤ set.changes) (seen : it.Current set → it.seen ⊆ set.elems) :
    t.phase.Standing t.server k := by
  cases h with
  | done same all => trivial
  | tell same mem fresh recipient =>
      exact ⟨registered, set, found, stamp, fun current =>
        Finset.insert_subset mem (seen current)⟩
  | broken changed => trivial

end Rounds

namespace RoomInvariant

variable {w w' : World} {act : Act} {t : Turn} {own : Option Uid}

theorem apart_of_past (inv : RoomInvariant w) {k : ConnId} {u : Uid}
    (past : (w.phase k).past? = some u) :
    ∀ j v, j ≠ k → (w.phase j).past? = some v → some u ≠ some v := by
  rintro j v other past' ⟨⟩
  exact other (inv.handlers.unique j k u past' past)

theorem keeps_own {k : ConnId} {u : Uid} {roomId : Option RoomId} {point : LoopPoint}
    (waiting : w.phase k = .running u roomId point) : ∀ v roomId' point',
    w.phase k = .running v roomId' point' → some u = some v ∨
      ∃ roomId'' point'', t.phase = .running v roomId'' point'' := by
  intro v roomId' point' running
  cases waiting.symm.trans running
  exact Or.inl rfl

theorem roomTurn_still (inv : RoomInvariant w) {k : ConnId} (server : t.server = w.server)
    (after : (t.phase.past? = none ∧ ∀ u roomId point, w.phase k ≠ .running u roomId point) ∨
      ∃ u roomId roomId' point point', w.phase k = .running u roomId point ∧
        t.phase = .running u roomId' point' ∧ point'.plain = true) : RoomTurn w k none t := by
  refine ⟨server ▸ .refl _ _, by simp, ?_, by simp, ?_⟩
  · rcases after with ⟨past, -⟩ | ⟨u, roomId, roomId', point, point', running, stays, plain⟩
    · cases phase : t.phase with
      | running u roomId point =>
          rw [phase] at past
          cases past
      | leaving u point =>
          rw [phase] at past
          cases past
      | _ => trivial
    · have standing := inv.standing k
      rw [running] at standing
      obtain ⟨status, found, inside, -⟩ := standing
      rw [stays, server]
      refine ⟨status, found, inside, ?_⟩
      cases point' with
      | recv => trivial
      | ping => trivial
      | sent => trivial
      | _ => cases plain
  · intro u roomId point running
    rcases after with ⟨-, never⟩ | ⟨v, r, r', p, p', running', stays, -⟩
    · exact absurd running (never u roomId point)
    · cases running.symm.trans running'
      exact Or.inr ⟨_, _, stays⟩

theorem roomTurn_lists (inv : RoomInvariant w) {k : ConnId} {u : Uid}
    {roomId : Option RoomId} {room : RoomId} {srv : WebRTCSimpleServer} {reply : Reply}
    (waiting : w.phase k = .running u roomId .recv)
    (idle : w.server.peers u = some ⟨k, none⟩) (nonempty : room ≠ [])
    (notSession : room ≠ inSession)
    (created : (srv = w.server ∧ ∃ set, w.server.rooms room = some set) ∨
      (srv = w.server.writeRoom room .empty ∧ w.server.rooms room = none)) :
    RoomTurn w k (some u) (.send srv k reply (.running u (some room) (.roomOk room))) := by
  have touches : Touches (some u) w.server srv := by
    rcases created with ⟨rfl, -⟩ | ⟨rfl, missing⟩
    · exact .refl _ _
    · exact .newRoom _ missing
  have exists' : ∃ set, srv.rooms room = some set := by
    rcases created with ⟨rfl, found⟩ | ⟨rfl, -⟩
    · exact found
    · exact ⟨.empty, by simp⟩
  have members : srv.members = w.server.members := by
    rcases created with ⟨rfl, -⟩ | ⟨rfl, missing⟩
    · rfl
    · rw [members_writeRoom]
      exact Function.update_eq_self_iff.mpr (by simp [WebRTCSimpleServer.members, missing])
  have peers : srv.peers = w.server.peers := by
    rcases created with ⟨rfl, -⟩ | ⟨rfl, -⟩ <;> rfl
  refine ⟨touches, inv.apart_of_past (congrArg Phase.past? waiting), ?_, ?_, keeps_own waiting⟩
  · refine ⟨none, ?_, by simp, rfl, nonempty, notSession, exists'⟩
    rw [Turn.server, peers]
    exact idle
  · rintro r v ⟨⟩ inside
    rw [Turn.server, members] at inside
    exact absurd inside (inv.outside_of_idle idle r)

theorem roomTurn_enters (inv : RoomInvariant w) {k : ConnId} {u : Uid}
    {roomId : Option RoomId} {room : RoomId} {set : PySet Uid}
    (waiting : w.phase k = .running u roomId (.roomOk room))
    (idle : w.server.peers u = some ⟨k, none⟩) (nonempty : room ≠ [])
    (notSession : room ≠ inSession) (found : w.server.rooms room = some set)
    (round : JoinRound ((w.server.writePeer u (some ⟨k, some room⟩)).writeRoom room (set.add u))
      u roomId room (set.add u) ((set.add u).iter {u}) t) : RoomTurn w k (some u) t := by
  have entered := round.server
  have inside : u ∈ t.server.members room := by
    rw [entered, members_writeRoom]
    simp
  have registered : t.server.peers u = some ⟨k, some room⟩ := by
    rw [entered]
    simp
  refine ⟨?_, inv.apart_of_past (congrArg Phase.past? waiting), ?_, ?_, keeps_own waiting⟩
  · rw [entered]
    exact (Touches.writePeer w.server u _).trans (.add (by simpa using found))
  · rw [entered] at inside registered
    exact round.standing (by simp) registered inside le_rfl
  · rintro r v ⟨⟩ member
    obtain ⟨point, running⟩ := round.running
    have same : r = room := by
      by_contra other
      rw [entered, members_writeRoom, Function.update_of_ne other, members_writePeer] at member
      exact inv.outside_of_idle idle r member
    subst same
    exact ⟨nonempty, notSession, registered, roomId, point, running⟩

theorem roomTurn (inv : RoomInvariant w) (alone : RegistersAlone w act)
    (h : RoomStep w act own t) : RoomTurn w act.conn own t := by
  cases h with
  | still server silent before after => exact inv.roomTurn_still server after
  | @registers k pick u waiting =>
      refine ⟨.writePeer _ u _, ?_, ⟨none, by simp [Turn.server, register, Act.conn],
        by simp, trivial⟩, ?_, ?_⟩
      · rintro j v - past ⟨⟩
        exact alone k pick u rfl waiting j past
      · rintro room v ⟨⟩ inside
        rw [Turn.server, register, members_writePeer] at inside
        obtain ⟨-, -, j, roomId, point, -, running⟩ := inv.member room u inside
        exact absurd (congrArg Phase.past? running) (alone k pick u rfl waiting j)
      · intro v roomId point running
        cases waiting.symm.trans running
  | lists waiting idle nonempty notSession created nodup lists =>
      exact inv.roomTurn_lists waiting idle nonempty notSession created
  | enters waiting idle nonempty notSession found round =>
      exact inv.roomTurn_enters waiting idle nonempty notSession found round
  | @joins k pick u roomId room it set t waiting found round =>
      obtain ⟨set', found', member, stamp⟩ := inv.joined_standing waiting
      cases found.symm.trans found'
      have past := congrArg Phase.past? waiting
      refine ⟨round.server ▸ .refl _ _, inv.apart_of_past past, ?_, ?_, keeps_own waiting⟩
      · exact round.standing found (inv.member_running member past).1 member stamp
      · rintro r v ⟨⟩ member'
        rw [round.server] at member' ⊢
        obtain ⟨point, running⟩ := round.running
        obtain ⟨nonempty, notSession, -⟩ := inv.member r u member'
        exact ⟨nonempty, notSession, (inv.member_running member' past).1, roomId, point, running⟩
  | @quits act u roomId point waiting idle =>
      refine ⟨.writePeer _ _ _, inv.apart_of_past (congrArg Phase.past? waiting), trivial, ?_,
        keeps_own waiting⟩
      rintro r v ⟨⟩ inside
      rw [Turn.server, members_writePeer] at inside
      exact absurd inside (inv.outside_of_idle idle r)
  | @leaves act u roomId point room set t waiting member found listed round =>
      have past := congrArg Phase.past? waiting
      refine ⟨(Touches.remove found).trans round.touches, inv.apart_of_past past, ?_, ?_,
        keeps_own waiting⟩
      · exact round.standing (by simp) ⟨_, member⟩ le_rfl (by simp [PySet.iter])
      · rintro r v ⟨⟩ inside
        rw [round.members, members_writeRoom] at inside
        by_cases same : r = room
        · subst same
          simp at inside
        · rw [Function.update_of_ne same] at inside
          obtain ⟨registered, -⟩ := inv.member_running inside past
          cases member.symm.trans registered
          exact absurd rfl same
  | @tells k pick u room it set t waiting found round =>
      have standing := inv.standing k
      rw [waiting] at standing
      obtain ⟨registered, set', found', stamp, seen⟩ := standing
      cases found.symm.trans found'
      have past := congrArg Phase.past? waiting
      refine ⟨round.touches, inv.apart_of_past past,
        round.standing found registered stamp seen, ?_, ?_⟩
      · rintro r v ⟨⟩ inside
        rw [round.members] at inside
        obtain ⟨-, roomId, point, running⟩ := inv.member_running inside past
        cases waiting.symm.trans running
      · intro v roomId point running
        cases waiting.symm.trans running

end RoomInvariant

/-- A handler runs after a turn only if it was running or registering before. -/
theorem RoomStep.talked {w : World} {act : Act} {own : Option Uid} {t : Turn}
    (h : RoomStep w act own t) {u : Uid} {roomId : Option RoomId} {point : LoopPoint}
    (running : t.phase = .running u roomId point) : (w.phase act.conn).Talks := by
  cases h with
  | still server silent before after =>
      rcases after with ⟨past, -⟩ | ⟨v, r, r', p, p', before, -, -⟩
      · rw [running] at past
        cases past
      · exact Or.inr (Or.inr ⟨_, _, _, before⟩)
  | registers waiting => exact Or.inr (Or.inl ⟨_, waiting⟩)
  | lists waiting idle nonempty notSession created nodup lists =>
      exact Or.inr (Or.inr ⟨_, _, _, waiting⟩)
  | enters waiting idle nonempty notSession found round => exact Or.inr (Or.inr ⟨_, _, _, waiting⟩)
  | joins waiting found round => exact Or.inr (Or.inr ⟨_, _, _, waiting⟩)
  | quits waiting idle => exact Or.inr (Or.inr ⟨_, _, _, waiting⟩)
  | leaves waiting member found listed round => exact Or.inr (Or.inr ⟨_, _, _, waiting⟩)
  | tells waiting found round => cases round <;> cases running

/-- A handler that goes on to take messages has closed no socket. -/
theorem Fires.talks {w : World} {act : Act} {t : Turn} (h : Fires w act t)
    (talks : t.phase.Talks) (k j : ConnId) : t.closes k ≠ some j := by
  have departed : ∀ {uid}, ¬ t.phase.Departing uid := by
    rintro uid (⟨point, leaving⟩ | done)
    · rw [leaving] at talks
      rcases talks with hello | ⟨u, ack⟩ | ⟨u, roomId, point', running⟩
      · cases hello
      · cases ack
      · cases running
    · rw [done] at talks
      rcases talks with hello | ⟨u, ack⟩ | ⟨u, roomId, point', running⟩
      · cases hello
      · cases ack
      · cases running
  have silent : ∀ {phase : Phase}, t.phase = phase → ¬ phase.Talks → t.closes k ≠ some j :=
    fun same never => absurd (same ▸ talks) never
  cases h with
  | greeted waiting fields absent word => rintro ⟨⟩
  | registered mayReturn waiting => rintro ⟨⟩
  | timeout waiting => rintro ⟨⟩
  | loops runs => rintro ⟨⟩
  | sends runs => rintro ⟨⟩
  | leaves runs removed => exact absurd removed.departing departed
  | partnerClosed mayReturn waiting removed => exact absurd removed.departing departed
  | leftSent mayReturn waiting announced => exact absurd announced.departing departed
  | _ => exact silent rfl (by simp [Turn.phase, Phase.Talks])

namespace RoomInvariant

variable {w w' : World} {act : Act}

theorem init : RoomInvariant World.empty := by
  refine ⟨.init, fun _ => rfl, ?_, fun _ => trivial, ?_⟩
  · intro room u inside
    exact absurd inside (Finset.notMem_empty u)
  · rintro k (hello | ⟨u, ack⟩ | ⟨u, roomId, point, running⟩)
    · cases hello
    · cases ack
    · cases running

/-- A step is the environment's part or one of the turns of room clients. -/
theorem cases (inv : RoomInvariant w) (allowed : RoomClients w act)
    (h : w.step act = some w') :
    Environment w w' ∨
    ∃ own t, Fires w act t ∧ RoomStep w act own t ∧ RoomTurn w act.conn own t ∧
      w' = w.apply act.conn t := by
  rcases step_cases h with ⟨k, rfl, absent, rfl⟩ | ⟨k, rfl, usable, rfl⟩ | ⟨t, fires, rfl⟩
  · exact Or.inl (environment_connect absent)
  · exact Or.inl environment_lose
  · obtain ⟨own, turn⟩ := inv.roomStep allowed.2 fires
    exact Or.inr ⟨own, t, fires, turn, inv.roomTurn allowed.1 turn, rfl⟩

/-- Without sessions a handler closes no socket but its own. -/
theorem closes_self (inv : RoomInvariant w) {t : Turn} (fires : Fires w act t) {j : ConnId}
    (closes : t.closes act.conn = some j) : j = act.conn := by
  rcases fires.closes closes with self | ⟨u, past, v, peer, may, found, rfl⟩ | ⟨u, room, it, leaving⟩
  · exact self
  · rcases may with rfl | linked
    · exact inv.handlers.own _ v peer past found
    · cases (inv.alone u).symm.trans linked
  · exact inv.handlers.leftWs _ u j room it leaving

theorem step (inv : RoomInvariant w) (allowed : RoomClients w act) (h : w.step act = some w') :
    RoomInvariant w' := by
  have handlers := inv.handlers.step allowed.1 h
  rcases inv.cases allowed h with env | ⟨own, t, fires, roomStep, turn, rfl⟩
  · refine ⟨handlers, ?_, ?_, ?_, ?_⟩
    · rw [env.server]
      exact inv.alone
    · intro room u inside
      rw [env.server] at inside ⊢
      obtain ⟨nonempty, notSession, k, roomId, point, found, running⟩ := inv.member room u inside
      refine ⟨nonempty, notSession, k, roomId, point, found, ?_⟩
      rcases env.conns k with ⟨same, -⟩ | ⟨absent, -, -⟩
      · exact same.trans running
      · cases absent.symm.trans running
    · intro k
      rcases env.conns k with ⟨same, -⟩ | ⟨-, hello, -⟩
      · rw [same, env.server]
        exact inv.standing k
      · rw [hello]
        trivial
    · intro k talks closed
      rcases env.conns k with ⟨same, -⟩ | ⟨-, -, usable⟩
      · rw [same] at talks
        exact inv.usable k talks (env.sockets k closed)
      · exact usable closed
  · refine ⟨handlers, ?_, ?_, ?_, ?_⟩
    · rw [World.apply_server, turn.touches.sessions]
      exact inv.alone
    · intro room u inside
      rw [World.apply_server] at inside ⊢
      by_cases mine : own = some u
      · obtain ⟨nonempty, notSession, found, roomId, point, running⟩ :=
          turn.member room u mine inside
        exact ⟨nonempty, notSession, act.conn, roomId, point, found,
          (World.apply_phase_self _ _ _).trans running⟩
      · rw [turn.touches.members room u mine] at inside
        obtain ⟨nonempty, notSession, k, roomId, point, found, running⟩ := inv.member room u inside
        rw [turn.touches.peers u mine]
        by_cases self : k = act.conn
        · subst self
          obtain ⟨roomId', point', stays⟩ := (turn.keeps u roomId point running).resolve_left mine
          exact ⟨nonempty, notSession, _, roomId', point', found,
            (World.apply_phase_self _ _ _).trans stays⟩
        · exact ⟨nonempty, notSession, k, roomId, point, found,
            (World.apply_phase_of_ne _ _ _ self).trans running⟩
    · intro k
      rw [World.apply_server]
      by_cases self : k = act.conn
      · subst self
        rw [World.apply_phase_self]
        exact turn.standing
      · rw [World.apply_phase_of_ne _ _ _ self]
        exact (inv.standing k).touched turn.touches fun u past => turn.apart k u self past
    · intro k talks
      rw [World.apply_socket]
      by_cases self : k = act.conn
      · subst self
        rw [World.apply_phase_self] at talks
        rw [if_neg (fires.talks talks _ _)]
        refine inv.usable _ ?_
        rcases talks with hello | ⟨u, ack⟩ | ⟨u, roomId, point, running⟩
        · exact Or.inl (fires.hello (Or.inl hello)).1
        · exact Or.inl (fires.hello (Or.inr ⟨u, ack⟩)).1
        · exact roomStep.talked running
      · rw [World.apply_phase_of_ne _ _ _ self] at talks
        rw [if_neg fun closes => self (inv.closes_self fires closes)]
        exact inv.usable k talks

theorem of_reachable (run : interleaved.Reachable RoomClients w) : RoomInvariant w :=
  run.invariant init fun _ _ _ inv allowed h => inv.step allowed h

end RoomInvariant

end GstWebrtc.Signalling
