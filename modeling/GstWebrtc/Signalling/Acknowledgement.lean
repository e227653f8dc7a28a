import GstWebrtc.Signalling.SessionRelay

/-!
# Acknowledgements come first

The handler sends each acknowledgement before it writes the table by which
others find its client: `HELLO` before the entry, `ROOM_OK` before the
membership and the status, `SESSION_OK` before the session.  What others send is
therefore on the connection after it.
-/

namespace GstWebrtc.Signalling

open GstWebrtc.Base GstWebrtc.Base.PyText WebRTCSimpleServer

/-- The room that a reply of the acting handler is about. -/
inductive Concerns (w w' : World) (act : Act) (room : RoomId) : Reply → Prop where
  | joined {uid roomId it} (announcing : w'.phase act.conn = .running uid roomId (.joined room it)) :
      Concerns w w' act room (.peerJoined uid)
  | left {uid ws it} (announcing : w'.phase act.conn = .leaving uid (.left ws room it)) :
      Concerns w w' act room (.peerLeft uid)
  | message {uid payload} (waiting : w.phase act.conn = .running uid (some room) .recv) :
      Concerns w w' act room (.peerMsg uid payload)

/-- The notices and messages of a room, as the server makes them. -/
def Reply.isRoomPeer : Reply → Bool
  | peerJoined _ | peerLeft _ | peerMsg _ _ => true
  | _ => false

/-- Connection `k` was sent `ROOM_OK` for the room. -/
def Answered (w : World) (k : ConnId) (room : RoomId) : Prop :=
  ∃ peers, .roomOk room peers ∈ w.mailTo k

/-- What a handler that waits for one of its acknowledgements has sent. -/
def Phase.Acknowledges (w : World) (k : ConnId) : Phase → Prop
  | absent | hello => w.mailTo k = []
  | ack _ => (w.conns k).usable = true → w.mailTo k = [.hello]
  | running _ roomId (.roomOk room) => roomId = some room ∧ room ≠ inSession ∧
      ((w.conns k).usable = true → Answered w k room)
  | running _ _ (.sessionOk _) => (w.conns k).usable = true → .sessionOk ∈ w.mailTo k
  | _ => True

structure Acknowledged (w : World) : Prop where
  identified : Identified w
  waits : ∀ k, (w.phase k).Acknowledges w k
  greeted : ∀ k u, (w.phase k).used? = some u → (w.mailTo k).head? = some .hello
  member : ∀ room u, u ∈ w.server.members room →
    ∃ k, (w.phase k).used? = some u ∧ Answered w k room
  status : ∀ u peer room, w.server.peers u = some peer → peer.status = some room →
    room ≠ inSession → Answered w peer.ws room
  assigned : ∀ k u roomId point peer room, w.phase k = .running u roomId point →
    w.server.peers u = some peer → peer.status = some room → room ≠ inSession →
    roomId = some room

section Turns

variable {w : World} {act : Act} {t : Turn} {u : Uid} {roomId : Option RoomId} {room : RoomId}

/-- A handler that waits for its `ROOM_OK` to be sent goes on, or takes its leave. -/
theorem Fires.answered (fires : Fires w act t)
    (waiting : w.phase act.conn = .running u roomId (.roomOk room)) :
    w.canReturn act.conn = true ∨ Shrinks w.server t.server := by
  have elsewhere : ∀ {phase : Phase}, w.phase act.conn = phase →
      phase ≠ .running u roomId (.roomOk room) → False :=
    fun waiting' other => other (waiting'.symm.trans waiting)
  cases fires with
  | loops runs =>
      cases runs with
      | room mayReturn waiting' entered => exact Or.inl mayReturn
      | message waiting' handled => exact (elsewhere waiting' (by simp)).elim
      | continued mayReturn waiting' plain => exact Or.inl mayReturn
      | session mayReturn waiting' linked => exact Or.inl mayReturn
      | joined mayReturn waiting' announced => exact Or.inl mayReturn
  | sends runs =>
      cases runs with
      | room mayReturn waiting' entered => exact Or.inl mayReturn
      | message waiting' handled => exact (elsewhere waiting' (by simp)).elim
      | joined mayReturn waiting' announced => exact Or.inl mayReturn
  | leaves runs removed =>
      cases runs with
      | room mayReturn waiting' entered => exact Or.inl mayReturn
      | message waiting' handled => exact (elsewhere waiting' (by simp)).elim
      | closed unusable waiting' => exact Or.inr removed.shrinks
      | raised mayRaise waiting' => exact Or.inr removed.shrinks
      | sessionFailed mayReturn waiting' missing => exact Or.inr removed.shrinks
      | joined mayReturn waiting' announced => exact Or.inl mayReturn
  | partnerClosed mayReturn waiting' removed => exact Or.inr removed.shrinks
  | leftSent mayReturn waiting' announced => exact Or.inr announced.shrinks
  | registered mayReturn waiting' => exact Or.inl mayReturn
  | _ => exact Or.inr (.refl _)

theorem Runs.member {v : Uid} {body : Body} (runs : Runs w v roomId act body)
    (inside : u ∈ body.server.members room) :
    u ∈ w.server.members room ∨ w.phase act.conn = .running u roomId (.roomOk room) := by
  cases runs with
  | message waiting handled =>
      cases handled with
      | newRoom registered idle command fields valid notSession absent lists =>
          have same := congrFun (members_newRoom absent) room
          exact Or.inl (same ▸ inside)
      | _ => exact Or.inl inside
  | session mayReturn waiting linked =>
      obtain ⟨peer, calleePeer, -, -, -, -, rooms⟩ := registerSession_eq linked
      rw [Body.server, members_congr rooms] at inside
      exact Or.inl inside
  | @room k pick room' body mayReturn waiting entered =>
      cases entered with
      | unregistered absent => exact Or.inl inside
      | noRoom registered missing => exact Or.inl (by rwa [Body.server, members_writePeer] at inside)
      | @entered peer set body registered found announced =>
          rw [announced.server_eq, members_writeRoom, members_writePeer] at inside
          by_cases here : room = room'
          · subst here
            rw [Function.update_self, PySet.elems_add, Finset.mem_insert] at inside
            rcases inside with rfl | inside
            · exact Or.inr waiting
            · exact Or.inl (by rwa [members_of_rooms found])
          · rw [Function.update_of_ne here] at inside
            exact Or.inl inside
  | joined mayReturn waiting announced =>
      rw [announced.server_eq] at inside
      exact Or.inl inside
  | _ => exact Or.inl inside

/-- How a member that a room has after a turn came there. -/
theorem Fires.member (fires : Fires w act t) (inside : u ∈ t.server.members room) :
    u ∈ w.server.members room ∨ ∃ roomId, w.phase act.conn = .running u roomId (.roomOk room) := by
  cases fires with
  | loops runs => exact (runs.member inside).imp_right fun waiting => ⟨_, waiting⟩
  | sends runs => exact (runs.member inside).imp_right fun waiting => ⟨_, waiting⟩
  | leaves runs removed =>
      have before := removed.shrinks.members room u inside
      exact (runs.member before).imp_right fun waiting => ⟨_, waiting⟩
  | registered mayReturn waiting =>
      rw [Turn.server, register, members_writePeer] at inside
      exact Or.inl inside
  | partnerClosed mayReturn waiting removed =>
      exact Or.inl (removed.shrinks.members room u inside)
  | leftSent mayReturn waiting announced =>
      exact Or.inl (announced.shrinks.members room u inside)
  | _ => exact Or.inl inside

/-- The local `room_id` changes only when an idle client asks for a room. -/
theorem Runs.assigns {v : Uid} {roomId' : Option RoomId} {body : Body}
    (runs : Runs w v roomId act body) (loops : body.loopRoom = some roomId') :
    roomId' = roomId ∨ ∃ peer, body.server.peers v = some peer ∧ peer.status = none := by
  cases runs with
  | message waiting handled =>
      cases handled with
      | raise reason => cases loops
      | invalidRoom registered idle command fields invalid => exact Or.inr ⟨_, registered, idle⟩
      | newRoom registered idle command fields valid notSession absent lists =>
          exact Or.inr ⟨_, registered, idle⟩
      | oldRoom registered idle command fields valid notSession found fresh lists =>
          exact Or.inr ⟨_, registered, idle⟩
      | _ =>
          cases loops
          exact Or.inl rfl
  | room mayReturn waiting entered =>
      cases entered with
      | entered registered found announced => exact Or.inl (announced.loopRoom loops)
      | _ => cases loops
  | joined mayReturn waiting announced => exact Or.inl (announced.loopRoom loops)
  | _ =>
      cases loops
      try exact Or.inl rfl

/-- The same for a turn after which the handler is in its loop. -/
theorem Fires.assigns (fires : Fires w act t) {point : LoopPoint}
    (running : t.phase = .running u roomId point) :
    (∃ point', w.phase act.conn = .running u roomId point') ∨
    ∃ peer, t.server.peers u = some peer ∧ peer.status = none := by
  cases fires with
  | @registered k pick uid mayReturn waiting =>
      cases running
      exact Or.inr ⟨⟨k, none⟩, by simp [Turn.server, register], rfl⟩
  | timeout waiting =>
      cases running
      exact Or.inl ⟨_, waiting⟩
  | loops runs =>
      cases running
      refine (runs.assigns rfl).imp_left ?_
      rintro rfl
      exact runs.running
  | sends runs =>
      cases running
      refine (runs.assigns rfl).imp_left ?_
      rintro rfl
      exact runs.running
  | leaves runs removed => exact absurd running removed.departing.not_running
  | partnerClosed mayReturn waiting removed => exact absurd running removed.departing.not_running
  | leftSent mayReturn waiting announced => exact absurd running announced.departing.not_running
  | _ => cases running

theorem usable_of_canReturn {k : ConnId} (mayReturn : w.canReturn k = true)
    (open' : (w.phase k).inClose = false) : (w.conns k).usable = true := by
  simp only [World.canReturn, open', Bool.false_or, Bool.and_eq_true] at mayReturn
  exact mayReturn.2

end Turns

/-! ## The invariant -/

section Mail

variable {w w' : World} {act : Act} {t : Turn} {k : ConnId} {room : RoomId}

theorem mail_kept (h : w.step act = some w') {r : Reply} (sent : r ∈ w.mailTo k) :
    r ∈ w'.mailTo k := by
  obtain ⟨more, grown⟩ := World.mailTo_step h k
  rw [grown]
  exact List.mem_append_left _ sent

/-- How the mail of a connection grows in one step. -/
theorem mail_step (h : w.step act = some w') (k : ConnId) :
    w'.mailTo k = w.mailTo k ∨
    ∃ srv reply phase, Fires w act (.send srv k reply phase) ∧
      w' = w.apply act.conn (.send srv k reply phase) ∧ w'.mailTo k = w.mailTo k ++ [reply] := by
  rcases step_cases h with ⟨j, rfl, absent, rfl⟩ | ⟨j, rfl, usable, rfl⟩ | ⟨t, fires, rfl⟩
  · exact Or.inl rfl
  · exact Or.inl rfl
  · rcases World.mailTo_apply w act.conn k t with same | ⟨srv, reply, phase, rfl, grown⟩
    · exact Or.inl same
    · exact Or.inr ⟨srv, reply, phase, fires, rfl, grown⟩

theorem Answered.kept (answered : Answered w k room) (h : w.step act = some w') :
    Answered w' k room := by
  obtain ⟨peers, sent⟩ := answered
  exact ⟨peers, mail_kept h sent⟩

/-- What a handler sends to its own client is there when the send can return. -/
theorem own_mail {srv : WebRTCSimpleServer} {reply : Reply} {phase : Phase}
    (usable : ((w.apply k (.send srv k reply phase)).conns k).usable = true) :
    (w.apply k (.send srv k reply phase)).mailTo k = w.mailTo k ++ [reply] := by
  rw [World.apply_send_usable] at usable
  have opened : w.socket k ≠ .closed := by simpa using usable
  rw [World.mailTo_of_log (w.apply_log k _), World.delivered, if_neg opened]
  simp

theorem own_mem {srv : WebRTCSimpleServer} {reply : Reply} {phase : Phase}
    (usable : ((w.apply k (.send srv k reply phase)).conns k).usable = true) :
    reply ∈ (w.apply k (.send srv k reply phase)).mailTo k := by
  rw [own_mail usable]
  exact List.mem_append_right _ List.mem_cons_self

end Mail

namespace Acknowledged

variable {w w' : World} {act : Act} {t : Turn} {k : ConnId} {u : Uid} {room : RoomId}

theorem init : Acknowledged World.empty where
  identified := .init
  waits k := rfl
  greeted := by rintro k u ⟨⟩
  member := by
    intro room u inside
    exact absurd inside (Finset.notMem_empty u)
  status := by rintro u peer room ⟨⟩
  assigned := by rintro k u roomId point peer room ⟨⟩

/-- A handler that goes on after its `ROOM_OK` has sent it. -/
theorem answered_of_return (inv : Acknowledged w) {roomId : Option RoomId}
    (waiting : w.phase k = .running u roomId (.roomOk room)) (mayReturn : w.canReturn k = true) :
    Answered w k room := by
  have usable := usable_of_canReturn mayReturn (by rw [waiting]; rfl)
  have waits := inv.waits k
  rw [waiting] at waits
  exact waits.2.2 usable

/-- Nobody sends to a client that is not registered. -/
theorem mail_of_unknown (inv : Acknowledged w) (fires : Fires w act t) (other : k ≠ act.conn)
    (unknown : (w.phase k).used? = none) : (w.apply act.conn t).mailTo k = w.mailTo k := by
  rcases World.mailTo_apply w act.conn k t with silent | ⟨srv, reply, phase, rfl, -⟩
  · exact silent
  · rcases fires.target with ⟨own, -⟩ | ⟨v, peer, found, own⟩
    · exact absurd own other
    · have used := inv.identified.owner v peer found
      rw [own, unknown] at used
      cases used

/-- The turns of other handlers do not matter to one that waits. -/
theorem other_waits (inv : Acknowledged w) (fires : Fires w act t)
    (h : w.step act = some (w.apply act.conn t)) (other : k ≠ act.conn) :
    (w.phase k).Acknowledges (w.apply act.conn t) k := by
  have waits := inv.waits k
  have usable : ((w.apply act.conn t).conns k).usable = (w.conns k).usable :=
    World.apply_usable_of_ne _ _ _ other
  have silent := inv.mail_of_unknown fires other
  generalize w.phase k = phase at waits silent
  cases phase with
  | absent => exact (silent rfl).trans waits
  | hello => exact (silent rfl).trans waits
  | ack v => exact fun now => (silent rfl).trans (waits (usable ▸ now))
  | running v roomId point =>
      cases point with
      | roomOk room => exact ⟨waits.1, waits.2.1, fun now => (waits.2.2 (usable ▸ now)).kept h⟩
      | sessionOk callee => exact fun now => mail_kept h (waits (usable ▸ now))
      | _ => exact True.intro
  | _ => exact True.intro

/-- What a handler has sent when it begins to wait. -/
theorem own_waits (inv : Acknowledged w) (fires : Fires w act t) :
    t.phase.Acknowledges (w.apply act.conn t) act.conn := by
  have departed : ∀ {uid}, t.phase.Departing uid →
      t.phase.Acknowledges (w.apply act.conn t) act.conn := by
    rintro uid (⟨point, leaving⟩ | done)
    · rw [leaving]
      exact True.intro
    · rw [done]
      exact True.intro
  cases fires with
  | @greeted k msg order pick uid waiting fields absent word =>
      intro usable
      have fresh := inv.waits k
      rw [waiting] at fresh
      have sent : (w.apply k (.send w.server k .hello (.ack uid))).mailTo k =
          w.mailTo k ++ [.hello] := own_mail usable
      have before : w.mailTo k = [] := fresh
      rw [before] at sent
      exact sent
  | leaves runs removed => exact departed removed.departing
  | partnerClosed mayReturn waiting removed => exact departed removed.departing
  | leftSent mayReturn waiting announced => exact departed announced.departing
  | sends runs =>
      cases runs with
      | message waiting handled =>
          -- the two replies after which a table is written go to the handler's own client
          cases handled with
          | sessionOk registered idle command fields found => exact own_mem
          | newRoom registered idle command fields valid notSession absent lists =>
              exact ⟨rfl, notSession, fun usable => ⟨_, own_mem usable⟩⟩
          | oldRoom registered idle command fields valid notSession found fresh lists =>
              exact ⟨rfl, notSession, fun usable => ⟨_, own_mem usable⟩⟩
          | _ => exact True.intro
      | room mayReturn waiting entered =>
          cases entered with
          | entered registered found announced =>
              obtain ⟨-, -, ⟨it, rfl⟩, -⟩ := announced.sends
              exact True.intro
      | joined mayReturn waiting announced =>
          obtain ⟨-, -, ⟨it, rfl⟩, -⟩ := announced.sends
          exact True.intro
  | _ => exact True.intro

/-- The environment sends nothing; a connection that it opens has no mail. -/
theorem environment (inv : Acknowledged w) (identified : Identified w') (env : Environment w w') :
    Acknowledged w' := by
  have mail : ∀ j, w'.mailTo j = w.mailTo j := fun j => by rw [World.mailTo, env.log, World.mailTo]
  have answered : ∀ {j room}, Answered w j room → Answered w' j room := by
    rintro j room ⟨peers, sent⟩
    exact ⟨peers, by rwa [mail]⟩
  have used : ∀ j, (w'.phase j).used? = (w.phase j).used? := by
    intro j
    rcases env.conns j with ⟨same, -⟩ | ⟨absent, hello, -⟩
    · rw [same]
    · rw [absent, hello]
      rfl
  refine ⟨identified, ?_, ?_, ?_, ?_, ?_⟩
  · intro j
    have waits := inv.waits j
    rcases env.conns j with ⟨same, usable⟩ | ⟨absent, hello, -⟩
    · rw [same]
      generalize w.phase j = phase at waits
      cases phase with
      | absent => exact (mail j).trans waits
      | hello => exact (mail j).trans waits
      | ack v => exact fun now => (mail j).trans (waits (usable ▸ now))
      | running v roomId point =>
          cases point with
          | roomOk room => exact ⟨waits.1, waits.2.1, fun now => answered (waits.2.2 (usable ▸ now))⟩
          | sessionOk callee => exact fun now => (mail j).symm ▸ waits (usable ▸ now)
          | _ => exact True.intro
      | _ => exact True.intro
    · rw [absent] at waits
      rw [hello]
      exact (mail j).trans waits
  · intro j u known
    rw [mail]
    exact inv.greeted j u (used j ▸ known)
  · intro room u inside
    rw [env.server] at inside
    obtain ⟨j, known, sent⟩ := inv.member room u inside
    exact ⟨j, (used j).trans known, answered sent⟩
  · intro u peer room found status notSession
    rw [env.server] at found
    exact answered (inv.status u peer room found status notSession)
  · intro j u roomId point peer room running found status notSession
    rw [env.server] at found
    rcases env.conns j with ⟨same, -⟩ | ⟨-, hello, -⟩
    · exact inv.assigned j u roomId point peer room (same.symm.trans running) found status notSession
    · cases hello.symm.trans running

/-- Only a handler that enters a room makes it the status of its uid. -/
theorem status_apply (inv : Acknowledged w) (fires : Fires w act t) {peer : Peer}
    (found : t.server.peers u = some peer) (status : peer.status = some room)
    (notSession : room ≠ inSession) :
    w.server.peers u = some peer ∨
    (peer.ws = act.conn ∧ w.canReturn act.conn = true ∧
      ∃ roomId, w.phase act.conn = .running u roomId (.roomOk room)) := by
  cases fires.entry found with
  | kept was => exact Or.inl was
  | registered waiting => cases status
  | linked resumed waiting either was => exact absurd (Option.some.inj status).symm notSession
  | @entered roomId room' old waiting was =>
      have named : room' = room := Option.some.inj status
      subst named
      rcases fires.answered waiting with mayReturn | shrinks
      · have used : (w.phase act.conn).used? = some u := congrArg Phase.used? waiting
        have own : old.ws = act.conn := inv.identified.ws_eq used was
        exact Or.inr ⟨own, mayReturn, _, waiting⟩
      · exact Or.inl (shrinks.peers u _ found)

/-- The local `room_id` of a handler is the room that its uid has as status. -/
theorem assigned_apply (inv : Acknowledged w) (fires : Fires w act t) {k : ConnId}
    {roomId : Option RoomId} {point : LoopPoint} {peer : Peer}
    (running : (w.apply act.conn t).phase k = .running u roomId point)
    (found : t.server.peers u = some peer) (status : peer.status = some room)
    (notSession : room ≠ inSession) : roomId = some room := by
  have before : ∃ point', w.phase k = .running u roomId point' := by
    by_cases self : k = act.conn
    · subst self
      rw [World.apply_phase_self] at running
      rcases fires.assigns running with same | ⟨idle, was, none⟩
      · exact same
      · cases Option.some.inj (found.symm.trans was)
        cases none.symm.trans status
    · exact ⟨point, (World.apply_phase_of_ne _ _ _ self).symm.trans running⟩
  obtain ⟨point', waiting⟩ := before
  rcases inv.status_apply fires found status notSession with was | ⟨-, -, roomId', entering⟩
  · exact inv.assigned k u roomId point' peer room waiting was status notSession
  · have self : k = act.conn :=
      inv.identified.unique _ _ u (congrArg Phase.used? waiting) (congrArg Phase.used? entering)
    subst self
    have waits := inv.waits act.conn
    rw [entering] at waits
    cases waiting.symm.trans entering
    exact waits.1

/-- A handler that registers its uid has sent `HELLO`, and nothing else. -/
theorem greeted_of_registered (inv : Acknowledged w) {pick : Option Uid} {v : Uid}
    (waiting : w.phase k = .ack v) (h : w.step (.resume k false pick) = some w') :
    (w.mailTo k).head? = some .hello := by
  have mayReturn : w.canReturn k = true := by
    by_contra never
    simp [World.step, World.turn, never] at h
  have waits := inv.waits k
  rw [waiting] at waits
  rw [waits (usable_of_canReturn mayReturn (by rw [waiting]; rfl))]
  rfl

theorem step (inv : Acknowledged w) (alone : OneConnection w act) (h : w.step act = some w') :
    Acknowledged w' := by
  have identified := inv.identified.step alone h
  rcases step_cases h with ⟨j, rfl, absent, rfl⟩ | ⟨j, rfl, usable, rfl⟩ | ⟨t, fires, rfl⟩
  · exact inv.environment identified (environment_connect absent)
  · exact inv.environment identified environment_lose
  · refine ⟨identified, ?_, ?_, ?_, ?_, ?_⟩
    · intro k
      by_cases self : k = act.conn
      · subst self
        rw [World.apply_phase_self]
        exact inv.own_waits fires
      · rw [World.apply_phase_of_ne _ _ _ self]
        exact inv.other_waits fires h self
    · intro k u used
      have before : (w.mailTo k).head? = some .hello := by
        rcases used_step h k with same | ⟨pick, v, rfl, waiting, -⟩
        · exact inv.greeted k u (same ▸ used)
        · exact inv.greeted_of_registered waiting h
      obtain ⟨more, grown⟩ := World.mailTo_step h k
      rw [grown, List.head?_append, before]
      rfl
    · intro room u inside
      rw [World.apply_server] at inside
      rcases fires.member inside with before | ⟨roomId, waiting⟩
      · obtain ⟨k, used, answered⟩ := inv.member room u before
        exact ⟨k, used_kept h used, answered.kept h⟩
      · rcases fires.answered waiting with mayReturn | shrinks
        · exact ⟨act.conn, used_kept h (congrArg Phase.used? waiting),
            (inv.answered_of_return waiting mayReturn).kept h⟩
        · obtain ⟨k, used, answered⟩ := inv.member room u (shrinks.members room u inside)
          exact ⟨k, used_kept h used, answered.kept h⟩
    · intro u peer room found status notSession
      rw [World.apply_server] at found
      rcases inv.status_apply fires found status notSession with
        was | ⟨own, mayReturn, roomId, waiting⟩
      · exact (inv.status u peer room was status notSession).kept h
      · rw [own]
        exact (inv.answered_of_return waiting mayReturn).kept h
    · intro k u roomId point peer room running found status notSession
      rw [World.apply_server] at found
      exact inv.assigned_apply fires running found status notSession

theorem of_reachable (run : interleaved.Reachable OneConnection w) : Acknowledged w :=
  run.invariant init fun _ _ _ inv allowed h => inv.step allowed h

/-- A member that is sent a notice has its `ROOM_OK` for that room before it. -/
theorem answered_of_recipient (inv' : Acknowledged w') {srv : WebRTCSimpleServer} {reply : Reply}
    {pid : Uid} {peer : Peer} (server : w'.server = srv) (inside : pid ∈ srv.members room)
    (registered : srv.peers pid = some peer)
    (grown : w'.mailTo peer.ws = w.mailTo peer.ws ++ [reply]) (notice : reply.isRoomPeer = true) :
    Answered w peer.ws room := by
  subst server
  obtain ⟨k, used, peers, sent⟩ := inv'.member room pid inside
  have own : peer.ws = k := inv'.identified.ws_eq used registered
  subst own
  rw [grown, List.mem_append, List.mem_singleton] at sent
  rcases sent with before | now
  · exact ⟨peers, before⟩
  · rw [← now] at notice
    cases notice

/-- Each notice or message of a room goes to a connection that has its `ROOM_OK`. -/
theorem room_peer (inv : Acknowledged w) {srv : WebRTCSimpleServer} {reply : Reply} {phase : Phase}
    (fires : Fires w act (.send srv k reply phase))
    (inv' : Acknowledged (w.apply act.conn (.send srv k reply phase)))
    (grown : (w.apply act.conn (.send srv k reply phase)).mailTo k = w.mailTo k ++ [reply])
    (notice : reply.isRoomPeer = true) :
    ∃ room, Concerns w (w.apply act.conn (.send srv k reply phase)) act room reply ∧
      Answered w k room := by
  have server := World.apply_server w act.conn (.send srv k reply phase)
  have announcing := World.apply_phase_self w act.conn (.send srv k reply phase)
  have joined : ∀ {old v roomId room it roomId' next}, phase = .running v roomId' next →
      JoinAnnounced old v roomId room it (.send srv roomId' k reply next) →
      ∃ room, Concerns w (w.apply act.conn (.send srv k reply phase)) act room reply ∧
        Answered w k room := by
    rintro old v roomId room it roomId' next rfl announced
    obtain ⟨rfl, rfl, ⟨it, rfl⟩, pid, peer, inside, -, registered, rfl⟩ := announced.sends
    exact ⟨room, .joined announcing,
      inv'.answered_of_recipient server inside registered grown notice⟩
  have left : ∀ {v room}, LeftSent srv v room k reply phase →
      ∃ room, Concerns w (w.apply act.conn (.send srv k reply phase)) act room reply ∧
        Answered w k room := by
    rintro v room ⟨rfl, ⟨ws, it, rfl⟩, pid, peer, inside, registered, rfl⟩
    exact ⟨room, .left announcing,
      inv'.answered_of_recipient server inside registered grown notice⟩
  generalize turn : Turn.send srv k reply phase = t at fires
  cases fires with
  | sends runs =>
      cases turn
      cases runs with
      | message waiting handled =>
          cases handled with
          | peerMsg registered member command fields found assigned sameRoom =>
              subst assigned
              obtain ⟨status, -, notSession⟩ := member
              have own := inv.assigned _ _ _ _ _ _ waiting registered status notSession
              cases own
              exact ⟨_, .message waiting, inv.status _ _ _ found sameRoom notSession⟩
          | _ => cases notice
      | room mayReturn waiting entered =>
          cases entered with
          | entered registered found announced => exact joined rfl announced
      | joined mayReturn waiting announced => exact joined rfl announced
  | leaves runs removed =>
      subst turn
      obtain ⟨room, -, sent⟩ := removed.sends
      exact left sent
  | partnerClosed mayReturn waiting removed =>
      subst turn
      obtain ⟨room, -, sent⟩ := removed.sends
      exact left sent
  | leftSent mayReturn waiting announced =>
      subst turn
      exact left announced.sends
  | greeted waiting fields absent word =>
      cases turn
      cases notice
  | _ => cases turn

end Acknowledged

/-- A reply is about one room. -/
theorem Concerns.unique {w w' : World} {act : Act} {room room' : RoomId} {reply : Reply}
    (h : Concerns w w' act room reply) (h' : Concerns w w' act room' reply) : room = room' := by
  cases h with
  | joined announcing =>
      cases h' with
      | joined announcing' =>
          cases announcing.symm.trans announcing'
          rfl
  | left announcing =>
      cases h' with
      | left announcing' =>
          cases announcing.symm.trans announcing'
          rfl
  | message waiting =>
      cases h' with
      | message waiting' =>
          cases waiting.symm.trans waiting'
          rfl

/-! ## Sessions -/

/-- A client that was sent a relayed text is not idle again, so it is sent no `SESSION_OK`. -/
structure Relaying (w : World) : Prop where
  acknowledged : Acknowledged w
  busy : ∀ k msg, .relay msg ∈ w.mailTo k → ∃ u, (w.phase k).used? = some u ∧
    ∀ peer, w.server.peers u = some peer → peer.status ≠ none
  ordered : ∀ k before after, w.mailTo k = before ++ .sessionOk :: after →
    ∀ msg, .relay msg ∉ before

namespace Relaying

variable {w w' : World} {act : Act} {t : Turn} {k : ConnId} {u : Uid}

theorem init : Relaying World.empty where
  acknowledged := .init
  busy := by
    intro k msg sent
    exact absurd sent List.not_mem_nil
  ordered := by
    intro k before after sent
    exact absurd sent.symm (List.append_ne_nil_of_right_ne_nil _ (List.cons_ne_nil _ _))

/-- `SESSION_OK` goes to the handler's own idle client. -/
theorem idle_of_sessionOk {srv : WebRTCSimpleServer} {phase : Phase}
    (fires : Fires w act (.send srv k .sessionOk phase)) :
    k = act.conn ∧ ∃ u peer, (w.phase k).used? = some u ∧ w.server.peers u = some peer ∧
      peer.status = none := by
  rcases fires.sends_message with hello | ⟨u, joined | left⟩ |
    ⟨j, uid, roomId, roomId', order, pick, msg, next, rfl, waiting, rfl, handled⟩
  · cases hello
  · cases joined
  · cases left
  · cases handled with
    | sessionOk registered idle command fields found =>
        exact ⟨rfl, _, _, congrArg Phase.used? waiting, registered, idle⟩

/-- The entry of a client that was sent a relayed text stays busy. -/
theorem busy_step (acknowledged : Acknowledged w') (h : w.step act = some w')
    {u : Uid} (used : (w.phase k).used? = some u)
    (busy : ∀ peer, w.server.peers u = some peer → peer.status ≠ none) {peer : Peer}
    (found : w'.server.peers u = some peer) : peer.status ≠ none := by
  rcases step_cases h with ⟨j, rfl, absent, rfl⟩ | ⟨j, rfl, usable, rfl⟩ | ⟨t, fires, rfl⟩
  · exact busy peer found
  · exact busy peer found
  · have own : peer.ws = k := acknowledged.identified.ws_eq (used_kept h used) found
    rw [World.apply_server] at found
    cases fires.entry found with
    | kept was => exact busy _ was
    | registered waiting =>
        subst own
        cases (congrArg Phase.used? waiting).symm.trans used
    | linked resumed waiting either was => simp
    | entered waiting was => simp

theorem step (inv : Relaying w) (alone : OneConnection w act) (h : w.step act = some w') :
    Relaying w' := by
  have acknowledged := inv.acknowledged.step alone h
  refine ⟨acknowledged, ?_, ?_⟩
  · intro k msg sent
    have known : .relay msg ∈ w.mailTo k → ∃ u, (w'.phase k).used? = some u ∧
        ∀ peer, w'.server.peers u = some peer → peer.status ≠ none := by
      intro before
      obtain ⟨u, used, busy⟩ := inv.busy k msg before
      exact ⟨u, used_kept h used, fun peer found => busy_step acknowledged h used busy found⟩
    rcases mail_step h k with same | ⟨srv, reply, phase, fires, rfl, grown⟩
    · exact known (same ▸ sent)
    · rw [grown, List.mem_append, List.mem_singleton] at sent
      rcases sent with before | rfl
      · exact known before
      · obtain ⟨-, u, registered⟩ := fires.relay
        have used := inv.acknowledged.identified.owner u _ registered
        refine ⟨u, used_kept h used, fun peer found => busy_step acknowledged h used ?_ found⟩
        intro peer was
        cases registered.symm.trans was
        exact Option.some_ne_none _
  · intro k before after split msg
    rcases mail_step h k with same | ⟨srv, reply, phase, fires, rfl, grown⟩
    · exact inv.ordered k before after (same ▸ split) msg
    · rw [grown] at split
      rcases after.eq_nil_or_concat with rfl | ⟨init, last, rfl⟩
      · -- the reply is this `SESSION_OK`: its client is idle
        obtain ⟨rfl, now⟩ := List.append_inj' split rfl
        cases now
        intro relayed
        obtain ⟨-, u, peer, used, registered, idle⟩ := idle_of_sessionOk fires
        obtain ⟨v, used', busy⟩ := inv.busy k msg relayed
        cases used.symm.trans used'
        exact busy peer registered idle
      · have parts : w.mailTo k ++ [reply] = (before ++ .sessionOk :: init) ++ [last] := by
          rw [split]
          simp
        exact inv.ordered k before init (List.append_inj' parts rfl).1 msg

theorem of_reachable (run : interleaved.Reachable OneConnection w) : Relaying w :=
  run.invariant init fun _ _ _ inv allowed h => inv.step allowed h

end Relaying

/-- The acknowledgements on the connections of a state, each before what depends on it. -/
structure Acknowledgements (w : World) : Prop where
  /-- A registered connection was sent `HELLO` first. -/
  hello : ∀ k u, (w.phase k).used? = some u → (w.mailTo k).head? = some .hello
  /-- What is put next on a connection about a room comes after `ROOM_OK` for that room. -/
  roomOk : ∀ act w' k reply, OneConnection w act → w.step act = some w' →
    w'.mailTo k = w.mailTo k ++ [reply] → reply.isRoomPeer = true →
    (∃ room, Concerns w w' act room reply) ∧
      ∀ room, Concerns w w' act room reply → Answered w k room
  /-- When a handler creates its session, its client was sent `SESSION_OK`, and whatever
  happens from then on no relayed text is before it. -/
  sessionOk : ∀ k u roomId callee pick srv w',
    w.phase k = .running u roomId (.sessionOk callee) →
    w.server.registerSession u callee = some srv → w.step (.resume k false pick) = some w' →
    ∀ last, interleaved.Run OneConnection w' last → .sessionOk ∈ last.mailTo k ∧
      ∀ before after, last.mailTo k = before ++ .sessionOk :: after → ∀ msg, .relay msg ∉ before

/--
In every interleaving of handlers that use their uids alone, `HELLO`, `ROOM_OK`
and `SESSION_OK` come before the texts that the tables written after them let
others send.
-/
theorem acknowledgement_first {w : World} (run : interleaved.Reachable OneConnection w) :
    Acknowledgements w := by
  have inv := Acknowledged.of_reachable run
  refine ⟨inv.greeted, ?_, ?_⟩
  · intro act w' k reply alone h grown notice
    rcases mail_step h k with same | ⟨srv, reply', phase, fires, rfl, grown'⟩
    · rw [same] at grown
      exact absurd grown.symm (by simp)
    · cases List.append_cancel_left (grown'.symm.trans grown)
      obtain ⟨room, concerns, answered⟩ := inv.room_peer fires (inv.step alone h) grown notice
      refine ⟨⟨room, concerns⟩, ?_⟩
      intro room' concerns'
      rw [concerns'.unique concerns]
      exact answered
  · intro k u roomId callee pick srv w' waiting linked h last later
    have mayReturn : w.canReturn k = true := by
      by_contra never
      simp [World.step, World.turn, never] at h
    have waits := inv.waits k
    rw [waiting] at waits
    have sent := waits (usable_of_canReturn mayReturn (by rw [waiting]; rfl))
    have alone : OneConnection w (.resume k false pick) := by
      intro j pick' v same acked
      cases same
      cases waiting.symm.trans acked
    have kept : .sessionOk ∈ last.mailTo k :=
      later.invariant (mail_kept h sent) fun _ _ _ inside _ fires => mail_kept fires inside
    have whole : interleaved.Reachable OneConnection last := (run.step alone h).trans later
    exact ⟨kept, (Relaying.of_reachable whole).ordered k⟩

/-- A caller that is sent a text by its callee, beside two members of a room. -/
theorem acknowledgement_first_call :
    ∃ w, w.mailTo 0 = [.hello, .sessionOk, .relay "hi".toList] ∧
      w.mailTo 2 = [.hello, .roomOk "r".toList [], .peerJoined "v".toList] ∧ Acknowledgements w := by
  obtain ⟨w, run, absent, test⟩ := exists_of_checked (oneBelow 4) (fun _ _ => oneConnection_of_below)
    (greeting 0 "x" ++ greeting 1 "y" ++ greeting 2 "u" ++ greeting 3 "v" ++
      [.recv 0 "SESSION y".toList [] none, .resume 0 false none, .recv 1 "hi".toList [] none,
        .recv 2 "ROOM r".toList [] none, .resume 2 false none,
        .recv 3 "ROOM r".toList ["u".toList] none, .resume 3 false (some "u".toList)])
    (fun w => decide (w.mailTo 0 = [.hello, .sessionOk, .relay "hi".toList]) &&
      decide (w.mailTo 2 = [.hello, .roomOk "r".toList [], .peerJoined "v".toList]))
    (by decide)
  simp only [Bool.and_eq_true, decide_eq_true_eq] at test
  exact ⟨w, test.1, test.2, acknowledgement_first run⟩

end GstWebrtc.Signalling
