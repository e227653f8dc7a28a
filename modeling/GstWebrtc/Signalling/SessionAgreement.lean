import GstWebrtc.Signalling.RoomTable

/-!
# Agreement on a session

The availability of the callee is looked up before `SESSION_OK` is sent and the
session is registered after it, and the lookup asks for the callee's presence
only.  What the caller was told and what the tables say agree exactly when the
callee is unknown, or when both peers are still available at the registration.
-/

namespace GstWebrtc.Signalling

open GstWebrtc.Base GstWebrtc.Base.PyText WebRTCSimpleServer

/-- `uid` is registered, idle, and in no session. -/
def Available (srv : WebRTCSimpleServer) (uid : Uid) : Prop :=
  (∃ peer, srv.peers uid = some peer ∧ peer.status = none) ∧ srv.sessions uid = none

/--
One `SESSION` command on connection `k`: it is read in `start`, its reply is on
its way in `replied`, any other handlers run until `resumed`, where the send
returns, and the handling is over in `final`.
-/
structure SessionHandling (k : ConnId) (caller callee : Uid)
    (start replied resumed final : World) : Prop where
  reads : ∃ roomId peer word msg order pick, start.phase k = .running caller roomId .recv ∧
    start.server.peers caller = some peer ∧ peer.status = none ∧ "SESSION".toList <+: msg ∧
    splitMax 1 msg = [word, callee] ∧ start.step (.recv k msg order pick) = some replied
  overlaps : interleaved.Run (fun _ act => act.conn = k → act = .lose k) replied resumed
  ends : ∃ pick, resumed.step (.resume k false pick) = some final

/-- The caller was told `SESSION_OK` and the session was registered, or it was
told an error and the command changed nothing. -/
structure SessionAgreed (k : ConnId) (caller callee : Uid)
    (start replied resumed final : World) : Prop where
  untouched : replied.server = start.server
  outcome :
    (replied.log = start.log ++ [(k, .sessionOk)] ∧
      Available resumed.server caller ∧ Available resumed.server callee ∧
      final.server.sessions = Function.update
        (Function.update resumed.server.sessions caller (some callee)) callee (some caller) ∧
      final.server.rooms = resumed.server.rooms ∧
      ∀ u, u ≠ caller → u ≠ callee → final.server.peers u = resumed.server.peers u) ∨
    (∃ reply, reply.IsError ∧ replied.log = start.log ++ [(k, reply)] ∧
      final.server = resumed.server)

section Frame

variable {w w' : World} {act : Act} {k : ConnId}

/-- Other handlers leave a suspended handler and its pending send as they are. -/
theorem suspended_of_step (h : w.step act = some w') (other : act.conn = k → act = .lose k) :
    w'.phase k = w.phase k ∧ (w'.conns k).usable = (w.conns k).usable := by
  rcases step_cases h with ⟨j, rfl, absent, rfl⟩ | ⟨j, rfl, usable, rfl⟩ | ⟨t, fires, rfl⟩
  · have different : k ≠ j := by
      rintro rfl
      cases other rfl
    exact ⟨by rw [World.phase_setConn, if_neg different], by simp [World.setConn, different]⟩
  · refine ⟨World.phase_lose w j k .gone, ?_⟩
    by_cases same : k = j
    · simp [World.setConn, same]
    · simp [World.setConn, same]
  · have different : k ≠ act.conn := by
      rintro rfl
      rw [other rfl] at fires
      cases fires with
      | loops runs => cases runs
      | sends runs => cases runs
      | leaves runs removed => cases runs
    exact ⟨World.apply_phase_of_ne _ _ _ different, World.apply_usable_of_ne _ _ _ different⟩

theorem suspended_of_run (run : interleaved.Run (fun _ act => act.conn = k → act = .lose k) w w') :
    w'.phase k = w.phase k ∧ (w'.conns k).usable = (w.conns k).usable := by
  refine run.invariant (P := fun v => v.phase k = w.phase k ∧
    (v.conns k).usable = (w.conns k).usable) ⟨rfl, rfl⟩ ?_
  intro state action next same permitted fires
  obtain ⟨phase, usable⟩ := suspended_of_step fires permitted
  exact ⟨phase.trans same.1, usable.trans same.2⟩

/-- A send that returns was made while the server had not closed the socket. -/
theorem usable_of_return {u : Uid} {roomId : Option RoomId} {point : LoopPoint}
    {pick : Option Uid} (waiting : w.phase k = .running u roomId point)
    (h : w.step (.resume k false pick) = some w') : (w.conns k).usable = true := by
  simp only [World.step, World.turn] at h
  split at h
  · next mayReturn =>
      simp only [World.canReturn, waiting, Bool.or_eq_true, Bool.and_eq_true] at mayReturn
      exact mayReturn.elim (fun closing => by cases closing) And.right
  · cases h

end Frame

section Command

variable {srv : WebRTCSimpleServer} {uid callee : Uid} {msg word : Text} {peer : Peer}

/-- The reply to a `SESSION` command depends on the presence of the callee only. -/
theorem connectionHandler_session (ws : ConnId) (roomId : Option RoomId) (order : List Uid)
    (registered : srv.peers uid = some peer)
    (idle : peer.status = none) (command : "SESSION".toList <+: msg)
    (fields : splitMax 1 msg = [word, callee]) :
    connectionHandler srv ws uid roomId order msg =
      some (if (srv.peers callee).isNone then .send srv roomId ws (.notFound callee) .sent
        else .send srv roomId ws .sessionOk (.sessionOk callee)) := by
  have starts : startsWith msg "SESSION".toList = true := startsWith_iff.mpr command
  simp only [connectionHandler, registered, idle, starts, if_true, requestSession, fields]
  simp

end Command

variable {k : ConnId} {caller callee : Uid} {start replied resumed final : World}

/-- What the command has done when its reply has been sent. -/
theorem SessionHandling.replies (h : SessionHandling k caller callee start replied resumed final) :
    replied.server = start.server ∧ ∃ roomId,
      (start.server.peers callee = none ∧ replied.log = start.log ++ [(k, .notFound callee)] ∧
        resumed.phase k = .running caller roomId .sent) ∨
      ((∃ peer, start.server.peers callee = some peer) ∧
        replied.log = start.log ++ [(k, .sessionOk)] ∧
        resumed.phase k = .running caller roomId (.sessionOk callee)) := by
  obtain ⟨roomId, peer, word, msg, order, pick, waiting, registered, idle, command, fields, step⟩ :=
    h.reads
  obtain ⟨phase, usable⟩ := suspended_of_run h.overlaps
  obtain ⟨pick', ends⟩ := h.ends
  -- the send could return, so its reply was put on an open connection
  have logged : ∀ reply next, replied = start.apply k
      (.send start.server k reply (.running caller roomId next)) →
      replied.log = start.log ++ [(k, reply)] ∧
        resumed.phase k = .running caller roomId next := by
    rintro reply next rfl
    rw [World.apply_phase_self] at phase
    rw [usable_of_return phase ends, World.apply_send_usable] at usable
    have opened : start.socket k ≠ .closed := by simpa using usable.symm
    exact ⟨by rw [World.apply_log, World.delivered, if_neg opened], phase⟩
  have turned := connectionHandler_session k roomId order registered idle command fields
  simp only [World.step, World.turn, waiting, turned, Option.bind_some] at step
  cases found : start.server.peers callee with
  | none =>
      simp only [found, Option.isNone_none, if_true, Body.turn, Option.map_some] at step
      have result := (Option.some.inj step).symm
      obtain ⟨log, point⟩ := logged _ _ result
      exact ⟨by rw [result, World.apply_server]; rfl, roomId, Or.inl ⟨rfl, log, point⟩⟩
  | some calleePeer =>
      simp only [found, Option.isNone_some, Body.turn] at step
      have result := (Option.some.inj step).symm
      obtain ⟨log, point⟩ := logged _ _ result
      exact ⟨by rw [result, World.apply_server]; rfl, roomId, Or.inr ⟨⟨_, rfl⟩, log, point⟩⟩

/--
The handling of a `SESSION` command ends in agreement exactly when the callee
was unknown when the command was read, or when both peers are available when
the session is registered.
-/
theorem session_agreed_iff (h : SessionHandling k caller callee start replied resumed final) :
    SessionAgreed k caller callee start replied resumed final ↔
      start.server.peers callee = none ∨
        (Available resumed.server caller ∧ Available resumed.server callee) := by
  obtain ⟨untouched, roomId, sent⟩ := h.replies
  obtain ⟨pick, ends⟩ := h.ends
  constructor
  · rintro ⟨-, ⟨-, callerOk, calleeOk, -⟩ | ⟨reply, error, log, -⟩⟩
    · exact Or.inr ⟨callerOk, calleeOk⟩
    · rcases sent with ⟨absent, -, -⟩ | ⟨-, log', -⟩
      · exact Or.inl absent
      · have same := List.append_cancel_left (log.symm.trans log')
        cases same
        exact error.elim
  · intro condition
    refine ⟨untouched, ?_⟩
    rcases sent with ⟨absent, log, waiting⟩ | ⟨⟨peer, found⟩, log, waiting⟩
    · refine Or.inr ⟨.notFound callee, trivial, log, ?_⟩
      rw [step_of_sent waiting ends, World.apply_server]
      rfl
    · rcases condition with absent | ⟨callerOk, calleeOk⟩
      · exact absurd (absent.symm.trans found) (by simp)
      · obtain ⟨callerPeer, hcaller, -⟩ := callerOk.1
        obtain ⟨calleePeer, hcallee, -⟩ := calleeOk.1
        rcases step_of_sessionOk waiting ends with ⟨srv, linked, rfl⟩ | ⟨missing, -⟩
        · obtain ⟨_, _, -, -, hpeers, hsessions, hrooms⟩ := registerSession_eq linked
          refine Or.inl ⟨log, callerOk, calleeOk, ?_, ?_, ?_⟩
          · rw [World.apply_server]
            exact hsessions
          · rw [World.apply_server]
            exact hrooms
          · intro u notCaller notCallee
            rw [World.apply_server, Turn.server, hpeers]
            simp [notCaller, notCallee]
        · rcases missing with absent | absent
          · exact absurd (absent.symm.trans hcaller) (by simp)
          · exact absurd (absent.symm.trans hcallee) (by simp)

/-- Three clients, with the first one's `SESSION_OK` for the second on its way. -/
def calling : World :=
  (interleaved.exec World.empty (greeting 0 "x" ++ greeting 1 "y" ++ greeting 2 "z" ++
    [.recv 0 "SESSION y".toList [] none])).getD World.empty

/-- The third client has called the second one too. -/
def bothCalling : World := (calling.step (.recv 2 "SESSION y".toList [] none)).getD calling

/-- The session of the first two is registered. -/
def firstLinked : World := (bothCalling.step (.resume 0 false none)).getD bothCalling

theorem calling_reachable : interleaved.Reachable Machine.anyAction calling :=
  Machine.run_of_exec (greeting 0 "x" ++ greeting 1 "y" ++ greeting 2 "z" ++
    [.recv 0 "SESSION y".toList [] none]) (fun _ _ _ => trivial) rfl

/-- The first client's call is handled while nobody else runs. -/
theorem session_agreed_undisturbed :
    ∃ start replied final, SessionHandling 0 "x".toList "y".toList start replied replied final ∧
      (SessionAgreed 0 "x".toList "y".toList start replied replied final ↔
        start.server.peers "y".toList = none ∨
          (Available replied.server "x".toList ∧ Available replied.server "y".toList)) := by
  have handling : SessionHandling 0 "x".toList "y".toList
      ((interleaved.exec World.empty (greeting 0 "x" ++ greeting 1 "y" ++ greeting 2 "z")).getD
        World.empty) calling calling
      ((calling.step (.resume 0 false none)).getD calling) :=
    ⟨⟨none, ⟨0, none⟩, "SESSION".toList, "SESSION y".toList, [], none, rfl, rfl, rfl, by decide,
      by decide, rfl⟩, .refl, none, rfl⟩
  exact ⟨_, _, _, handling, session_agreed_iff handling⟩

/-- Two callers of one callee are both told `SESSION_OK`. -/
theorem session_contended :
    ¬ ∀ k caller callee start replied resumed final,
      interleaved.Reachable Machine.anyAction start →
      SessionHandling k caller callee start replied resumed final →
      SessionAgreed k caller callee start replied resumed final := by
  intro agreed
  have handling : SessionHandling 2 "z".toList "y".toList calling bothCalling firstLinked
      ((firstLinked.step (.resume 2 false none)).getD firstLinked) := by
    refine ⟨⟨none, ⟨2, none⟩, "SESSION".toList, "SESSION y".toList, [], none, rfl, rfl, rfl,
      by decide, by decide, rfl⟩, ?_, none, rfl⟩
    exact Machine.run_of_exec [.resume 0 false none] (by simp [Act.conn]) rfl
  rcases (agreed _ _ _ _ _ _ _ calling_reachable handling).outcome with
    ⟨-, -, ⟨⟨peer, found, idle⟩, -⟩, -⟩ | ⟨reply, error, log, -⟩
  · have busy : firstLinked.server.peers "y".toList = some ⟨1, some inSession⟩ := by decide
    cases busy.symm.trans found
    cases idle
  · have sent : bothCalling.log.getLast? = some (2, .sessionOk) := by decide
    rw [log, List.getLast?_concat] at sent
    cases sent
    exact error

end GstWebrtc.Signalling
