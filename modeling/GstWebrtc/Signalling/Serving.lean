import GstWebrtc.Signalling.Sequential

/-!
# One text, from its receipt to the next

The handler of one connection takes a text and goes on until it waits for the
next text or has ended.  Its sends succeed, and no other handler takes a turn.
-/

namespace GstWebrtc.Signalling

open GstWebrtc.Base GstWebrtc.Base.PyText WebRTCSimpleServer

/-- The states after each turn that handler `k` takes for the text `msg`. -/
inductive Serving (w : World) (k : ConnId) (msg : Text) : World → Prop where
  | takes {order pick w'} (fires : w.step (.recv k msg order pick) = some w') :
      Serving w k msg w'
  | goesOn {v pick w'} (before : Serving w k msg v)
      (fires : v.step (.resume k false pick) = some w') : Serving w k msg w'

/-- The handler is done with the text. -/
def Served (w : World) (k : ConnId) (msg : Text) (w' : World) : Prop :=
  Serving w k msg w' ∧ (w'.phase k).idle = true

/-- The uid and the local `room_id` of a handler that waits for a text. -/
def Phase.reading? : Phase → Option (Uid × Option RoomId)
  | .running uid roomId .recv => some (uid, roomId)
  | _ => none

theorem Phase.reading?_eq_some {phase : Phase} {uid : Uid} {roomId : Option RoomId}
    (reads : phase.reading? = some (uid, roomId)) : phase = .running uid roomId .recv := by
  unfold reading? at reads
  split at reads
  · cases reads
    rfl
  · cases reads

/-- `uid` is registered with connection `k`, whose handler waits for a text. -/
structure Listens (w : World) (k : ConnId) (uid : Uid) (roomId : Option RoomId)
    (status : Option Text) : Prop where
  waiting : w.phase k = .running uid roomId .recv
  registered : w.server.peers uid = some ⟨k, status⟩

/-- The tables as they are and one text sent, after which the handler waits for the next one. -/
def World.replied (w : World) (k : ConnId) (uid : Uid) (roomId : Option RoomId)
    (target : ConnId) (reply : Reply) : World :=
  (w.apply k (.send w.server target reply (.running uid roomId .sent))).apply k
    (.recv w.server (.running uid roomId .recv))

/-- The text is passed over. -/
def World.passed (w : World) (k : ConnId) (uid : Uid) (roomId : Option RoomId) : World :=
  w.apply k (.recv w.server (.running uid roomId .recv))

section Replied

variable (w : World) (k : ConnId) (uid : Uid) (roomId : Option RoomId) (target : ConnId)
  (reply : Reply)

@[simp] theorem World.server_replied : (w.replied k uid roomId target reply).server = w.server :=
  World.apply_server _ _ _

@[simp] theorem World.phase_replied :
    (w.replied k uid roomId target reply).phase k = .running uid roomId .recv :=
  World.apply_phase_self _ _ _

theorem World.log_replied (opened : w.socket target ≠ .closed) :
    (w.replied k uid roomId target reply).log = w.log ++ [(target, reply)] := by
  rw [World.replied, World.apply_log, World.apply_log]
  simp only [World.delivered, if_neg opened, List.append_nil]

@[simp] theorem World.server_passed : (w.passed k uid roomId).server = w.server :=
  World.apply_server _ _ _

@[simp] theorem World.phase_passed :
    (w.passed k uid roomId).phase k = .running uid roomId .recv :=
  World.apply_phase_self _ _ _

@[simp] theorem World.log_passed : (w.passed k uid roomId).log = w.log := by
  rw [World.passed, World.apply_log]
  exact List.append_nil _

end Replied

section Turns

variable {w w' : World} {k : ConnId} {uid : Uid} {roomId roomId' : Option RoomId}
  {status : Option Text} {msg : Text} {target : ConnId} {reply : Reply}

/-- Only a handler in a send or a close goes on. -/
theorem canReturn_of_step {pick : Option Uid} (h : w.step (.resume k false pick) = some w') :
    w.canReturn k = true := by
  simp only [World.step, World.turn] at h
  split at h
  · assumption
  · cases h

theorem Listens.step_eq (listens : Listens w k uid roomId status) (order : List Uid)
    (pick : Option Uid) :
    w.step (.recv k msg order pick) =
      ((connectionHandler w.server k uid roomId order msg).bind (Body.turn uid pick)).map
        (w.apply k) := by
  simp only [World.step, World.turn, listens.waiting, Act.conn]

/-- Nothing follows once the handler waits for its client. -/
theorem Serving.stops {v : World} {pick : Option Uid} (idle : (v.phase k).idle = true)
    (fires : v.step (.resume k false pick) = some w') : False := by
  have busy := busy_of_canReturn (canReturn_of_step fires)
  exact absurd (idle.symm.trans busy) (by decide)

/-- A text that is answered by one send. -/
theorem Listens.serving_send (listens : Listens w k uid roomId status)
    (answers : ∀ order, connectionHandler w.server k uid roomId order msg =
      some (.send w.server roomId' target reply .sent))
    (serving : Serving w k msg w') :
    w' = w.apply k (.send w.server target reply (.running uid roomId' .sent)) ∨
      (w.socket target ≠ .closed ∧ w' = w.replied k uid roomId' target reply) := by
  induction serving with
  | takes fires =>
      rw [listens.step_eq, answers] at fires
      exact Or.inl (Option.some.inj fires).symm
  | goesOn before fires ih =>
      rcases ih with rfl | ⟨-, rfl⟩
      · have sent : (w.apply k (.send w.server target reply (.running uid roomId' .sent))).phase k =
            .running uid roomId' .sent := World.apply_phase_self _ _ _
        refine Or.inr ⟨?_, ?_⟩
        · have returns := canReturn_of_step fires
          simpa [World.canReturn, sent, Phase.inSend, Phase.inClose, World.apply_send_usable]
            using returns
        · rw [step_of_sent sent fires, World.apply_server]
          rfl
      · exact (Serving.stops (by rw [World.phase_replied]; rfl) fires).elim

theorem Listens.served_send (listens : Listens w k uid roomId status)
    (answers : ∀ order, connectionHandler w.server k uid roomId order msg =
      some (.send w.server roomId' target reply .sent)) :
    Served w k msg w' ↔
      w.socket target ≠ .closed ∧ w' = w.replied k uid roomId' target reply := by
  constructor
  · rintro ⟨serving, idle⟩
    rcases listens.serving_send answers serving with rfl | done
    · rw [World.apply_phase_self] at idle
      cases idle
    · exact done
  · rintro ⟨opened, rfl⟩
    let sending := w.apply k (.send w.server target reply (.running uid roomId' .sent))
    have sends : w.step (.recv k msg [] none) = some sending := by
      rw [listens.step_eq, answers]
      rfl
    have waiting : sending.phase k = .running uid roomId' .sent := World.apply_phase_self _ _ _
    have usable : (sending.conns k).usable = true := by
      simpa [sending, World.apply_send_usable] using opened
    have returns : sending.step (.resume k false none) =
        some (w.replied k uid roomId' target reply) := by
      simp [World.step, World.turn, World.canReturn, waiting, usable, Phase.inSend, Act.conn,
        sending, Turn.server, World.replied]
    exact ⟨.goesOn (.takes sends) returns, by rw [World.phase_replied]; rfl⟩

/-- A text that is ignored. -/
theorem Listens.serving_pass (listens : Listens w k uid roomId status)
    (ignores : ∀ order, connectionHandler w.server k uid roomId order msg =
      some (.recv w.server roomId)) :
    Serving w k msg w' ↔ w' = w.passed k uid roomId := by
  constructor
  · intro serving
    induction serving with
    | takes fires =>
        rw [listens.step_eq, ignores] at fires
        exact (Option.some.inj fires).symm
    | goesOn before fires ih =>
        subst ih
        exact (Serving.stops (by rw [World.phase_passed]; rfl) fires).elim
  · rintro rfl
    have passes : w.step (.recv k msg [] none) = some (w.passed k uid roomId) := by
      rw [listens.step_eq, ignores]
      rfl
    exact .takes passes

end Turns

/-! ## The loops can always go on -/

theorem exists_announceLeft {srv : WebRTCSimpleServer} {room : RoomId} {set : PySet Uid}
    (found : srv.rooms room = some set) (uid : Uid) (ws : ConnId) (it : Iter Uid) :
    ∃ pick t, announceLeft srv uid ws room it pick = some t := by
  obtain ⟨pick, result, asked, -⟩ := it.exists_next set
  refine ⟨pick, ?_⟩
  simp only [announceLeft, found, asked, Option.map_some]
  exact ⟨_, rfl⟩

theorem exists_removeEntry (srv : WebRTCSimpleServer) (uid : Uid) :
    ∃ pick t, removeEntry srv uid pick = some t := by
  unfold removeEntry
  split
  · exact ⟨none, _, rfl⟩
  · split
    · exact ⟨none, _, rfl⟩
    · split
      · unfold cleanupRoom
        split
        · exact ⟨none, _, rfl⟩
        · split
          · exact ⟨none, _, rfl⟩
          · exact exists_announceLeft (Function.update_self _ _ _) _ _ _
      · exact ⟨none, _, rfl⟩

/-- `remove_peer` always begins. -/
theorem exists_removePeer (srv : WebRTCSimpleServer) (uid : Uid) :
    ∃ pick t, removePeer srv uid pick = some t := by
  unfold removePeer
  split
  · exact exists_removeEntry _ uid
  · exact ⟨none, _, rfl⟩

end GstWebrtc.Signalling
