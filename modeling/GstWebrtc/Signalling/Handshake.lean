import GstWebrtc.Signalling.ClientMail

/-!
# The handler's part of the handshake

How the handler of a connection gets from `HELLO` to its `ROOM` command: which
room its local variable names, and when it stops reading.
-/

namespace GstWebrtc.Signalling

open GstWebrtc.Base GstWebrtc.Base.PyText WebRTCSimpleServer

/-- The handler has registered its uid, or is about to, and has read no `ROOM` command. -/
def Phase.unasked : Phase → Bool
  | .ack _ | .running _ none _ => true
  | _ => false

/-- The handler reads no more messages. -/
def Phase.ended : Phase → Bool
  | .reject | .leaving _ _ | .done _ => true
  | _ => false

/-- What becomes of the handshake when the handler of the acting connection goes on. -/
inductive Advances (act : Act) : Phase → Phase → Prop where
  | ends {before after} (ended : after.ended = true) : Advances act before after
  | greets {msg order pick uid} (read : act = .recv act.conn msg order pick)
      (fields : splitMax 1 msg = ["HELLO".toList, uid]) : Advances act .hello (.ack uid)
  | waits {before after} (was : before.unasked = true) (still : after.unasked = true)
      (named : ∀ u, after = .ack u → before = .ack u) : Advances act before after
  | asks {uid point room point' msg order pick} (read : act = .recv act.conn msg order pick)
      (command : "ROOM".toList <+: msg) :
      Advances act (.running uid none point) (.running uid (some room) point')
  | stays {uid room room' point point'} :
      Advances act (.running uid (some room) point) (.running uid (some room') point')

section Handshake

variable {w : World} {act : Act} {t : Turn}

theorem Phase.Departing.ended {uid : Uid} {phase : Phase} (h : phase.Departing uid) :
    phase.ended = true := by
  rcases h with ⟨point, rfl⟩ | rfl <;> rfl

/-- The local `room_id` with which the loop goes on. -/
def Body.loopRoom : Body → Option (Option RoomId)
  | .recv _ roomId | .send _ roomId _ _ _ => some roomId
  | .raise _ _ => none

theorem JoinAnnounced.loopRoom {srv : WebRTCSimpleServer} {uid : Uid}
    {roomId roomId' : Option RoomId} {room : RoomId} {it : Iter Uid} {body : Body}
    (h : JoinAnnounced srv uid roomId room it body) (loops : body.loopRoom = some roomId') :
    roomId' = roomId := by
  cases h <;> cases loops <;> rfl

/-- A handler that stays in its loop has its room still, or has read a `ROOM` command. -/
theorem Runs.loopRoom {uid : Uid} {roomId roomId' : Option RoomId} {body : Body}
    (runs : Runs w uid roomId act body) (loops : body.loopRoom = some roomId') :
    roomId' = roomId ∨ ∃ msg order pick room, act = .recv act.conn msg order pick ∧
      "ROOM".toList <+: msg ∧ roomId' = some room := by
  cases runs with
  | message waiting handled =>
      cases handled with
      | raise reason => cases loops
      | invalidRoom registered idle command fields invalid =>
          cases loops
          exact Or.inr ⟨_, _, _, _, rfl, command, rfl⟩
      | newRoom registered idle command fields valid notSession absent lists =>
          cases loops
          exact Or.inr ⟨_, _, _, _, rfl, command, rfl⟩
      | oldRoom registered idle command fields valid notSession found fresh lists =>
          cases loops
          exact Or.inr ⟨_, _, _, _, rfl, command, rfl⟩
      | _ =>
          cases loops
          exact Or.inl rfl
  | room mayReturn waiting entered =>
      cases entered with
      | entered registered found announced => exact Or.inl (announced.loopRoom loops)
      | _ => cases loops
  | joined mayReturn waiting announced => exact Or.inl (announced.loopRoom loops)
  | _ =>
      cases loops
      try exact Or.inl rfl

theorem Runs.advances {uid : Uid} {roomId roomId' : Option RoomId} {body : Body}
    {point : LoopPoint} (runs : Runs w uid roomId act body)
    (loops : body.loopRoom = some roomId') :
    Advances act (w.phase act.conn) (.running uid roomId' point) := by
  obtain ⟨before, waiting⟩ := runs.running
  rw [waiting]
  rcases runs.loopRoom loops with rfl | ⟨msg, order, pick, room, read, command, rfl⟩
  · cases roomId' with
    | none => exact .waits rfl rfl (by rintro u ⟨⟩)
    | some room => exact .stays
  · cases roomId with
    | none => exact .asks read command
    | some old => exact .stays

theorem Fires.advances (fires : Fires w act t) : Advances act (w.phase act.conn) t.phase := by
  cases fires with
  | greeted waiting fields absent word =>
      rw [Act.conn, waiting]
      exact .greets rfl fields
  | registered mayReturn waiting =>
      rw [Act.conn, waiting]
      exact .waits rfl rfl (by rintro u ⟨⟩)
  | @timeout k uid roomId waiting =>
      rw [Act.conn, waiting]
      cases roomId with
      | none => exact .waits rfl rfl (by rintro u ⟨⟩)
      | some room => exact .stays
  | loops runs => exact runs.advances rfl
  | sends runs => exact runs.advances rfl
  | leaves runs removed => exact .ends (removed.departing.ended)
  | partnerClosed mayReturn waiting removed => exact .ends (removed.departing.ended)
  | leftSent mayReturn waiting announced => exact .ends (announced.departing.ended)
  | _ => exact .ends rfl

theorem Phase.unasked_of_ended {phase : Phase} (h : phase.ended = true) :
    phase.unasked = false := by
  cases phase with
  | running u roomId point => cases h
  | ack u => cases h
  | _ => rfl

/-- A handler that reads no more never reads again. -/
theorem Advances.ended {before after : Phase} (h : Advances act before after)
    (ended : before.ended = true) : after.ended = true := by
  cases h with
  | ends later => exact later
  | greets read fields => cases ended
  | waits was still named => cases was.symm.trans (Phase.unasked_of_ended ended)
  | asks read command => cases ended
  | stays => cases ended

theorem phase_connect {w' : World} {k : ConnId} (h : w.step (.connect k) = some w') :
    w.phase k = .absent ∧ w'.phase k = .hello := by
  rcases step_cases h with ⟨j, same, absent, rfl⟩ | ⟨j, other, -⟩ | ⟨t, fires, -⟩
  · cases same
    exact ⟨absent, by simp [World.phase_setConn]⟩
  · cases other
  · cases fires with
    | loops runs => cases runs
    | sends runs => cases runs
    | leaves runs removed => cases runs

/-- How the phase of one connection changes in a step. -/
theorem phase_step {w' : World} (h : w.step act = some w') (k : ConnId) :
    (w'.phase k = w.phase k ∧ ∀ msg order pick, act ≠ .recv k msg order pick) ∨
    (act = .connect k ∧ w.phase k = .absent ∧ w'.phase k = .hello) ∨
    ((∀ j, act ≠ .connect j) ∧ act.conn = k ∧ Advances act (w.phase k) (w'.phase k)) := by
  rcases step_cases h with ⟨j, rfl, absent, rfl⟩ | ⟨j, rfl, usable, rfl⟩ | ⟨t, fires, rfl⟩
  · by_cases self : k = j
    · subst self
      exact Or.inr (Or.inl ⟨rfl, absent, by simp [World.phase_setConn]⟩)
    · exact Or.inl ⟨by simp [World.phase_setConn, self], by simp⟩
  · exact Or.inl ⟨World.phase_lose w j k .gone, by simp⟩
  · by_cases self : k = act.conn
    · subst self
      refine Or.inr (Or.inr ⟨?_, rfl, ?_⟩)
      · rintro j rfl
        cases fires with
        | loops runs => cases runs
        | sends runs => cases runs
        | leaves runs removed => cases runs
      · rw [World.apply_phase_self]
        exact fires.advances
    · refine Or.inl ⟨World.apply_phase_of_ne _ _ _ self, ?_⟩
      rintro msg order pick rfl
      exact self rfl

/-- What a step adds to the log was sent by a handler's turn. -/
theorem send_of_log {w' : World} {k : ConnId} {reply : Reply} (h : w.step act = some w')
    (sent : w'.log = w.log ++ [(k, reply)]) :
    ∃ srv phase, Fires w act (.send srv k reply phase) ∧
      w' = w.apply act.conn (.send srv k reply phase) := by
  rcases step_cases h with ⟨j, -, -, rfl⟩ | ⟨j, -, -, rfl⟩ | ⟨t, fires, rfl⟩
  · rw [World.log_setConn] at sent
    simp at sent
  · rw [World.log_setConn] at sent
    simp at sent
  · rw [World.apply_log] at sent
    have delivered := List.append_cancel_left sent
    unfold World.delivered at delivered
    split at delivered
    · split at delivered
      · cases delivered
      · cases delivered
        exact ⟨_, _, fires, rfl⟩
    · cases delivered

/-- Nothing is sent on a connection before its handler has read `HELLO`. -/
theorem mail_of_fresh {w' : World} {k : ConnId} (heard : Heard k w)
    (mail : w.mailTo k = []) (h : w.step act = some w')
    (fresh : w'.phase k = .absent ∨ w'.phase k = .hello) : w'.mailTo k = [] := by
  rcases step_cases h with ⟨j, rfl, absent, rfl⟩ | ⟨j, rfl, usable, rfl⟩ | ⟨t, fires, rfl⟩
  · exact mail
  · exact mail
  · rcases World.mailTo_apply w act.conn k t with silent | ⟨srv, reply, phase, rfl, -⟩
    · rw [silent]
      exact mail
    · exfalso
      by_cases self : k = act.conn
      · subst self
        rw [World.apply_phase_self] at fresh
        have advances := fires.advances
        generalize (Turn.send srv act.conn reply phase).phase = after at advances fresh
        generalize w.phase act.conn = before at advances
        cases advances with
        | ends ended => rcases fresh with rfl | rfl <;> cases ended
        | waits was still named => rcases fresh with rfl | rfl <;> cases still
        | _ => rcases fresh with phase | phase <;> cases phase
      · rw [World.apply_phase_of_ne _ _ _ self] at fresh
        rcases fires.target with ⟨own, -⟩ | ⟨v, peer, found, own⟩
        · exact self own
        · have past := (heard.orderly.mail.rooms.owner v peer found).1
          rw [own] at past
          rcases fresh with phase | phase <;> rw [phase] at past <;> cases past

end Handshake

end GstWebrtc.Signalling
