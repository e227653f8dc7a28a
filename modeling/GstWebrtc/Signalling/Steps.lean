import GstWebrtc.Signalling.Branches
import GstWebrtc.Signalling.Interleaving

/-!
# What one step can do

Inversion of the executable step: which stretch of the handler's code runs, what
it found in the tables, and how it ends.
-/

namespace GstWebrtc.Signalling

open GstWebrtc.Base GstWebrtc.Base.PyText WebRTCSimpleServer

/-- The stretches of `connection_handler` that can run next, each with how it ends. -/
inductive Runs (w : World) (uid : Uid) (roomId : Option RoomId) : Act → Body → Prop where
  | message {k msg order pick body} (waiting : w.phase k = .running uid roomId .recv)
      (handled : Handled w.server k uid roomId order msg body) :
      Runs w uid roomId (.recv k msg order pick) body
  | closed {k pick} (unusable : w.socket k ≠ .open)
      (waiting : w.phase k = .running uid roomId .recv) :
      Runs w uid roomId (.closed k pick) (.raise w.server .connectionClosed)
  | raised {k pick point} (mayRaise : w.canRaise k = true)
      (waiting : w.phase k = .running uid roomId point) :
      Runs w uid roomId (.resume k true pick) (.raise w.server .connectionClosed)
  | continued {k pick point} (mayReturn : w.canReturn k = true)
      (waiting : w.phase k = .running uid roomId point) (plain : point = .ping ∨ point = .sent) :
      Runs w uid roomId (.resume k false pick) (.recv w.server roomId)
  | session {k pick callee srv} (mayReturn : w.canReturn k = true)
      (waiting : w.phase k = .running uid roomId (.sessionOk callee))
      (linked : w.server.registerSession uid callee = some srv) :
      Runs w uid roomId (.resume k false pick) (.recv srv roomId)
  | sessionFailed {k pick callee} (mayReturn : w.canReturn k = true)
      (waiting : w.phase k = .running uid roomId (.sessionOk callee))
      (missing : w.server.peers uid = none ∨ w.server.peers callee = none) :
      Runs w uid roomId (.resume k false pick) (.raise w.server .keyError)
  | room {k pick room body} (mayReturn : w.canReturn k = true)
      (waiting : w.phase k = .running uid roomId (.roomOk room))
      (entered : RoomEntered w.server uid roomId room body) :
      Runs w uid roomId (.resume k false pick) body
  | joined {k pick room it body} (mayReturn : w.canReturn k = true)
      (waiting : w.phase k = .running uid roomId (.joined room it))
      (announced : JoinAnnounced w.server uid roomId room it body) :
      Runs w uid roomId (.resume k false pick) body

/-- The handler's code behind each turn. -/
inductive Fires (w : World) : Act → Turn → Prop where
  | greeted {k msg order pick uid} (waiting : w.phase k = .hello)
      (fields : splitMax 1 msg = ["HELLO".toList, uid]) (absent : w.server.peers uid = none)
      (word : Word uid) :
      Fires w (.recv k msg order pick) (.send w.server k .hello (.ack uid))
  | refused {k msg order pick} (waiting : w.phase k = .hello) :
      Fires w (.recv k msg order pick) (.close w.server k .reject)
  | helloFailed {k msg order pick} (waiting : w.phase k = .hello) :
      Fires w (.recv k msg order pick) (.stop w.server none)
  | helloClosed {k pick} (unusable : w.socket k ≠ .open) (waiting : w.phase k = .hello) :
      Fires w (.closed k pick) (.stop w.server none)
  | rejected {k raises pick} (waiting : w.phase k = .reject) :
      Fires w (.resume k raises pick) (.stop w.server none)
  | ackFailed {k pick uid} (mayRaise : w.canRaise k = true) (waiting : w.phase k = .ack uid) :
      Fires w (.resume k true pick) (.stop w.server none)
  | registered {k pick uid} (mayReturn : w.canReturn k = true) (waiting : w.phase k = .ack uid) :
      Fires w (.resume k false pick)
        (.recv (w.server.register k uid) (.running uid none .recv))
  | timeout {k uid roomId} (waiting : w.phase k = .running uid roomId .recv) :
      Fires w (.timeout k) (.ping w.server (.running uid roomId .ping))
  | loops {act uid roomId srv roomId'} (runs : Runs w uid roomId act (.recv srv roomId')) :
      Fires w act (.recv srv (.running uid roomId' .recv))
  | sends {act uid roomId srv roomId' target reply next}
      (runs : Runs w uid roomId act (.send srv roomId' target reply next)) :
      Fires w act (.send srv target reply (.running uid roomId' next))
  | leaves {act uid roomId srv exn t} (runs : Runs w uid roomId act (.raise srv exn))
      (removed : Removed srv uid t) : Fires w act t
  | partnerClosed {k pick uid t} (mayReturn : w.canReturn k = true)
      (waiting : w.phase k = .leaving uid .partner) (removed : EntryRemoved w.server uid t) :
      Fires w (.resume k false pick) t
  | leftSent {k pick uid ws room it t} (mayReturn : w.canReturn k = true)
      (waiting : w.phase k = .leaving uid (.left ws room it))
      (announced : LeftAnnounced w.server uid ws room it t) :
      Fires w (.resume k false pick) t
  | leaveRaised {k pick uid point} (mayRaise : w.canRaise k = true)
      (waiting : w.phase k = .leaving uid point) :
      Fires w (.resume k true pick) (.stop w.server (some uid))
  | finished {k pick uid} (waiting : w.phase k = .leaving uid .close) :
      Fires w (.resume k false pick) (.stop w.server (some uid))

theorem Runs.running {w : World} {uid : Uid} {roomId : Option RoomId} {act : Act} {body : Body}
    (h : Runs w uid roomId act body) : ∃ point, w.phase act.conn = .running uid roomId point := by
  cases h <;> exact ⟨_, by assumption⟩

theorem Runs.past {w : World} {uid : Uid} {roomId : Option RoomId} {act : Act} {body : Body}
    (runs : Runs w uid roomId act body) : (w.phase act.conn).past? = some uid := by
  obtain ⟨point, waiting⟩ := runs.running
  rw [waiting]
  rfl

theorem helloPeer_fires {w : World} {k : ConnId} (waiting : w.phase k = .hello) (msg : Text)
    (order : List Uid) (pick : Option Uid) :
    Fires w (.recv k msg order pick) (helloPeer w.server k msg) := by
  rcases helloPeer_cases w.server k msg with h | h | ⟨uid, fields, absent, word, h⟩
  · rw [h]
    exact .helloFailed waiting
  · rw [h]
    exact .refused waiting
  · rw [h]
    exact .greeted waiting fields absent word

/-- An exception in the handler's loop takes it to `remove_peer`. -/
theorem Runs.fires {w : World} {uid : Uid} {roomId : Option RoomId} {act : Act} {body : Body}
    {pick : Option Uid} {t : Turn} (runs : Runs w uid roomId act body)
    (turns : body.turn uid pick = some t) : Fires w act t := by
  cases body with
  | recv srv roomId' =>
      cases turns
      exact .loops runs
  | send srv roomId' target reply next =>
      cases turns
      exact .sends runs
  | raise srv exn => exact .leaves runs (removePeer_removed turns)

theorem turn_fires {w : World} {act : Act} {t : Turn} (h : w.turn act = some t) :
    Fires w act t := by
  cases act with
  | connect k => cases h
  | lose k => cases h
  | recv k msg order pick =>
      simp only [World.turn] at h
      split at h
      · next waiting =>
          cases h
          exact helloPeer_fires waiting msg order pick
      · next waiting =>
          obtain ⟨body, handled, turns⟩ := Option.bind_eq_some_iff.mp h
          exact (Runs.message waiting (connectionHandler_handled handled)).fires turns
      · cases h
  | timeout k =>
      simp only [World.turn] at h
      split at h
      · next waiting =>
          cases h
          exact .timeout waiting
      · cases h
  | closed k pick =>
      simp only [World.turn] at h
      split at h
      · cases h
      · next unusable =>
          split at h
          · next waiting =>
              cases h
              exact .helloClosed unusable waiting
          · next waiting => exact .leaves (.closed unusable waiting) (removePeer_removed h)
          · cases h
  | resume k raises pick =>
      cases raises with
      | true =>
          simp only [World.turn] at h
          split at h
          · next mayRaise =>
              split at h
              · next waiting =>
                  cases h
                  exact .rejected waiting
              · next waiting =>
                  cases h
                  exact .ackFailed mayRaise waiting
              · next waiting => exact .leaves (.raised mayRaise waiting) (removePeer_removed h)
              · next waiting =>
                  cases h
                  exact .leaveRaised mayRaise waiting
              · cases h
          · cases h
      | false =>
          simp only [World.turn] at h
          split at h
          · next mayReturn =>
              split at h
              · next waiting =>
                  cases h
                  exact .rejected waiting
              · next waiting =>
                  cases h
                  exact .registered mayReturn waiting
              · next waiting =>
                  cases h
                  exact .loops (.continued mayReturn waiting (Or.inl rfl))
              · next waiting =>
                  cases h
                  exact .loops (.continued mayReturn waiting (Or.inr rfl))
              · next uid roomId callee waiting =>
                  rcases establishSession_cases w.server uid callee roomId with
                    ⟨srv, linked, result⟩ | ⟨missing, result⟩
                  · rw [result] at h
                    exact (Runs.session mayReturn waiting linked).fires h
                  · rw [result] at h
                    exact (Runs.sessionFailed mayReturn waiting missing).fires h
              · next waiting =>
                  obtain ⟨body, entered, turns⟩ := Option.bind_eq_some_iff.mp h
                  exact (Runs.room mayReturn waiting (establishRoom_entered entered)).fires turns
              · next waiting =>
                  obtain ⟨body, announced, turns⟩ := Option.bind_eq_some_iff.mp h
                  exact (Runs.joined mayReturn waiting
                    (announceJoined_announced announced)).fires turns
              · next waiting => exact .partnerClosed mayReturn waiting (removeEntry_removed h)
              · next waiting => exact .leftSent mayReturn waiting (announceLeft_announced h)
              · next waiting =>
                  cases h
                  exact .finished waiting
              · cases h
          · cases h

/-- The three kinds of step: a new connection, a lost one, and a handler's turn. -/
theorem step_cases {w w' : World} {act : Act} (h : w.step act = some w') :
    (∃ k, act = .connect k ∧ w.phase k = .absent ∧
      w' = w.setConn k ⟨.open, .hello, k, true⟩) ∨
    (∃ k, act = .lose k ∧ w.socket k = .open ∧
      w' = w.setConn k { w.conns k with socket := .gone }) ∨
    (∃ t, Fires w act t ∧ w' = w.apply act.conn t) := by
  cases act with
  | connect k =>
      simp only [World.step] at h
      split at h
      · next absent => exact Or.inl ⟨k, rfl, absent, (Option.some.inj h).symm⟩
      · cases h
  | lose k =>
      simp only [World.step] at h
      split at h
      · next usable => exact Or.inr (Or.inl ⟨k, rfl, usable, (Option.some.inj h).symm⟩)
      · cases h
  | _ =>
      simp only [World.step, Option.map_eq_some_iff] at h
      obtain ⟨t, turns, result⟩ := h
      exact Or.inr (Or.inr ⟨t, turn_fires turns, result.symm⟩)

section Resume

variable {w w' : World} {k : ConnId} {u : Uid} {pick : Option Uid}

/-- After a reply the handler goes back to its `recv`. -/
theorem step_of_sent {roomId : Option RoomId} (waiting : w.phase k = .running u roomId .sent)
    (h : w.step (.resume k false pick) = some w') :
    w' = w.apply k (.recv w.server (.running u roomId .recv)) := by
  simp only [World.step, World.turn, waiting] at h
  split at h
  · exact (Option.some.inj h).symm
  · cases h

/-- After `SESSION_OK` was sent the handler registers the session, or a lookup fails. -/
theorem step_of_sessionOk {roomId : Option RoomId} {callee : Uid}
    (waiting : w.phase k = .running u roomId (.sessionOk callee))
    (h : w.step (.resume k false pick) = some w') :
    (∃ srv, w.server.registerSession u callee = some srv ∧
      w' = w.apply k (.recv srv (.running u roomId .recv))) ∨
    ((w.server.peers u = none ∨ w.server.peers callee = none) ∧
      ∃ t, Removed w.server u t ∧ w' = w.apply k t) := by
  simp only [World.step, World.turn, waiting] at h
  split at h
  · rcases establishSession_cases w.server u callee roomId with
      ⟨srv, linked, result⟩ | ⟨missing, result⟩
    · rw [result] at h
      exact Or.inl ⟨srv, linked, (Option.some.inj h).symm⟩
    · rw [result] at h
      obtain ⟨t, removed, applied⟩ := Option.map_eq_some_iff.mp h
      exact Or.inr ⟨missing, t, removePeer_removed removed, applied.symm⟩
  · cases h

end Resume

/-! ## Checked runs of the first connections -/

/-- A client connects and is registered. -/
def greeting (k : ConnId) (uid : String) : List Act :=
  [.connect k, .recv k ("HELLO ".toList ++ uid.toList) [] none, .resume k false none]

/-- Connections from `n` on do not exist. -/
def AbsentFrom (n : Nat) (w : World) : Prop := ∀ k, n ≤ k → w.phase k = .absent

section Checked

variable {n : Nat} {w w' : World} {act : Act}

theorem AbsentFrom.step (absent : AbsentFrom n w) (used : act.conn < n)
    (h : w.step act = some w') : AbsentFrom n w' := by
  intro k hk
  have other : k ≠ act.conn := fun same => absurd used (Nat.not_lt.mpr (same ▸ hk))
  rcases step_cases h with ⟨j, rfl, -, rfl⟩ | ⟨j, rfl, -, rfl⟩ | ⟨t, -, rfl⟩
  · rw [World.phase_setConn]
    exact (if_neg other).trans (absent k hk)
  · rw [World.phase_lose]
    exact absent k hk
  · rw [World.apply_phase_of_ne _ _ _ other]
    exact absent k hk

/-- A checked list of actions of `n` connections is a restricted run. -/
theorem exists_below {check : World → Act → Bool} {allowed : World → Act → Prop}
    (below : ∀ w act, check w act = true → act.conn < n)
    (sound : ∀ w act, AbsentFrom n w → check w act = true → allowed w act)
    (actions : List Act) (test : World → Bool)
    (passes : (interleaved.execIf check World.empty actions).any test = true) :
    ∃ w, interleaved.Reachable allowed w ∧ AbsentFrom n w ∧ test w = true := by
  cases done : interleaved.execIf check World.empty actions with
  | none => simp [done] at passes
  | some w =>
      have run : interleaved.Reachable allowed w ∧ AbsentFrom n w :=
        interleaved.run_of_execIf (AbsentFrom n) sound
          (fun _ _ _ absent ok fires => absent.step (below _ _ ok) fires)
          actions (fun _ _ => rfl) done
      exact ⟨w, run.1, run.2, by simpa [done] using passes⟩

/-- The same for actions that are checked and are of the first `n` connections. -/
theorem exists_of_checked (check : World → Act → Bool) {allowed : World → Act → Prop}
    (sound : ∀ w act, AbsentFrom n w → check w act = true → allowed w act)
    (actions : List Act) (test : World → Bool)
    (passes : (interleaved.execIf (fun w act => decide (act.conn < n) && check w act)
      World.empty actions).any test = true) :
    ∃ w, interleaved.Reachable allowed w ∧ AbsentFrom n w ∧ test w = true :=
  exists_below (fun _ _ ok => of_decide_eq_true (Bool.and_eq_true_iff.mp ok).1)
    (fun w act absent ok => sound w act absent (Bool.and_eq_true_iff.mp ok).2)
    actions test passes

end Checked

end GstWebrtc.Signalling
