import GstWebrtc.Signalling.Ownership

/-!
# Messages handled to completion

A run is sequential when a handler takes a message, a timeout or the end of its
connection only while every handler waits for its own client, and when a send
fails only on a socket that the server has closed itself.
-/

namespace GstWebrtc.Signalling

open GstWebrtc.Base GstWebrtc.Base.PyText WebRTCSimpleServer

/-- The handler waits for its client, or has nothing to do. -/
def Phase.idle : Phase → Bool
  | absent | hello | running _ _ .recv | done _ => true
  | _ => false

namespace World

/-- No handler is in the middle of a message or a cleanup. -/
def Quiet (w : World) : Prop := ∀ k, (w.phase k).idle = true

/-- At most one handler is in the middle of something. -/
def Serial (w : World) : Prop :=
  ∀ j k, (w.phase j).idle = false → (w.phase k).idle = false → j = k

end World

def Sequential (w : World) : Act → Prop
  | .connect _ | .lose _ => True
  | .recv _ _ _ _ | .timeout _ | .closed _ _ => w.Quiet
  | .resume k raises _ => raises = true → (w.phase k).inSend = true ∧ (w.conns k).usable = false

theorem Phase.busy_of_awaits {phase : Phase} (h : phase.inSend = true ∨ phase.inClose = true) :
    phase.idle = false := by
  cases phase with
  | running uid roomId point => cases point <;> simp_all [inSend, inClose, idle]
  | leaving uid point => rfl
  | _ => simp_all [inSend, inClose, idle]

/-- A registered handler that is idle waits for its client. -/
theorem Phase.running_of_idle {phase : Phase} {u : Uid} (h : phase.idle = true)
    (past : phase.past? = some u) : ∃ roomId, phase = .running u roomId .recv := by
  cases phase with
  | running v roomId point =>
      cases past
      cases point with
      | recv => exact ⟨roomId, rfl⟩
      | _ => cases h
  | leaving v point => cases h
  | _ => cases past

section Step

variable {w w' : World} {k : ConnId} {act : Act} {t : Turn}

theorem busy_of_canReturn (h : w.canReturn k = true) : (w.phase k).idle = false := by
  refine Phase.busy_of_awaits ?_
  simp only [World.canReturn, Bool.or_eq_true, Bool.and_eq_true] at h
  exact h.elim Or.inr fun h => Or.inl h.1

theorem busy_of_canRaise (h : w.canRaise k = true) : (w.phase k).idle = false := by
  refine Phase.busy_of_awaits ?_
  simp only [World.canRaise, Bool.or_eq_true, Bool.and_eq_true] at h
  exact h.elim (fun h => Or.inr h.1) fun h => Or.inl h.1

theorem Runs.busy {uid : Uid} {roomId : Option RoomId} {raises : Bool} {pick : Option Uid}
    {body : Body} (h : Runs w uid roomId (.resume k raises pick) body) :
    (w.phase k).idle = false := by
  cases h with
  | raised mayRaise waiting => exact busy_of_canRaise mayRaise
  | continued mayReturn waiting plain => exact busy_of_canReturn mayReturn
  | session mayReturn waiting linked => exact busy_of_canReturn mayReturn
  | sessionFailed mayReturn waiting missing => exact busy_of_canReturn mayReturn
  | room mayReturn waiting entered => exact busy_of_canReturn mayReturn
  | joined mayReturn waiting announced => exact busy_of_canReturn mayReturn

/-- Only a suspended send or close is resumed. -/
theorem Fires.busy {raises : Bool} {pick : Option Uid} (h : Fires w (.resume k raises pick) t) :
    (w.phase k).idle = false := by
  cases h with
  | loops runs => exact runs.busy
  | sends runs => exact runs.busy
  | leaves runs removed => exact runs.busy
  | rejected waiting => rw [waiting]; rfl
  | ackFailed mayRaise waiting => rw [waiting]; rfl
  | registered mayReturn waiting => rw [waiting]; rfl
  | partnerClosed mayReturn waiting removed => rw [waiting]; rfl
  | leftSent mayReturn waiting announced => rw [waiting]; rfl
  | leaveRaised mayRaise waiting => rw [waiting]; rfl
  | finished waiting => rw [waiting]; rfl

/-- In a sequential run all other handlers are idle while one takes its turn. -/
theorem others_idle (serial : w.Serial) (seq : Sequential w act) (h : Fires w act t) :
    ∀ j, j ≠ act.conn → (w.phase j).idle = true := by
  intro j other
  cases act with
  | connect k => cases h with
    | loops runs => cases runs
    | sends runs => cases runs
    | leaves runs removed => cases runs
  | lose k => cases h with
    | loops runs => cases runs
    | sends runs => cases runs
    | leaves runs removed => cases runs
  | recv k msg order pick => exact seq j
  | timeout k => exact seq j
  | closed k pick => exact seq j
  | resume k raises pick =>
      by_contra busy
      exact other (serial j k (Bool.eq_false_of_not_eq_true busy) h.busy)

/-- What the environment does by itself: a connection is made, or lost. -/
structure Environment (w w' : World) : Prop where
  server : w'.server = w.server
  log : w'.log = w.log
  conns : ∀ j, (w'.phase j = w.phase j ∧ (w'.conns j).usable = (w.conns j).usable) ∨
    (w.phase j = .absent ∧ w'.phase j = .hello ∧ w'.socket j ≠ .closed)
  sockets : ∀ j, w'.socket j = .closed → w.socket j = .closed

theorem environment_connect (absent : w.phase k = .absent) :
    Environment w (w.setConn k ⟨.open, .hello, k, true⟩) where
  server := rfl
  log := rfl
  conns j := by
    by_cases same : j = k
    · subst same
      exact Or.inr ⟨absent, by simp [World.phase_setConn], by simp [World.socket_setConn]⟩
    · exact Or.inl ⟨by simp [World.phase_setConn, same], by simp [World.setConn, same]⟩
  sockets j closed := by
    rw [World.socket_setConn] at closed
    split at closed
    · cases closed
    · exact closed

theorem environment_lose :
    Environment w (w.setConn k { w.conns k with socket := .gone }) where
  server := rfl
  log := rfl
  conns j := by
    refine Or.inl ⟨World.phase_lose w k j .gone, ?_⟩
    by_cases same : j = k
    · subst same
      simp [World.setConn]
    · simp [World.setConn, same]
  sockets j closed := by
    rw [World.socket_setConn] at closed
    split at closed
    · cases closed
    · exact closed

/-- A sequential step: the environment's part, or a turn that no other handler overlaps. -/
theorem sequential_cases (serial : w.Serial) (seq : Sequential w act)
    (h : w.step act = some w') :
    Environment w w' ∨
    (∃ t, Fires w act t ∧ w' = w.apply act.conn t ∧
      ∀ j, j ≠ act.conn → (w.phase j).idle = true) := by
  rcases step_cases h with ⟨k, rfl, absent, rfl⟩ | ⟨k, rfl, usable, rfl⟩ | ⟨t, fires, rfl⟩
  · exact Or.inl (environment_connect absent)
  · exact Or.inl environment_lose
  · exact Or.inr ⟨t, fires, rfl, others_idle serial seq fires⟩

theorem Environment.idle (h : Environment w w') {j : ConnId} (busy : (w'.phase j).idle = false) :
    w'.phase j = w.phase j := by
  rcases h.conns j with same | ⟨-, hello, -⟩
  · exact same.1
  · rw [hello] at busy
    cases busy

theorem World.Serial.step (serial : w.Serial) (seq : Sequential w act)
    (h : w.step act = some w') : w'.Serial := by
  intro i j hi hj
  rcases sequential_cases serial seq h with env | ⟨t, fires, rfl, others⟩
  · rw [env.idle hi] at hi
    rw [env.idle hj] at hj
    exact serial i j hi hj
  · have only : ∀ l, ((w.apply act.conn t).phase l).idle = false → l = act.conn := by
      intro l busy
      by_contra other
      rw [World.apply_phase_of_ne _ _ _ other, others l other] at busy
      cases busy
    rw [only i hi, only j hj]

end Step

theorem World.serial_empty : World.empty.Serial := by
  intro j k busy
  cases busy

/-! ## Checking a sequential run -/

/-- The first `n` connections are idle. -/
def quietBelow (n : Nat) (w : World) : Bool := (List.range n).all fun k => (w.phase k).idle

/-- `Sequential` on the first `n` connections, the only ones in use. -/
def sequentialBelow (n : Nat) (w : World) (act : Act) : Bool :=
  decide (act.conn < n) &&
    match act with
    | .connect _ | .lose _ => true
    | .recv _ _ _ _ | .timeout _ | .closed _ _ => quietBelow n w
    | .resume k raises _ => !raises || ((w.phase k).inSend && !(w.conns k).usable)

section Checked

variable {n : Nat} {w w' : World} {act : Act}

theorem AbsentFrom.quiet (absent : AbsentFrom n w)
    (idle : quietBelow n w = true) : w.Quiet := by
  intro k
  by_cases used : k < n
  · exact List.all_eq_true.mp idle k (List.mem_range.mpr used)
  · rw [absent k (Nat.le_of_not_lt used)]
    rfl

theorem sequential_of_below (absent : AbsentFrom n w) (ok : sequentialBelow n w act = true) :
    Sequential w act := by
  obtain ⟨-, rest⟩ := Bool.and_eq_true_iff.mp ok
  cases act with
  | connect k => trivial
  | lose k => trivial
  | recv k msg order pick => exact absent.quiet rest
  | timeout k => exact absent.quiet rest
  | closed k pick => exact absent.quiet rest
  | resume k raises pick =>
      intro raised
      subst raised
      simpa using rest

/-- A checked list of actions is a sequential run of `n` connections. -/
theorem exists_sequential (n : Nat) (guard : World → Act → Bool) (actions : List Act)
    (test : World → Bool)
    (passes : (interleaved.execIf (fun w act => sequentialBelow n w act && guard w act)
      World.empty actions).any test = true) :
    ∃ w, interleaved.Reachable (fun w act => Sequential w act ∧ guard w act) w ∧
      AbsentFrom n w ∧ test w = true := by
  refine exists_below ?_ ?_ actions test passes
  · intro w act ok
    exact of_decide_eq_true (Bool.and_eq_true_iff.mp (Bool.and_eq_true_iff.mp ok).1).1
  · intro w act absent ok
    obtain ⟨below, guarded⟩ := Bool.and_eq_true_iff.mp ok
    exact ⟨sequential_of_below absent below, guarded⟩

end Checked

end GstWebrtc.Signalling
