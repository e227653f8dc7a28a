import GstWebrtc.Signalling.Handshake

/-!
# Connections that keep their uids

In runs in which each uid is used by one connection, a uid stands for that
connection for good: the entry of the uid carries its socket as long as there is
one, and the handler's phase names the uid even after it has ended.
-/

namespace GstWebrtc.Signalling

open GstWebrtc.Base GstWebrtc.Base.PyText WebRTCSimpleServer

/-- The uid that the handler has registered at some time. -/
def Phase.used? : Phase → Option Uid
  | running uid _ _ | leaving uid _ => some uid
  | done uid => uid
  | _ => none

/-- A uid is registered by no second connection. -/
def OneConnection (w : World) (act : Act) : Prop :=
  ∀ k pick u, act = .resume k false pick → w.phase k = .ack u →
    ∀ j, (w.phase j).used? ≠ some u

/-- The connection that has used a uid, and the socket in the entry of that uid. -/
structure Identified (w : World) : Prop where
  unique : ∀ j k u, (w.phase j).used? = some u → (w.phase k).used? = some u → j = k
  owner : ∀ u peer, w.server.peers u = some peer → (w.phase peer.ws).used? = some u

section Phases

variable {w w' : World} {act : Act} {t : Turn} {k : ConnId} {u : Uid}

theorem Phase.used_of_past {phase : Phase} (h : phase.past? = some u) : phase.used? = some u := by
  cases phase with
  | running v roomId point => exact h
  | leaving v point => exact h
  | _ => cases h

theorem Phase.Departing.used {phase : Phase} (h : phase.Departing u) : phase.used? = some u := by
  rcases h with ⟨point, rfl⟩ | rfl <;> rfl

/-- A handler keeps its uid, and gets one by its registration only. -/
theorem Fires.used (fires : Fires w act t) :
    t.phase.used? = (w.phase act.conn).used? ∨
    ∃ pick u, act = .resume act.conn false pick ∧ w.phase act.conn = .ack u ∧
      t = .recv (w.server.register act.conn u) (.running u none .recv) := by
  have kept : ∀ {phase : Phase} {v}, phase.past? = some v → t.phase.used? = some v →
      t.phase.used? = phase.used? :=
    fun past used => used.trans (Phase.used_of_past past).symm
  cases fires with
  | registered mayReturn waiting => exact Or.inr ⟨_, _, rfl, waiting, rfl⟩
  | loops runs => exact Or.inl (kept runs.past rfl)
  | sends runs => exact Or.inl (kept runs.past rfl)
  | leaves runs removed => exact Or.inl (kept runs.past removed.departing.used)
  | timeout waiting => exact Or.inl (congrArg Phase.used? waiting).symm
  | partnerClosed mayReturn waiting removed =>
      exact Or.inl (removed.departing.used.trans (congrArg Phase.used? waiting).symm)
  | leftSent mayReturn waiting announced =>
      exact Or.inl (announced.departing.used.trans (congrArg Phase.used? waiting).symm)
  | leaveRaised mayRaise waiting => exact Or.inl (congrArg Phase.used? waiting).symm
  | finished waiting => exact Or.inl (congrArg Phase.used? waiting).symm
  | greeted waiting fields absent word => exact Or.inl (congrArg Phase.used? waiting).symm
  | refused waiting => exact Or.inl (congrArg Phase.used? waiting).symm
  | helloFailed waiting => exact Or.inl (congrArg Phase.used? waiting).symm
  | helloClosed unusable waiting => exact Or.inl (congrArg Phase.used? waiting).symm
  | rejected waiting => exact Or.inl (congrArg Phase.used? waiting).symm
  | ackFailed mayRaise waiting => exact Or.inl (congrArg Phase.used? waiting).symm

/-- What one step does to the uid of a connection. -/
theorem used_step (h : w.step act = some w') (k : ConnId) :
    (w'.phase k).used? = (w.phase k).used? ∨
    ∃ pick u, act = .resume k false pick ∧ w.phase k = .ack u ∧
      w' = w.apply k (.recv (w.server.register k u) (.running u none .recv)) := by
  rcases step_cases h with ⟨j, rfl, absent, rfl⟩ | ⟨j, rfl, usable, rfl⟩ | ⟨t, fires, rfl⟩
  · rw [World.phase_setConn]
    split
    · next same => exact Or.inl (by rw [same, absent]; rfl)
    · exact Or.inl rfl
  · exact Or.inl (by rw [World.phase_lose])
  · by_cases self : k = act.conn
    · subst self
      rw [World.apply_phase_self]
      refine fires.used.imp_right ?_
      rintro ⟨pick, u, resumed, waiting, rfl⟩
      exact ⟨pick, u, resumed, waiting, rfl⟩
    · exact Or.inl (by rw [World.apply_phase_of_ne _ _ _ self])

/-- A uid that a connection has used stays its own. -/
theorem used_kept (h : w.step act = some w') (used : (w.phase k).used? = some u) :
    (w'.phase k).used? = some u := by
  rcases used_step h k with same | ⟨pick, v, -, waiting, -⟩
  · rw [same, used]
  · rw [waiting] at used
    cases used

end Phases

namespace Identified

variable {w w' : World} {act : Act}

theorem init : Identified World.empty := by
  refine ⟨?_, ?_⟩
  · rintro j k u ⟨⟩
  · rintro u peer ⟨⟩

theorem step (inv : Identified w) (alone : OneConnection w act) (h : w.step act = some w') :
    Identified w' := by
  -- who registers a uid was not known by it, and nobody else was
  have fresh : ∀ {k pick u}, act = .resume k false pick → w.phase k = .ack u →
      w' = w.apply k (.recv (w.server.register k u) (.running u none .recv)) →
      ∀ j, (w'.phase j).used? = some u → j = k := by
    intro k pick u resumed waiting result j used
    by_contra other
    rw [result, World.apply_phase_of_ne _ _ _ other] at used
    exact alone k pick u resumed waiting j used
  refine ⟨?_, ?_⟩
  · intro j k u usedJ usedK
    rcases used_step h j with sameJ | ⟨pick, v, resumed, waiting, result⟩
    · rcases used_step h k with sameK | ⟨pick, v, resumed, waiting, result⟩
      · exact inv.unique j k u (sameJ ▸ usedJ) (sameK ▸ usedK)
      · have named : v = u := by
          rw [result, World.apply_phase_self] at usedK
          exact Option.some.inj usedK
        subst named
        exact fresh resumed waiting result j usedJ
    · have named : v = u := by
        rw [result, World.apply_phase_self] at usedJ
        exact Option.some.inj usedJ
      subst named
      exact (fresh resumed waiting result k usedK).symm
  · intro u peer found
    rcases step_cases h with ⟨j, rfl, absent, rfl⟩ | ⟨j, rfl, usable, rfl⟩ | ⟨t, fires, rfl⟩
    · exact used_kept h (inv.owner u peer found)
    · exact used_kept h (inv.owner u peer found)
    · rw [World.apply_server] at found
      rcases fires.sameSockets with same | ⟨k, pick, v, rfl, waiting, rfl⟩
      · obtain ⟨old, was, sameWs⟩ := same u peer found
        rw [← sameWs]
        exact used_kept h (inv.owner u old was)
      · by_cases self : u = v
        · subst self
          have entry : peer = ⟨k, none⟩ := by
            simpa [Turn.server, register] using found.symm
          rw [entry]
          exact congrArg Phase.used? (World.apply_phase_self ..)
        · have was : w.server.peers u = some peer := by
            simpa [Turn.server, register, self] using found
          exact used_kept h (inv.owner u peer was)

theorem of_reachable (run : interleaved.Reachable OneConnection w) : Identified w :=
  run.invariant init fun _ _ _ inv allowed h => inv.step allowed h

/-- Two entries of one uid, at different times, carry the same socket. -/
theorem ws_eq (inv : Identified w) {u : Uid} {k : ConnId} {peer : Peer}
    (used : (w.phase k).used? = some u) (found : w.server.peers u = some peer) : peer.ws = k :=
  inv.unique peer.ws k u (inv.owner u peer found) used

/-- A handler that takes a message on the socket of an entry works for the uid of the entry. -/
theorem running_of_recv (inv : Identified w) {u : Uid} {k : ConnId} {status : Option Text}
    (found : w.server.peers u = some ⟨k, status⟩) {msg : Text} {order : List Uid}
    {pick : Option Uid} (h : w.step (.recv k msg order pick) = some w') :
    ∃ roomId, w.phase k = .running u roomId .recv := by
  have used : (w.phase k).used? = some u := inv.owner u _ found
  simp only [World.step, World.turn] at h
  split at h
  · next waiting =>
      rw [waiting] at used
      cases used
  · next v roomId waiting =>
      rw [waiting] at used
      cases used
      exact ⟨roomId, waiting⟩
  · cases h

end Identified

/-- `OneConnection` on the first `n` connections, the only ones in use. -/
def oneBelow (n : Nat) (w : World) : Act → Bool
  | .resume k false _ =>
      match w.phase k with
      | .ack u => (List.range n).all fun j => decide ((w.phase j).used? ≠ some u)
      | _ => true
  | _ => true

theorem oneConnection_of_below {n : Nat} {w : World} {act : Act} (absent : AbsentFrom n w)
    (ok : oneBelow n w act = true) : OneConnection w act := by
  rintro k pick u rfl waiting j used
  by_cases small : j < n
  · simp only [oneBelow, waiting, List.all_eq_true, decide_eq_true_eq] at ok
    exact ok j (List.mem_range.mpr small) used
  · rw [absent j (Nat.le_of_not_lt small)] at used
    cases used

end GstWebrtc.Signalling
