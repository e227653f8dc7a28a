import GstWebrtc.Signalling.Effects

/-!
# Registration ownership

`hello_peer` looks a uid up before its `HELLO` is sent and the uid is written
only afterwards; a session partner's cleanup frees a uid whose handler is still
running; and `remove_peer` frees it before its last await.  At those moments a
second connection can be registered under a uid that a live handler still
works for.  Apart from them a uid belongs to one handler.
-/

namespace GstWebrtc.Signalling

open GstWebrtc.Base GstWebrtc.Base.PyText WebRTCSimpleServer

/--
A registration belongs to one live handler: no two handlers are past
`hello_peer` with one uid, the entry of a running handler carries its own
socket, and `remove_peer(uid)` deletes or closes no entry of `uid` but its own.
The entry of the session partner is the only other one that it touches.
-/
structure RegistrationOwned (w : World) : Prop where
  unique : ∀ j k u, (w.phase j).past? = some u → (w.phase k).past? = some u → j = k
  own : ∀ k u roomId point peer, w.phase k = .running u roomId point →
    w.server.peers u = some peer → peer.ws = k
  deletes : ∀ act w', w.step act = some w' → ∀ v peer, w.server.peers v = some peer →
    w'.server.peers v = none → ∃ u, (w.phase act.conn).past? = some u ∧
      ((v = u ∧ peer.ws = act.conn) ∨ w.server.sessions u = some v)
  closes : ∀ act w', w.step act = some w' → ∀ u, (w.phase act.conn).past? = some u →
    ∀ j, w.socket j ≠ .closed → w'.socket j = .closed → j = act.conn ∨
      ∃ other peer, w.server.sessions u = some other ∧ w.server.peers other = some peer ∧
        peer.ws = j

/--
When a handler returns from its `HELLO` send and registers its uid, no other
handler is past `hello_peer` with that uid: none was registered while the
`HELLO` was being sent, none runs on after a session partner took its entry
away, and none is in an await of `remove_peer`.
-/
def RegistersAlone (w : World) (act : Act) : Prop :=
  ∀ k pick u, act = .resume k false pick → w.phase k = .ack u →
    ∀ j, (w.phase j).past? ≠ some u

/-- What keeps registrations apart, for handlers at every point. -/
structure OneHandler (w : World) : Prop where
  unique : ∀ j k u, (w.phase j).past? = some u → (w.phase k).past? = some u → j = k
  own : ∀ k u peer, (w.phase k).past? = some u → w.server.peers u = some peer → peer.ws = k
  leftWs : ∀ k u ws room it, w.phase k = .leaving u (.left ws room it) → ws = k

/-! ## Which entries a turn deletes -/

section Deleting

variable {srv : WebRTCSimpleServer} {uid v : Uid} {peer : Peer} {t : Turn}

/-- `v` is `uid` or its session partner. -/
def MayDelete (srv : WebRTCSimpleServer) (uid v : Uid) : Prop :=
  v = uid ∨ srv.sessions uid = some v

theorem EntryRemoved.deletes (h : EntryRemoved srv uid t) (was : srv.peers v = some peer)
    (gone : t.server.peers v = none) : v = uid := by
  by_contra different
  rw [h.peers_eq different, was] at gone
  cases gone

theorem LeftAnnounced.deletes {ws : ConnId} {room : RoomId} {it : Iter Uid}
    (h : LeftAnnounced srv uid ws room it t) (was : srv.peers v = some peer)
    (gone : t.server.peers v = none) : v = uid := by
  by_contra different
  rw [h.peers_eq different, was] at gone
  cases gone

theorem Removed.deletes (h : Removed srv uid t) (was : srv.peers v = some peer)
    (gone : t.server.peers v = none) : MayDelete srv uid v := by
  by_contra neither
  rw [MayDelete, not_or] at neither
  rw [h.peers_eq neither.1 neither.2, was] at gone
  cases gone

end Deleting

/-! ## Which sockets a turn closes -/

section Closing

variable {srv : WebRTCSimpleServer} {uid : Uid} {k j : ConnId} {t : Turn}

/-- `j` is the socket that `uid` or its session partner is registered with. -/
def MayClose (srv : WebRTCSimpleServer) (uid : Uid) (j : ConnId) : Prop :=
  ∃ v peer, MayDelete srv uid v ∧ srv.peers v = some peer ∧ peer.ws = j

theorem MayClose.of_sameSockets {srv' : WebRTCSimpleServer} (h : MayClose srv' uid j)
    (same : SameSockets srv srv') (sessions : srv'.sessions = srv.sessions) :
    MayClose srv uid j := by
  obtain ⟨v, peer, may, found, rfl⟩ := h
  obtain ⟨old, was, sameWs⟩ := same v peer found
  rw [MayDelete, sessions] at may
  exact ⟨v, old, may, was, sameWs⟩

theorem deletePeer_closes {ws : ConnId} (h : (deletePeer srv uid ws).closes k = some j) :
    j = ws ∨ j = k := by
  unfold deletePeer at h
  split at h
  · exact Or.inr (Option.some.inj h).symm
  · exact Or.inl (Option.some.inj h).symm

theorem LeftAnnounced.closes {ws : ConnId} {room : RoomId} {it : Iter Uid}
    (h : LeftAnnounced srv uid ws room it t) (hj : t.closes k = some j) : j = ws ∨ j = k := by
  cases h with
  | finished found same all => exact deletePeer_closes hj
  | notice found same member fresh registered => cases hj
  | _ => exact Or.inr (Option.some.inj hj).symm

theorem EntryRemoved.closes (h : EntryRemoved srv uid t) (hj : t.closes k = some j) :
    j = k ∨ MayClose srv uid j := by
  have own : ∀ {peer : Peer}, srv.peers uid = some peer → j = peer.ws ∨ j = k →
      j = k ∨ MayClose srv uid j := by
    intro peer registered hj
    rcases hj with same | self
    · exact Or.inr ⟨uid, peer, Or.inl rfl, registered, same.symm⟩
    · exact Or.inl self
  cases h with
  | absent unregistered => exact Or.inl (Option.some.inj hj).symm
  | plain registered outside => exact own registered (deletePeer_closes hj)
  | noRoom registered member missing => exact Or.inl (Option.some.inj hj).symm
  | notListed registered member found unlisted => exact own registered (deletePeer_closes hj)
  | leaves registered member found listed announced => exact own registered (announced.closes hj)

theorem Removed.closes (h : Removed srv uid t) (hj : t.closes k = some j) :
    j = k ∨ MayClose srv uid j := by
  cases h with
  | partner cleaned =>
      cases cleaned with
      | partner linked different linkedBack registered =>
          exact Or.inr ⟨_, _, Or.inr linked, registered, Option.some.inj hj⟩
  | entry cleaned removed =>
      refine (removed.closes hj).imp_right ?_
      rintro ⟨v, peer, may, found, same⟩
      exact ⟨v, peer, may.imp_right (cleaned.shrinks.sessions uid v),
        cleaned.shrinks.peers v peer found, same⟩

end Closing

/-! ## The socket that `remove_peer` keeps in a local variable -/

section LeftWs

variable {srv : WebRTCSimpleServer} {uid u : Uid} {ws : ConnId} {room : RoomId} {it : Iter Uid}
  {t : Turn}

theorem deletePeer_not_left (srv : WebRTCSimpleServer) (uid : Uid) (ws' : ConnId) :
    (deletePeer srv uid ws').phase ≠ .leaving u (.left ws room it) := by
  unfold deletePeer
  split <;> simp [Turn.phase]

theorem LeftAnnounced.leftWs {ws' : ConnId} {room' : RoomId} {it' : Iter Uid}
    (h : LeftAnnounced srv uid ws' room' it' t) (ht : t.phase = .leaving u (.left ws room it)) :
    ws' = ws := by
  cases h with
  | finished found same all => exact absurd ht (deletePeer_not_left srv uid ws')
  | notice found same member fresh registered =>
      cases ht
      rfl
  | _ => cases ht

theorem EntryRemoved.leftWs (h : EntryRemoved srv uid t)
    (ht : t.phase = .leaving u (.left ws room it)) :
    ∃ peer, srv.peers uid = some peer ∧ peer.ws = ws := by
  cases h with
  | absent unregistered => cases ht
  | plain registered outside => exact absurd ht (deletePeer_not_left srv uid _)
  | noRoom registered member missing => cases ht
  | notListed registered member found unlisted =>
      exact absurd ht (deletePeer_not_left srv uid _)
  | leaves registered member found listed announced =>
      exact ⟨_, registered, announced.leftWs ht⟩

theorem Removed.leftWs (h : Removed srv uid t) (ht : t.phase = .leaving u (.left ws room it)) :
    ∃ peer, srv.peers uid = some peer ∧ peer.ws = ws := by
  cases h with
  | partner cleaned => cases ht
  | entry cleaned removed =>
      obtain ⟨peer, registered, same⟩ := removed.leftWs ht
      exact ⟨peer, cleaned.shrinks.peers _ _ registered, same⟩

end LeftWs

/-! ## One step -/

section Step

variable {w : World} {act : Act} {t : Turn} {u : Uid}

/-- A handler gets past `hello_peer` by the registration of its uid. -/
theorem Fires.past (h : Fires w act t) (ht : t.phase.past? = some u) :
    (w.phase act.conn).past? = some u ∨
    ∃ pick, act = .resume act.conn false pick ∧ w.phase act.conn = .ack u ∧
      t = .recv (w.server.register act.conn u) (.running u none .recv) := by
  have departed : ∀ {uid}, t.phase.Departing uid → uid = u := by
    rintro uid (⟨point, leaving⟩ | done)
    · rw [leaving] at ht
      exact Option.some.inj ht
    · rw [done] at ht
      cases ht
  cases h with
  | registered mayReturn waiting =>
      cases ht
      exact Or.inr ⟨_, rfl, waiting, rfl⟩
  | timeout waiting =>
      cases ht
      exact Or.inl (congrArg Phase.past? waiting)
  | loops runs =>
      cases ht
      exact Or.inl runs.past
  | sends runs =>
      cases ht
      exact Or.inl runs.past
  | leaves runs removed =>
      cases departed removed.departing
      exact Or.inl runs.past
  | partnerClosed mayReturn waiting removed =>
      cases departed removed.departing
      exact Or.inl (congrArg Phase.past? waiting)
  | leftSent mayReturn waiting announced =>
      cases departed announced.departing
      exact Or.inl (congrArg Phase.past? waiting)
  | _ => cases ht

theorem Fires.deletes (h : Fires w act t) {v : Uid} {peer : Peer}
    (was : w.server.peers v = some peer) (gone : t.server.peers v = none) :
    ∃ u, (w.phase act.conn).past? = some u ∧ MayDelete w.server u v := by
  have kept : w.server.peers v ≠ none := by simp [was]
  cases h with
  | @registered k pick uid mayReturn waiting =>
      by_cases same : v = uid
      · simp [Turn.server, register, same] at gone
      · simp [Turn.server, register, same, was] at gone
  | loops runs => exact absurd (runs.sameEntries.registered.mp gone) kept
  | sends runs => exact absurd (runs.sameEntries.registered.mp gone) kept
  | @leaves act uid roomId srv exn t runs removed =>
      cases before : srv.peers v with
      | none => exact absurd (runs.sameEntries.registered.mp before) kept
      | some old =>
          refine ⟨uid, runs.past, ?_⟩
          have may := removed.deletes before gone
          rwa [MayDelete, runs.sessions_of_raise] at may
  | partnerClosed mayReturn waiting removed =>
      exact ⟨_, congrArg Phase.past? waiting, Or.inl (removed.deletes was gone)⟩
  | leftSent mayReturn waiting announced =>
      exact ⟨_, congrArg Phase.past? waiting, Or.inl (announced.deletes was gone)⟩
  | _ => exact absurd gone kept

theorem Fires.closes (h : Fires w act t) {j : ConnId} (hj : t.closes act.conn = some j) :
    j = act.conn ∨ (∃ u, (w.phase act.conn).past? = some u ∧ MayClose w.server u j) ∨
    ∃ u room it, w.phase act.conn = .leaving u (.left j room it) := by
  cases h with
  | greeted waiting fields absent word => cases hj
  | registered mayReturn waiting => cases hj
  | timeout waiting => cases hj
  | loops runs => cases hj
  | sends runs => cases hj
  | leaves runs removed =>
      refine (removed.closes hj).imp_right fun may => Or.inl ⟨_, runs.past, ?_⟩
      exact may.of_sameSockets runs.sameEntries.sameSockets runs.sessions_of_raise
  | partnerClosed mayReturn waiting removed =>
      exact (removed.closes hj).imp_right fun may =>
        Or.inl ⟨_, congrArg Phase.past? waiting, may⟩
  | leftSent mayReturn waiting announced =>
      rcases announced.closes hj with same | self
      · exact Or.inr (Or.inr ⟨_, _, _, same ▸ waiting⟩)
      · exact Or.inl self
  | _ => exact Or.inl (Option.some.inj hj).symm

theorem Fires.leftWs (h : Fires w act t) {ws : ConnId} {room : RoomId} {it : Iter Uid}
    (ht : t.phase = .leaving u (.left ws room it)) :
    (∃ room it, w.phase act.conn = .leaving u (.left ws room it)) ∨
    ((w.phase act.conn).past? = some u ∧
      ∃ peer, w.server.peers u = some peer ∧ peer.ws = ws) := by
  have departed : ∀ {uid}, t.phase.Departing uid → uid = u := by
    rintro uid (⟨point, leaving⟩ | done)
    · rw [leaving] at ht
      cases ht
      rfl
    · rw [done] at ht
      cases ht
  cases h with
  | leaves runs removed =>
      obtain ⟨peer, registered, same⟩ := removed.leftWs ht
      obtain ⟨old, was, same'⟩ := runs.sameEntries.sameSockets _ _ registered
      cases departed removed.departing
      exact Or.inr ⟨runs.past, old, was, same'.trans same⟩
  | partnerClosed mayReturn waiting removed =>
      obtain ⟨peer, registered, same⟩ := removed.leftWs ht
      cases departed removed.departing
      exact Or.inr ⟨congrArg Phase.past? waiting, peer, registered, same⟩
  | leftSent mayReturn waiting announced =>
      cases departed announced.departing
      cases announced.leftWs ht
      exact Or.inl ⟨_, _, waiting⟩
  | _ => cases ht

/-- A handler is past `hello_peer` as before, or has just registered its uid. -/
theorem past_of_step {w' : World} (h : w.step act = some w') {k : ConnId}
    (past : (w'.phase k).past? = some u) :
    (w.phase k).past? = some u ∨
    ∃ pick, act = .resume k false pick ∧ w.phase k = .ack u ∧
      w'.server = w.server.register k u := by
  rcases step_cases h with ⟨j, rfl, absent, rfl⟩ | ⟨j, rfl, usable, rfl⟩ | ⟨t, fires, rfl⟩
  · rw [World.phase_setConn] at past
    split at past
    · cases past
    · exact Or.inl past
  · rw [World.phase_lose] at past
    exact Or.inl past
  · by_cases self : k = act.conn
    · subst self
      rw [World.apply_phase_self] at past
      rcases fires.past past with before | ⟨pick, resumed, waiting, rfl⟩
      · exact Or.inl before
      · exact Or.inr ⟨pick, resumed, waiting, by simp [Turn.server]⟩
    · rw [World.apply_phase_of_ne _ _ _ self] at past
      exact Or.inl past

theorem server_of_step {w' : World} (h : w.step act = some w') :
    SameSockets w.server w'.server ∨
    ∃ k pick u, act = .resume k false pick ∧ w.phase k = .ack u ∧
      w'.server = w.server.register k u ∧ (w'.phase k).past? = some u := by
  rcases step_cases h with ⟨j, rfl, absent, rfl⟩ | ⟨j, rfl, usable, rfl⟩ | ⟨t, fires, rfl⟩
  · exact Or.inl (.of_peers rfl)
  · exact Or.inl (.of_peers rfl)
  · rw [World.apply_server]
    rcases fires.sameSockets with same | ⟨k, pick, u, rfl, waiting, rfl⟩
    · exact Or.inl same
    · refine Or.inr ⟨k, pick, u, rfl, waiting, rfl, ?_⟩
      change ((w.apply k _).phase k).past? = some u
      rw [World.apply_phase_self]
      rfl

end Step

/-! ## Runs that register a uid only while nobody works for it -/

namespace OneHandler

theorem init : OneHandler World.empty := by
  refine ⟨?_, ?_, ?_⟩
  · intro j k u hj
    cases hj
  · intro k u peer hk
    cases hk
  · intro k u ws room it hk
    cases hk

variable {w w' : World} {act : Act}

theorem own_step (inv : OneHandler w) (alone : RegistersAlone w act) (h : w.step act = some w')
    {k : ConnId} {u : Uid} {peer : Peer} (past : (w'.phase k).past? = some u)
    (found : w'.server.peers u = some peer) : peer.ws = k := by
  rcases past_of_step h past with before | ⟨pick, rfl, waiting, registers⟩
  · rcases server_of_step h with same | ⟨j, pick, v, rfl, waiting, registers, -⟩
    · obtain ⟨old, was, sameWs⟩ := same u peer found
      exact sameWs.symm.trans (inv.own k u old before was)
    · have other : u ≠ v := by
        rintro rfl
        exact alone j pick u rfl waiting k before
      rw [registers] at found
      exact inv.own k u peer before (by simpa [register, other] using found)
  · rw [registers] at found
    have entry : (⟨k, none⟩ : Peer) = peer := by simpa [register] using found
    rw [← entry]

theorem leftWs_step (inv : OneHandler w) (h : w.step act = some w') {k : ConnId} {u : Uid}
    {ws : ConnId} {room : RoomId} {it : Iter Uid}
    (leaving : w'.phase k = .leaving u (.left ws room it)) : ws = k := by
  rcases step_cases h with ⟨j, rfl, absent, rfl⟩ | ⟨j, rfl, usable, rfl⟩ | ⟨t, fires, rfl⟩
  · rw [World.phase_setConn] at leaving
    split at leaving
    · cases leaving
    · exact inv.leftWs k u ws room it leaving
  · rw [World.phase_lose] at leaving
    exact inv.leftWs k u ws room it leaving
  · by_cases self : k = act.conn
    · subst self
      rw [World.apply_phase_self] at leaving
      rcases fires.leftWs leaving with ⟨room', it', before⟩ | ⟨past, peer, registered, rfl⟩
      · exact inv.leftWs _ u ws room' it' before
      · exact inv.own _ u peer past registered
    · rw [World.apply_phase_of_ne _ _ _ self] at leaving
      exact inv.leftWs k u ws room it leaving

theorem step (inv : OneHandler w) (alone : RegistersAlone w act) (h : w.step act = some w') :
    OneHandler w' where
  unique j k u hj hk := by
    rcases past_of_step h hj with beforeJ | ⟨pick, rfl, waiting, -⟩
    · rcases past_of_step h hk with beforeK | ⟨pick, rfl, waiting, -⟩
      · exact inv.unique j k u beforeJ beforeK
      · exact absurd beforeJ (alone k pick u rfl waiting j)
    · rcases past_of_step h hk with beforeK | ⟨pick', same, -, -⟩
      · exact absurd beforeK (alone j pick u rfl waiting k)
      · cases same
        rfl
  own k u peer past found := inv.own_step alone h past found
  leftWs k u ws room it leaving := inv.leftWs_step h leaving

theorem of_reachable (run : interleaved.Reachable RegistersAlone w) : OneHandler w :=
  run.invariant init fun _ _ _ inv alone h => inv.step alone h

/-- Deletions and closures go by the uid, which belongs to the handler alone. -/
theorem owned (inv : OneHandler w) : RegistrationOwned w where
  unique := inv.unique
  own k u roomId point peer running found :=
    inv.own k u peer (congrArg Phase.past? running) found
  deletes act w' h v peer was gone := by
    rcases step_cases h with ⟨j, rfl, absent, rfl⟩ | ⟨j, rfl, usable, rfl⟩ | ⟨t, fires, rfl⟩
    · exact absurd (was.symm.trans gone) (by simp)
    · exact absurd (was.symm.trans gone) (by simp)
    · rw [World.apply_server] at gone
      obtain ⟨u, past, self | linked⟩ := fires.deletes was gone
      · subst self
        exact ⟨v, past, Or.inl ⟨rfl, inv.own _ v peer past was⟩⟩
      · exact ⟨u, past, Or.inr linked⟩
  closes act w' h u past j usable closed := by
    rcases step_cases h with ⟨i, rfl, absent, rfl⟩ | ⟨i, rfl, open', rfl⟩ | ⟨t, fires, rfl⟩
    · rw [Act.conn, absent] at past
      cases past
    · rw [World.socket_setConn] at closed
      split at closed
      · cases closed
      · exact absurd closed usable
    · rw [World.apply_socket] at closed
      split at closed
      · next closes =>
          rcases fires.closes closes with self | ⟨v, past', may⟩ | ⟨v, room, it, leaving⟩
          · exact Or.inl self
          · cases past.symm.trans past'
            obtain ⟨x, peer, self | linked, found, rfl⟩ := may
            · subst self
              exact Or.inl (inv.own _ x peer past found)
            · exact Or.inr ⟨x, peer, linked, found, rfl⟩
          · exact Or.inl (inv.leftWs _ v j room it leaving)
      · exact absurd closed usable

end OneHandler

/-- `RegistersAlone` on the first `n` connections, the only ones in use. -/
def aloneBelow (n : Nat) (w : World) : Act → Bool
  | .resume k false _ =>
      match w.phase k with
      | .ack u => (List.range n).all fun j => decide ((w.phase j).past? ≠ some u)
      | _ => true
  | _ => true

theorem registersAlone_of_below {n : Nat} {w : World} {act : Act} (absent : AbsentFrom n w)
    (ok : aloneBelow n w act = true) :
    RegistersAlone w act := by
  rintro k pick u rfl waiting j past
  by_cases used : j < n
  · simp only [aloneBelow, waiting, List.all_eq_true, decide_eq_true_eq] at ok
    exact ok j (List.mem_range.mpr used) past
  · rw [absent j (Nat.le_of_not_lt used)] at past
    cases past

end GstWebrtc.Signalling
