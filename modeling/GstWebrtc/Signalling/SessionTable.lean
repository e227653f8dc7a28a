import GstWebrtc.Signalling.Sequential

/-!
# The session table

In sequential runs `sessions` stays symmetric and agrees with the statuses in
`peers`, provided no `SESSION` is accepted for a callee that is in a session
with another peer.  The handler looks at its own status where it reports a callee as
busy, so nothing else stops such a request.
-/

namespace GstWebrtc.Signalling

open GstWebrtc.Base GstWebrtc.Base.PyText WebRTCSimpleServer

/-- What the tables promise whenever no message is being handled. -/
structure SessionTables (w : World) : Prop where
  symmetric : ∀ a b, w.server.sessions a = some b → w.server.sessions b = some a
  registered : ∀ a b, w.server.sessions a = some b →
    (∃ peer, w.server.peers a = some peer) ∧ ∃ peer, w.server.peers b = some peer
  status : ∀ a peer, w.server.peers a = some peer →
    (peer.status = some inSession ↔ ∃ b, w.server.sessions a = some b)
  /-- The lookups and the assertion of the relay branch succeed. -/
  relays : ∀ k u roomId order msg peer, w.phase k = .running u roomId .recv →
    w.server.peers u = some peer → peer.status = some inSession →
    ∃ other partner, w.server.sessions u = some other ∧ w.server.peers other = some partner ∧
      partner.status = some inSession ∧
      connectionHandler w.server k u roomId order msg =
        some (.send w.server roomId partner.ws (.relay msg) .sent)

/-- A session is registered only with a callee that is in no session with another peer. -/
def calleeFree (w : World) : Act → Bool
  | .resume k false _ =>
      match w.phase k with
      | .running _ _ (.sessionOk callee) =>
          (w.server.sessions callee).all fun other => other = callee
      | _ => true
  | _ => true

/-- The same promise between two awaits; the uids in `exempt` are being cleaned up. -/
structure Sessions (srv : WebRTCSimpleServer) (exempt : Uid → Prop) : Prop where
  symmetric : ∀ a b, srv.sessions a = some b → srv.sessions b = some a
  busy : ∀ a b, srv.sessions a = some b →
    ∃ peer, srv.peers a = some peer ∧ peer.status = some inSession
  key : ∀ a peer, srv.peers a = some peer → peer.status = some inSession →
    exempt a ∨ ∃ b, srv.sessions a = some b

namespace Sessions

variable {srv : WebRTCSimpleServer} {exempt weaker : Uid → Prop} {uid : Uid}

theorem empty (exempt : Uid → Prop) : Sessions WebRTCSimpleServer.empty exempt :=
  ⟨by rintro a b ⟨⟩, by rintro a b ⟨⟩, by rintro a peer ⟨⟩⟩

theorem mono (h : Sessions srv exempt) (weaken : ∀ a, exempt a → weaker a) :
    Sessions srv weaker :=
  ⟨h.symmetric, h.busy, fun a peer found busy => (h.key a peer found busy).imp_left (weaken a)⟩

theorem of_tables {srv' : WebRTCSimpleServer} (h : Sessions srv exempt)
    (peers : srv'.peers = srv.peers) (sessions : srv'.sessions = srv.sessions) :
    Sessions srv' exempt := by
  refine ⟨?_, ?_, ?_⟩
  · rw [sessions]
    exact h.symmetric
  · rw [sessions, peers]
    exact h.busy
  · rw [sessions, peers]
    exact h.key

/-- A uid without a session may be given any entry that is not in a session. -/
theorem writePeer (h : Sessions srv exempt) (alone : srv.sessions uid = none)
    {entry : Option Peer} (idle : ∀ peer, entry = some peer → peer.status ≠ some inSession) :
    Sessions (srv.writePeer uid entry) exempt := by
  refine ⟨h.symmetric, ?_, ?_⟩
  · intro a b linked
    have other : a ≠ uid := by
      rintro rfl
      exact absurd (alone.symm.trans linked) (by simp)
    simpa [other] using h.busy a b linked
  · intro a peer found busy
    by_cases same : a = uid
    · subst same
      exact absurd busy (idle peer (by simpa using found))
    · exact h.key a peer (by simpa [same] using found) busy

theorem unlinked_of_idle (h : Sessions srv exempt) {peer : Peer}
    (found : srv.peers uid = some peer) (idle : peer.status ≠ some inSession) :
    srv.sessions uid = none := by
  cases linked : srv.sessions uid with
  | none => rfl
  | some other =>
      obtain ⟨peer', found', busy⟩ := h.busy uid other linked
      cases found.symm.trans found'
      exact absurd busy idle

theorem unlinked_of_absent (h : Sessions srv exempt) (absent : srv.peers uid = none) :
    srv.sessions uid = none := by
  cases linked : srv.sessions uid with
  | none => rfl
  | some other =>
      obtain ⟨peer, found, -⟩ := h.busy uid other linked
      exact absurd (absent.symm.trans found) (by simp)

/-- The entries of `sessions` after a registration. -/
theorem registered_sessions {callee : Uid} {srv' : WebRTCSimpleServer}
    (linked : srv.registerSession uid callee = some srv') (a : Uid) :
    srv'.sessions a =
      if a = callee then some uid else if a = uid then some callee else srv.sessions a := by
  obtain ⟨-, -, -, -, -, hsessions, -⟩ := registerSession_eq linked
  rw [hsessions]
  by_cases isCallee : a = callee
  · simp [isCallee]
  · by_cases isCaller : a = uid
    · simp [isCaller, isCaller ▸ isCallee]
    · simp [isCallee, isCaller]

theorem registerSession (h : Sessions srv exempt) {callee : Uid} {srv' : WebRTCSimpleServer}
    (linked : srv.registerSession uid callee = some srv') (alone : srv.sessions uid = none)
    (free : ∀ other, srv.sessions callee = some other → other = callee) :
    Sessions srv' exempt := by
  have sessions := registered_sessions linked
  obtain ⟨peer, calleePeer, huid, hcallee, hpeers, -, -⟩ := registerSession_eq linked
  have pair : srv'.sessions callee = some uid ∧ srv'.sessions uid = some callee := by
    rw [sessions, sessions]
    by_cases same : uid = callee
    · simp [same]
    · simp [same]
  refine ⟨?_, ?_, ?_⟩
  · intro a b found
    rw [sessions] at found
    by_cases isCallee : a = callee
    · rw [if_pos isCallee] at found
      cases found
      rw [isCallee]
      exact pair.2
    · by_cases isCaller : a = uid
      · rw [if_neg isCallee, if_pos isCaller] at found
        cases found
        rw [isCaller]
        exact pair.1
      · rw [if_neg isCallee, if_neg isCaller] at found
        have back := h.symmetric a b found
        -- an old pair shares no member with the new one
        have notCaller : b ≠ uid := by
          rintro rfl
          exact absurd (alone.symm.trans back) (by simp)
        have notCallee : b ≠ callee := by
          rintro rfl
          exact isCallee (free a back)
        rwa [sessions, if_neg notCallee, if_neg notCaller]
  · intro a b found
    rw [hpeers]
    by_cases isCallee : a = callee
    · exact ⟨{ calleePeer with status := some inSession }, by simp [isCallee], rfl⟩
    · by_cases isCaller : a = uid
      · exact ⟨{ peer with status := some inSession }, by simp [isCaller ▸ isCallee, isCaller],
          rfl⟩
      · rw [sessions, if_neg isCallee, if_neg isCaller] at found
        simpa [isCallee, isCaller] using h.busy a b found
  · intro a found hfound busy
    by_cases isCallee : a = callee
    · exact Or.inr ⟨uid, isCallee ▸ pair.1⟩
    · by_cases isCaller : a = uid
      · exact Or.inr ⟨callee, isCaller ▸ pair.2⟩
      · rw [hpeers] at hfound
        refine (h.key a found (by simpa [isCallee, isCaller] using hfound) busy).imp_right ?_
        rintro ⟨b, before⟩
        exact ⟨b, by rwa [sessions, if_neg isCallee, if_neg isCaller]⟩

/-- `cleanup_session` removes exactly the pair of `uid`. -/
theorem cleaned_sessions {result : WebRTCSimpleServer × Option ConnId}
    (h : Sessions srv exempt) (cleaned : SessionCleaned srv uid result) {a b : Uid} :
    result.1.sessions a = some b ↔
      srv.sessions a = some b ∧ a ≠ uid ∧ srv.sessions uid ≠ some a := by
  have two : ∀ {other}, srv.sessions uid = some other →
      (Function.update (Function.update srv.sessions uid none) other none a = some b ↔
        srv.sessions a = some b ∧ a ≠ uid ∧ srv.sessions uid ≠ some a) := by
    intro other linked
    by_cases isOther : a = other
    · simp [isOther, linked]
    · by_cases isUid : a = uid
      · subst isUid
        simp [isOther]
      · have different : ¬ other = a := fun same => isOther same.symm
        simp [isOther, isUid, linked, different]
  cases cleaned with
  | unlinked alone =>
      constructor
      · intro found
        refine ⟨found, ?_, by simp [alone]⟩
        rintro rfl
        exact absurd (alone.symm.trans found) (by simp)
      · exact And.left
  | oneSided linked noBack =>
      rcases noBack with self | noBack
      · rw [self] at linked
        by_cases isUid : a = uid
        · subst isUid
          simp
        · have different : ¬ uid = a := fun same => isUid same.symm
          simp [isUid, linked, different]
      · exact absurd (noBack.symm.trans (h.symmetric uid _ linked)) (by simp)
  | partnerGone linked different linkedBack absent => exact two linked
  | partner linked different linkedBack registered => exact two linked

theorem partner_gone {result : WebRTCSimpleServer × Option ConnId} {other : Uid}
    (h : Sessions srv exempt) (cleaned : SessionCleaned srv uid result)
    (linked : srv.sessions uid = some other) (different : other ≠ uid) :
    result.1.peers other = none := by
  cases cleaned with
  | unlinked alone => exact absurd (alone.symm.trans linked) (by simp)
  | oneSided linked' noBack =>
      cases linked.symm.trans linked'
      rcases noBack with same | noBack
      · exact absurd same different
      · exact absurd (noBack.symm.trans (h.symmetric uid other linked)) (by simp)
  | partnerGone linked' _ linkedBack absent =>
      cases linked.symm.trans linked'
      exact absent
  | partner linked' _ linkedBack registered =>
      cases linked.symm.trans linked'
      simp

theorem cleaned {result : WebRTCSimpleServer × Option ConnId} (h : Sessions srv exempt)
    (cleaned : SessionCleaned srv uid result) :
    Sessions result.1 (fun a => exempt a ∨ a = uid) ∧ result.1.sessions uid = none := by
  refine ⟨⟨?_, ?_, ?_⟩, ?_⟩
  · intro a b found
    obtain ⟨linked, notUid, notPartner⟩ := (h.cleaned_sessions cleaned).mp found
    have back := h.symmetric a b linked
    refine (h.cleaned_sessions cleaned).mpr ⟨back, ?_, ?_⟩
    · rintro rfl
      exact notPartner back
    · intro partner
      exact notUid (Option.some.inj (back.symm.trans (h.symmetric uid b partner)))
  · intro a b found
    obtain ⟨linked, -, notPartner⟩ := (h.cleaned_sessions cleaned).mp found
    rw [cleaned.peers_eq notPartner]
    exact h.busy a b linked
  · intro a peer found busy
    by_cases isUid : a = uid
    · exact Or.inl (Or.inr isUid)
    · have notPartner : srv.sessions uid ≠ some a := by
        intro partner
        exact absurd ((h.partner_gone cleaned partner isUid).symm.trans found) (by simp)
      refine (h.key a peer (cleaned.shrinks.peers a peer found) busy).imp Or.inl ?_
      rintro ⟨b, linked⟩
      exact ⟨b, (h.cleaned_sessions cleaned).mpr ⟨linked, isUid, notPartner⟩⟩
  · cases linked : result.1.sessions uid with
    | none => rfl
    | some b => exact absurd rfl ((h.cleaned_sessions cleaned).mp linked).2.1

theorem entryRemoved {t : Turn} (h : Sessions srv exempt) (alone : srv.sessions uid = none)
    (removed : EntryRemoved srv uid t) (released : ∀ a, exempt a → a = uid ∨ weaker a) :
    Sessions t.server weaker := by
  refine ⟨?_, ?_, ?_⟩
  · rw [removed.sessions_eq]
    exact h.symmetric
  · intro a b linked
    rw [removed.sessions_eq] at linked
    have other : a ≠ uid := by
      rintro rfl
      exact absurd (alone.symm.trans linked) (by simp)
    rw [removed.peers_eq other]
    exact h.busy a b linked
  · intro a peer found busy
    rw [removed.sessions_eq]
    by_cases same : a = uid
    · subst same
      obtain ⟨room, status, -, notSession⟩ := removed.inRoom found
      exact absurd (Option.some.inj (status.symm.trans busy)) notSession
    · rw [removed.peers_eq same] at found
      exact (h.key a peer found busy).imp_left fun e => (released a e).resolve_left same

theorem leftAnnounced {t : Turn} {ws : ConnId} {room : RoomId} {it : Iter Uid}
    (h : Sessions srv exempt) (alone : srv.sessions uid = none)
    (announced : LeftAnnounced srv uid ws room it t) : Sessions t.server exempt := by
  cases announced with
  | finished found same all =>
      unfold deletePeer
      split
      · exact h
      · exact h.writePeer alone (by rintro peer ⟨⟩)
  | _ => exact h

end Sessions

/-! ## One step -/

/-- What the handler's point says about its uid. -/
def Phase.SessionPoint (srv : WebRTCSimpleServer) : Phase → Prop
  | ack uid => srv.peers uid = none
  | running uid _ (.sessionOk _) => srv.sessions uid = none ∧ srv.peers uid ≠ none
  | running uid _ (.roomOk room) => srv.sessions uid = none ∧ room ≠ inSession
  | leaving uid _ => srv.sessions uid = none
  | _ => True

theorem Phase.sessionPoint_idle {phase : Phase} (h : phase.idle = true)
    (srv : WebRTCSimpleServer) : phase.SessionPoint srv := by
  cases phase with
  | running uid roomId point =>
      cases point with
      | recv => trivial
      | _ => cases h
  | ack uid => cases h
  | leaving uid point => cases h
  | _ => trivial

theorem Phase.Departing.sessionPoint {phase : Phase} {uid : Uid} {srv : WebRTCSimpleServer}
    (h : phase.Departing uid) (alone : srv.sessions uid = none) : phase.SessionPoint srv := by
  rcases h with ⟨point, rfl⟩ | rfl
  · exact alone
  · trivial

structure SessionInv (w : World) : Prop where
  serial : w.Serial
  tables : Sessions w.server fun a => ∃ k, w.phase k = .leaving a .partner
  point : ∀ k, (w.phase k).SessionPoint w.server

section Step

variable {w w' : World} {act : Act} {t : Turn}

/-- A stretch of the loop keeps the tables in order and requests nothing for a uid in a session. -/
theorem Runs.sessions {uid : Uid} {roomId : Option RoomId} {body : Body}
    (runs : Runs w uid roomId act body) (tables : Sessions w.server fun _ => False)
    (point : (w.phase act.conn).SessionPoint w.server) (free : calleeFree w act = true) :
    Sessions body.server (fun _ => False) ∧
      body.Next uid fun srv phase => phase.SessionPoint srv := by
  have alone : ∀ {peer : Peer}, w.server.peers uid = some peer → peer.status = none →
      w.server.sessions uid = none :=
    fun found idle => tables.unlinked_of_idle found (by simp [idle])
  cases runs with
  | message waiting handled =>
      refine ⟨tables.of_tables handled.peers_eq handled.sessions_eq, ?_⟩
      cases handled with
      | sessionOk registered idle command fields found =>
          exact ⟨alone registered idle, by simp [registered]⟩
      | newRoom registered idle command fields valid notSession absent lists =>
          exact ⟨alone registered idle, notSession⟩
      | oldRoom registered idle command fields valid notSession found fresh lists =>
          exact ⟨alone registered idle, notSession⟩
      | _ => trivial
  | closed unusable waiting => exact ⟨tables, trivial⟩
  | raised mayRaise waiting => exact ⟨tables, trivial⟩
  | continued mayReturn waiting plain => exact ⟨tables, trivial⟩
  | session mayReturn waiting linked =>
      simp only [Act.conn, waiting] at point
      simp only [calleeFree, waiting, Option.all_eq_true, decide_eq_true_eq] at free
      exact ⟨tables.registerSession linked point.1 free, trivial⟩
  | sessionFailed mayReturn waiting missing => exact ⟨tables, trivial⟩
  | room mayReturn waiting entered =>
      simp only [Act.conn, waiting] at point
      have status : ∀ peer : Peer,
          Sessions (w.server.writePeer uid (some { peer with status := some _ })) fun _ => False :=
        fun peer => tables.writePeer point.1 (by
          rintro _ ⟨⟩
          simpa using point.2)
      cases entered with
      | unregistered absent => exact ⟨tables, trivial⟩
      | noRoom registered missing => exact ⟨status _, trivial⟩
      | entered registered found announced =>
          refine ⟨?_, ?_⟩
          · rw [announced.server_eq]
            exact (status _).of_tables rfl rfl
          · cases announced <;> trivial
  | joined mayReturn waiting announced =>
      refine ⟨?_, ?_⟩
      · rw [announced.server_eq]
        exact tables
      · cases announced <;> trivial

theorem Removed.sessions {srv : WebRTCSimpleServer} {uid : Uid} (removed : Removed srv uid t)
    (tables : Sessions srv fun _ => False) :
    Sessions t.server (fun a => t.phase = .leaving a .partner) ∧
      t.phase.SessionPoint t.server := by
  cases removed with
  | partner cleaned =>
      obtain ⟨after, alone⟩ := tables.cleaned cleaned
      refine ⟨after.mono ?_, alone⟩
      rintro a (none | rfl)
      · exact none.elim
      · rfl
  | entry cleaned removed =>
      obtain ⟨after, alone⟩ := tables.cleaned cleaned
      refine ⟨after.entryRemoved alone removed ?_, ?_⟩
      · rintro a (none | same)
        · exact none.elim
        · exact Or.inl same
      · exact removed.departing.sessionPoint (removed.sessions_eq ▸ alone)

theorem Fires.sessions (fires : Fires w act t) (seq : Sequential w act)
    (free : calleeFree w act = true)
    (tables : Sessions w.server fun a => w.phase act.conn = .leaving a .partner)
    (point : (w.phase act.conn).SessionPoint w.server) :
    Sessions t.server (fun a => t.phase = .leaving a .partner) ∧
      t.phase.SessionPoint t.server := by
  have settled : (∀ a, w.phase act.conn ≠ .leaving a .partner) → ∀ exempt,
      Sessions w.server exempt :=
    fun elsewhere exempt => tables.mono fun a partner => absurd partner (elsewhere a)
  have running : ∀ {uid roomId body}, Runs w uid roomId act body →
      Sessions w.server fun _ => False := by
    intro uid roomId body runs
    obtain ⟨at', waiting⟩ := runs.running
    exact settled (by simp [waiting]) _
  cases fires with
  | greeted waiting fields absent word =>
      exact ⟨settled (by simp [Act.conn, waiting]) _, absent⟩
  | refused waiting => exact ⟨settled (by simp [Act.conn, waiting]) _, trivial⟩
  | helloFailed waiting => exact ⟨settled (by simp [Act.conn, waiting]) _, trivial⟩
  | helloClosed unusable waiting => exact ⟨settled (by simp [Act.conn, waiting]) _, trivial⟩
  | rejected waiting => exact ⟨settled (by simp [Act.conn, waiting]) _, trivial⟩
  | ackFailed mayRaise waiting => exact ⟨settled (by simp [Act.conn, waiting]) _, trivial⟩
  | registered mayReturn waiting =>
      have base := settled (by simp [Act.conn, waiting])
      simp only [Act.conn, waiting] at point
      exact ⟨(base _).writePeer (tables.unlinked_of_absent point) (by simp), trivial⟩
  | timeout waiting => exact ⟨settled (by simp [Act.conn, waiting]) _, trivial⟩
  | loops runs =>
      obtain ⟨after, -⟩ := runs.sessions (running runs) point free
      exact ⟨after.mono fun _ => False.elim, trivial⟩
  | sends runs =>
      obtain ⟨after, next⟩ := runs.sessions (running runs) point free
      exact ⟨after.mono fun _ => False.elim, next⟩
  | leaves runs removed =>
      exact removed.sessions (runs.sessions (running runs) point free).1
  | partnerClosed mayReturn waiting removed =>
      simp only [Act.conn, waiting] at point tables
      refine ⟨tables.entryRemoved point removed ?_, ?_⟩
      · rintro a ⟨⟩
        exact Or.inl rfl
      · exact removed.departing.sessionPoint (removed.sessions_eq ▸ point)
  | leftSent mayReturn waiting announced =>
      have base := settled (by simp [Act.conn, waiting])
      simp only [Act.conn, waiting] at point
      refine ⟨(base _).leftAnnounced point announced, ?_⟩
      exact announced.departing.sessionPoint (announced.sessions_eq ▸ point)
  | @leaveRaised k pick uid at' mayRaise waiting =>
      have elsewhere : ∀ a, w.phase k ≠ .leaving a .partner := by
        intro a partner
        -- a close does not fail
        have sending := (seq rfl).1
        rw [partner] at sending
        cases sending
      exact ⟨settled elsewhere _, trivial⟩
  | finished waiting => exact ⟨settled (by simp [Act.conn, waiting]) _, trivial⟩

end Step

namespace SessionInv

variable {w w' : World} {act : Act}

theorem init : SessionInv World.empty :=
  ⟨World.serial_empty, .empty _, fun _ => trivial⟩

theorem step (inv : SessionInv w) (seq : Sequential w act) (free : calleeFree w act = true)
    (h : w.step act = some w') : SessionInv w' := by
  have serial := inv.serial.step seq h
  rcases sequential_cases inv.serial seq h with env | ⟨t, fires, rfl, others⟩
  · refine ⟨serial, ?_, ?_⟩
    · rw [env.server]
      refine inv.tables.mono ?_
      rintro a ⟨k, partner⟩
      rcases env.conns k with ⟨same, -⟩ | ⟨absent, -, -⟩
      · exact ⟨k, same.trans partner⟩
      · cases absent.symm.trans partner
    · intro k
      rcases env.conns k with ⟨same, -⟩ | ⟨-, hello, -⟩
      · rw [same, env.server]
        exact inv.point k
      · rw [hello]
        trivial
  · have only : ∀ a, (∃ k, w.phase k = .leaving a .partner) →
        w.phase act.conn = .leaving a .partner := by
      rintro a ⟨k, partner⟩
      by_cases self : k = act.conn
      · exact self ▸ partner
      · have idle := others k self
        rw [partner] at idle
        cases idle
    obtain ⟨tables, point⟩ := fires.sessions seq free (inv.tables.mono only) (inv.point _)
    refine ⟨serial, ?_, ?_⟩
    · rw [World.apply_server]
      refine tables.mono fun a partner => ⟨act.conn, ?_⟩
      rw [World.apply_phase_self]
      exact partner
    · intro k
      by_cases self : k = act.conn
      · subst self
        rw [World.apply_server, World.apply_phase_self]
        exact point
      · rw [World.apply_phase_of_ne _ _ _ self]
        exact Phase.sessionPoint_idle (others k self) _

theorem of_reachable
    (run : interleaved.Reachable (fun w act => Sequential w act ∧ calleeFree w act) w) :
    SessionInv w :=
  run.invariant init fun _ _ _ inv allowed h => inv.step allowed.1 allowed.2 h

/-- No session is being taken apart. -/
theorem settled (inv : SessionInv w) (quiet : w.Quiet) : Sessions w.server fun _ => False := by
  refine inv.tables.mono ?_
  rintro a ⟨k, partner⟩
  have idle := quiet k
  rw [partner] at idle
  cases idle

theorem sessionTables (inv : SessionInv w) (quiet : w.Quiet) : SessionTables w := by
  have settled := inv.settled quiet
  have pair : ∀ a b, w.server.sessions a = some b → ∃ partner, w.server.peers b = some partner ∧
      partner.status = some inSession :=
    fun a b linked => settled.busy b a (settled.symmetric a b linked)
  refine ⟨settled.symmetric, ?_, ?_, ?_⟩
  · intro a b linked
    obtain ⟨peer, found, -⟩ := settled.busy a b linked
    obtain ⟨partner, partnerFound, -⟩ := pair a b linked
    exact ⟨⟨peer, found⟩, partner, partnerFound⟩
  · intro a peer found
    constructor
    · intro busy
      exact (settled.key a peer found busy).resolve_left id
    · rintro ⟨b, linked⟩
      obtain ⟨peer', found', busy⟩ := settled.busy a b linked
      cases found.symm.trans found'
      exact busy
  · intro k u roomId order msg peer _ found busy
    obtain ⟨other, linked⟩ := (settled.key u peer found busy).resolve_left id
    obtain ⟨partner, partnerFound, partnerBusy⟩ := pair u other linked
    refine ⟨other, partner, linked, partnerFound, partnerBusy, ?_⟩
    simp [connectionHandler, found, busy, relayToSession, linked, partnerFound, partnerBusy]

end SessionInv

/--
The session tables are in order in every quiet state of the sequential runs in
which no callee is taken out of a session with another peer, and the first
registration that does so leaves them out of order.
-/
theorem session_tables {w : World}
    (run : interleaved.Reachable (fun w act => Sequential w act ∧ calleeFree w act) w) :
    (w.Quiet → SessionTables w) ∧ ∀ act w', Sequential w act → w.step act = some w' →
      w'.Quiet → (SessionTables w' ↔ calleeFree w act = true) := by
  have inv := SessionInv.of_reachable run
  refine ⟨inv.sessionTables, fun act w' seq h quiet => ⟨fun tables => ?_, fun free => ?_⟩⟩
  · by_contra taken
    obtain ⟨k, pick, u, roomId, callee, other, rfl, waiting, linked, different⟩ :
        ∃ k pick u roomId callee other, act = .resume k false pick ∧
          w.phase k = .running u roomId (.sessionOk callee) ∧
          w.server.sessions callee = some other ∧ other ≠ callee := by
      unfold calleeFree at taken
      split at taken
      · next k pick =>
          split at taken
          · next u roomId callee waiting =>
              cases linked : w.server.sessions callee with
              | none => simp [linked] at taken
              | some other =>
                  exact ⟨k, pick, u, roomId, callee, other, rfl, waiting, linked,
                    by simpa [linked] using taken⟩
          · exact absurd rfl taken
      · exact absurd rfl taken
    have point := inv.point k
    rw [waiting] at point
    have notCaller : other ≠ u := by
      rintro rfl
      exact absurd (point.1.symm.trans (inv.tables.symmetric callee _ linked)) (by simp)
    obtain ⟨peer, found, -⟩ := inv.tables.busy callee other linked
    rcases step_of_sessionOk waiting h with ⟨srv, registered, rfl⟩ | ⟨missing, -⟩
    swap
    · exact missing.elim point.2 fun absent => absurd (absent.symm.trans found) (by simp)
    have sessions := Sessions.registered_sessions registered
    have broken : srv.sessions other = some callee := by
      rw [sessions, if_neg different, if_neg notCaller]
      exact inv.tables.symmetric callee other linked
    have back := tables.symmetric other callee broken
    rw [World.apply_server, Turn.server, sessions, if_pos rfl] at back
    exact notCaller (Option.some.inj back).symm
  · exact (inv.step seq free h).sessionTables quiet

/-- Two clients in a session. -/
theorem session_tables_pair :
    ∃ w, w.server.sessions "x".toList = some "y".toList ∧ SessionTables w ∧
      ∀ act w', Sequential w act → w.step act = some w' → w'.Quiet →
        (SessionTables w' ↔ calleeFree w act = true) := by
  obtain ⟨w, run, absent, test⟩ := exists_sequential 2 calleeFree
    (greeting 0 "x" ++ greeting 1 "y" ++
      [.recv 0 "SESSION y".toList [] none, .resume 0 false none])
    (fun w => quietBelow 2 w && w.server.sessions "x".toList = some "y".toList) (by decide)
  obtain ⟨idle, linked⟩ := Bool.and_eq_true_iff.mp test
  obtain ⟨tables, exact'⟩ := session_tables run
  exact ⟨w, of_decide_eq_true linked, tables (absent.quiet idle), exact'⟩

/-- A third client calls a callee that is in a session. -/
theorem session_overwritten :
    ¬ ∀ w, interleaved.Reachable Sequential w → w.Quiet → SessionTables w := by
  intro tables
  obtain ⟨w, run, absent, test⟩ := exists_sequential 3 (fun _ _ => true)
    (greeting 0 "x" ++ greeting 1 "y" ++ greeting 2 "z" ++
      [.recv 0 "SESSION y".toList [] none, .resume 0 false none,
        .recv 2 "SESSION y".toList [] none, .resume 2 false none])
    (fun w => quietBelow 3 w && w.server.sessions "x".toList = some "y".toList &&
      w.server.sessions "y".toList = some "z".toList) (by decide)
  simp only [Bool.and_eq_true, decide_eq_true_eq] at test
  obtain ⟨⟨idle, first⟩, second⟩ := test
  have reachable := run.mono fun _ _ allowed => allowed.1
  have back := (tables w reachable (absent.quiet idle)).symmetric _ _ first
  exact absurd (second.symm.trans back) (by decide)

end GstWebrtc.Signalling
