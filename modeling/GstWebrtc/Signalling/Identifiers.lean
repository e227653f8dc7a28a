import GstWebrtc.Signalling.Authenticity

/-!
# The identifiers that the server admits

Uids and room names are checked where they come in, by a `split` with a limit and
a second `split` of what it leaves.  Whatever the clients send, the keys of the
tables and the statuses are what these checks let through.
-/

namespace GstWebrtc.Signalling

open GstWebrtc.Base GstWebrtc.Base.PyText WebRTCSimpleServer

/-! ## What `hello_peer` accepts -/

/-- Optional whitespace, `HELLO`, whitespace, and a word that ends the text and is no uid yet. -/
def Greets (srv : WebRTCSimpleServer) (uid : Uid) (msg : Text) : Prop :=
  srv.peers uid = none ∧ ∃ lead text, (∀ c ∈ lead, isSpace c = true) ∧ msg = lead ++ text ∧
    IsCommand "HELLO".toList uid text

theorem helloPeer_accepts_iff (srv : WebRTCSimpleServer) (ws : ConnId) (msg : Text) (uid : Uid) :
    helloPeer srv ws msg = .send srv ws .hello (.ack uid) ↔ Greets srv uid msg := by
  rw [Greets, ← splitMax_one_eq_pair_iff (by decide)]
  constructor
  · intro accepts
    rcases helloPeer_cases srv ws msg with stop | close | ⟨other, fields, absent, word, send⟩
    · rw [stop] at accepts
      cases accepts
    · rw [close] at accepts
      cases accepts
    · rw [send] at accepts
      cases accepts
      exact ⟨absent, fields, word⟩
  · rintro ⟨absent, fields, word⟩
    have accepted : ¬ (uid = [] ∨ (srv.peers uid).isSome ∨ split uid ≠ [uid]) := by
      rw [absent, split_eq_singleton_iff.mpr word]
      simpa using word.ne_nil
    rw [helloPeer, fields]
    simp only [ne_eq, not_true_eq_false, if_false]
    rw [if_neg accepted]

/-! ## Where rooms come from -/

/-- Rooms stay, and the new ones have a name that `ROOM` accepts. -/
structure RoomsGrow (before after : WebRTCSimpleServer) : Prop where
  kept : RoomsKept before after
  fresh : ∀ room, after.rooms room ≠ none →
    before.rooms room ≠ none ∨ (Word room ∧ room ≠ inSession)

namespace RoomsGrow

variable {a b c srv : WebRTCSimpleServer} {uid : Uid} {t : Turn}

theorem of_rooms (h : b.rooms = a.rooms) : RoomsGrow a b :=
  ⟨.of_rooms h, fun _ exists' => .inl (h ▸ exists')⟩

theorem trans (ab : RoomsGrow a b) (bc : RoomsGrow b c) : RoomsGrow a c :=
  ⟨ab.kept.trans bc.kept, fun room exists' => (bc.fresh room exists').elim (ab.fresh room) .inr⟩

theorem writeRoom {room : RoomId} (set : PySet Uid)
    (known : srv.rooms room ≠ none ∨ (Word room ∧ room ≠ inSession)) :
    RoomsGrow srv (srv.writeRoom room set) := by
  refine ⟨.writeRoom srv room set, ?_⟩
  intro other exists'
  by_cases same : other = room
  · rw [same]
    exact known
  · rw [rooms_writeRoom, Function.update_of_ne same] at exists'
    exact .inl exists'

theorem deletePeer (srv : WebRTCSimpleServer) (uid : Uid) (ws : ConnId) :
    RoomsGrow srv (deletePeer srv uid ws).server := by
  unfold Signalling.deletePeer
  split <;> exact .of_rooms rfl

theorem leftAnnounced {ws : ConnId} {room : RoomId} {it : Iter Uid}
    (h : LeftAnnounced srv uid ws room it t) : RoomsGrow srv t.server := by
  cases h with
  | finished found same all => exact .deletePeer srv uid ws
  | _ => exact .of_rooms rfl

theorem entryRemoved (h : EntryRemoved srv uid t) : RoomsGrow srv t.server := by
  cases h with
  | absent unregistered => exact .of_rooms rfl
  | plain registered outside => exact .deletePeer srv uid _
  | noRoom registered member missing => exact .of_rooms rfl
  | notListed registered member found unlisted => exact .deletePeer srv uid _
  | leaves registered member found listed announced =>
      have exists' : srv.rooms _ ≠ none := Option.ne_none_iff_exists'.mpr ⟨_, found⟩
      exact (RoomsGrow.writeRoom _ (.inl exists')).trans (leftAnnounced announced)

theorem removed (h : Removed srv uid t) : RoomsGrow srv t.server := by
  cases h with
  | partner cleaned => cases cleaned; exact .of_rooms rfl
  | entry cleaned removed =>
      refine RoomsGrow.trans ?_ (entryRemoved removed)
      cases cleaned <;> exact .of_rooms rfl

theorem runs {w : World} {roomId : Option RoomId} {act : Act} {body : Body}
    (h : Runs w uid roomId act body) : RoomsGrow w.server body.server := by
  cases h with
  | message waiting handled =>
      cases handled with
      | newRoom registered idle command fields valid notSession absent lists =>
          exact .writeRoom _ (.inr ⟨valid, notSession⟩)
      | _ => exact .of_rooms rfl
  | session mayReturn waiting linked =>
      obtain ⟨peer, calleePeer, -, -, -, -, rooms⟩ := registerSession_eq linked
      exact .of_rooms rooms
  | room mayReturn waiting entered =>
      cases entered with
      | unregistered absent => exact .of_rooms rfl
      | noRoom registered missing => exact .of_rooms rfl
      | entered registered found announced =>
          have exists' : w.server.rooms _ ≠ none := Option.ne_none_iff_exists'.mpr ⟨_, found⟩
          rw [announced.server_eq]
          exact (RoomsGrow.of_rooms (a := w.server) (b := w.server.writePeer uid _) rfl).trans
            (.writeRoom _ (.inl exists'))
  | joined mayReturn waiting announced => exact .of_rooms (congrArg _ announced.server_eq)
  | _ => exact .of_rooms rfl

theorem fires {w : World} {act : Act} (h : Fires w act t) : RoomsGrow w.server t.server := by
  cases h with
  | loops runs' => exact runs runs'
  | sends runs' => exact runs runs'
  | leaves runs' removed' => exact (runs runs').trans (removed removed')
  | partnerClosed mayReturn waiting removed' => exact entryRemoved removed'
  | leftSent mayReturn waiting announced => exact leftAnnounced announced
  | _ => exact .of_rooms rfl

end RoomsGrow

/-! ## The invariant -/

/-- The keys of the tables are words, and a status that is not `None` or `'session'` is a room. -/
structure Admitted (w : World) : Prop where
  uid : ∀ u, w.server.peers u ≠ none → Word u
  room : ∀ r, w.server.rooms r ≠ none → Word r ∧ r ≠ inSession
  status : ∀ u peer, w.server.peers u = some peer → peer.status = none ∨
    peer.status = some inSession ∨ ∃ r, peer.status = some r ∧ w.server.rooms r ≠ none

/-- The guard of the branch that reports an unknown peer status. -/
def UnknownStatus (w : World) (u : Uid) : Prop :=
  ∃ peer status, w.server.peers u = some peer ∧ peer.status = some status ∧
    status ≠ inSession ∧ status = []

/-- The room that a handler is about to enter exists. -/
structure AdmittedInv (w : World) : Prop extends Admitted w where
  named : ∀ k u, (w.phase k).uid? = some u → Word u
  asked : ∀ k u roomId r, w.phase k = .running u roomId (.roomOk r) → w.server.rooms r ≠ none

section Step

variable {w w' : World} {act : Act} {t : Turn}

/-- `ROOM_OK` is sent for a room that exists. -/
theorem Fires.asked (fires : Fires w act t) {u : Uid} {roomId : Option RoomId} {r : RoomId}
    (asked : t.phase = .running u roomId (.roomOk r)) : t.server.rooms r ≠ none := by
  cases fires with
  | sends runs =>
      cases runs with
      | message waiting handled =>
          cases handled with
          | newRoom registered idle command fields valid notSession absent lists =>
              cases asked
              simp [Turn.server]
          | oldRoom registered idle command fields valid notSession found fresh lists =>
              cases asked
              exact Option.ne_none_iff_exists'.mpr ⟨_, found⟩
          | _ => cases asked
      | room mayReturn waiting entered =>
          cases entered with
          | entered registered found announced =>
              cases announced
              cases asked
      | joined mayReturn waiting announced =>
          cases announced
          cases asked
  | leaves runs removed => exact absurd asked removed.departing.not_running
  | partnerClosed mayReturn waiting removed => exact absurd asked removed.departing.not_running
  | leftSent mayReturn waiting announced => exact absurd asked announced.departing.not_running
  | _ => cases asked

end Step

namespace AdmittedInv

variable {w w' : World} {act : Act}

theorem init : AdmittedInv World.empty where
  uid u entry := absurd rfl entry
  room r exists' := absurd rfl exists'
  status u peer found := by cases found
  named k u named := by cases named
  asked k u roomId r asked := by cases asked

theorem turn (inv : AdmittedInv w) {t : Turn} (fires : Fires w act t) :
    AdmittedInv (w.apply act.conn t) := by
  have rooms : RoomsGrow w.server t.server := .fires fires
  refine ⟨⟨?_, ?_, ?_⟩, ?_, ?_⟩
  · intro u entry
    rw [World.apply_server] at entry
    obtain ⟨peer, found⟩ := Option.ne_none_iff_exists'.mp entry
    have before (old : Peer) (was : w.server.peers u = some old) : Word u :=
      inv.uid u (Option.ne_none_iff_exists'.mpr ⟨old, was⟩)
    cases fires.entry found with
    | kept was => exact before _ was
    | registered waiting => exact inv.named act.conn u (congrArg Phase.uid? waiting)
    | linked resumed waiting either was => exact before _ was
    | entered waiting was mayReturn => exact before _ was
  · intro r exists'
    rw [World.apply_server] at exists'
    exact (rooms.fresh r exists').elim (inv.room r) id
  · intro u peer found
    rw [World.apply_server] at found ⊢
    cases fires.entry found with
    | kept was =>
        refine (inv.status u peer was).imp_right (Or.imp_right ?_)
        rintro ⟨r, status, exists'⟩
        exact ⟨r, status, rooms.kept r exists'⟩
    | registered waiting => exact .inl rfl
    | linked resumed waiting either was => exact .inr (.inl rfl)
    | entered waiting was mayReturn =>
        exact .inr (.inr ⟨_, rfl, rooms.kept _ (inv.asked _ _ _ _ waiting)⟩)
  · intro k u named
    by_cases self : k = act.conn
    · rw [self, World.apply_phase_self] at named
      rcases fires.named named with before | ⟨word, -⟩
      · exact inv.named act.conn u before
      · exact word
    · rw [World.apply_phase_of_ne _ _ _ self] at named
      exact inv.named k u named
  · intro k u roomId r asked
    rw [World.apply_server]
    by_cases self : k = act.conn
    · rw [self, World.apply_phase_self] at asked
      exact fires.asked asked
    · rw [World.apply_phase_of_ne _ _ _ self] at asked
      exact rooms.kept r (inv.asked k u roomId r asked)

theorem step (inv : AdmittedInv w) (h : w.step act = some w') : AdmittedInv w' := by
  rcases step_cases h with ⟨j, rfl, absent, rfl⟩ | ⟨j, rfl, usable, rfl⟩ | ⟨t, fires, rfl⟩
  · refine ⟨⟨inv.uid, inv.room, inv.status⟩, ?_, ?_⟩
    · intro k u named
      rw [World.phase_setConn] at named
      split at named
      · cases named
      · exact inv.named k u named
    · intro k u roomId r asked
      rw [World.phase_setConn] at asked
      split at asked
      · cases asked
      · exact inv.asked k u roomId r asked
  · refine ⟨⟨inv.uid, inv.room, inv.status⟩, ?_, ?_⟩
    · intro k u named
      rw [World.phase_lose] at named
      exact inv.named k u named
    · intro k u roomId r asked
      rw [World.phase_lose] at asked
      exact inv.asked k u roomId r asked
  · exact inv.turn fires

theorem of_reachable (run : interleaved.Reachable Machine.anyAction w) : AdmittedInv w :=
  run.invariant init fun _ _ _ inv _ fires => inv.step fires

end AdmittedInv

/-- No status that is not `None` is empty. -/
theorem Admitted.known {w : World} (admitted : Admitted w) (u : Uid) : ¬ UnknownStatus w u := by
  rintro ⟨peer, status, found, isStatus, notSession, empty⟩
  rcases admitted.status u peer found with idle | busy | ⟨r, member, exists'⟩
  · rw [idle] at isStatus
    cases isStatus
  · rw [busy] at isStatus
    exact notSession (Option.some.inj isStatus).symm
  · rw [member] at isStatus
    cases isStatus
    exact (admitted.room _ exists').1.ne_nil empty

/-- Whatever is sent, the identifiers in the tables are those that the checks let through. -/
theorem identifiers_admitted {w : World} (run : interleaved.Reachable Machine.anyAction w) :
    Admitted w ∧ w.server.rooms inSession = none ∧ (∀ u, ¬ UnknownStatus w u) ∧
      ∀ k msg uid, helloPeer w.server k msg = .send w.server k .hello (.ack uid) ↔
        Greets w.server uid msg := by
  have inv := AdmittedInv.of_reachable run
  refine ⟨inv.toAdmitted, ?_, inv.toAdmitted.known, helloPeer_accepts_iff w.server⟩
  by_contra exists'
  exact (inv.room inSession exists').2 rfl

/-- A client that has entered a room. -/
theorem identifiers_admitted_member : ∃ w,
    w.server.peers "x".toList = some ⟨0, some "r".toList⟩ ∧ Admitted w ∧
      w.server.rooms inSession = none ∧ (∀ u, ¬ UnknownStatus w u) ∧
      ∀ k msg uid, helloPeer w.server k msg = .send w.server k .hello (.ack uid) ↔
        Greets w.server uid msg := by
  obtain ⟨w, run, member⟩ := interleaved.exists_reachable_of_exec
    [.connect 0, .recv 0 " HELLO  x".toList [] none, .resume 0 false none,
      .recv 0 "ROOM r".toList [] none, .resume 0 false none]
    (fun w => decide (w.server.peers "x".toList = some ⟨0, some "r".toList⟩)) (by decide)
  exact ⟨w, of_decide_eq_true member, identifiers_admitted run⟩

end GstWebrtc.Signalling
