import GstWebrtc.Signalling.Commands
import GstWebrtc.Signalling.OrderlyRooms
import GstWebrtc.Signalling.Removal

/-!
# `ROOM_PEER_LIST`

A member may ask for the list of its room, and with one message handled at a
time that list would be what the member was told of joins and leaves.  The
branch reads the name `peer_id`, which `connection_handler` does not have: the
`NameError` ends the handler, and the member is removed from the room instead.
-/

namespace GstWebrtc.Signalling

open GstWebrtc.Base GstWebrtc.Base.PyText WebRTCSimpleServer

/-- The member `uid` of `room` asks for the list of the room and is answered. -/
structure ListAnswered (repr : Text → Text) (w : World) (k : ConnId) (uid : Uid)
    (room : RoomId) : Prop where
  answered : ∃ w', Served w k "ROOM_PEER_LIST".toList w'
  /-- The answer lists every other member once, and these are the peers that `uid` knows of. -/
  listing : ∀ w', Served w k "ROOM_PEER_LIST".toList w' → ∃ reply peers,
    w'.log = w.log ++ [(k, reply)] ∧
    reply.text repr = "ROOM_PEER_LIST ".toList ++ joinSpace peers ∧
    peers.Nodup ∧ peers.toFinset = (w.server.members room).erase uid ∧
    peers.toFinset = w.view k
  stays : ∀ w', Served w k "ROOM_PEER_LIST".toList w' →
    w'.server = w.server ∧ w'.socket k = w.socket k

section Raise

variable {w v w' : World} {k : ConnId} {uid : Uid} {roomId : Option RoomId}
  {status : Option Text} {msg : Text} {exn : Exn}

/-- A text on which the handler raises is the beginning of `remove_peer`. -/
theorem Listens.serving_raise (listens : Listens w k uid roomId status)
    (raises : ∀ order, connectionHandler w.server k uid roomId order msg =
      some (.raise w.server exn)) : Serving w k msg v ↔ Removing w k uid v := by
  constructor
  · intro serving
    induction serving with
    | takes fires =>
        rw [listens.step_eq, raises] at fires
        obtain ⟨t, turn, rfl⟩ := Option.map_eq_some_iff.mp fires
        exact .begins turn
    | goesOn before fires ih => exact .goesOn ih fires
  · intro removing
    induction removing with
    | @begins pick t turn =>
        have fires : w.step (.recv k msg [] pick) = some (w.apply k t) := by
          rw [listens.step_eq, raises, Option.bind_some, Body.turn, turn]
          rfl
        exact .takes fires
    | goesOn before fires ih => exact .goesOn ih fires

/-- The handler has ended with the call once it is idle. -/
theorem Removing.removes (consistent : Consistent w.server) (removing : Removing w k uid v)
    (idle : (v.phase k).idle = true) : Removes w k uid v := by
  cases removing.stage consistent with
  | finished phase => exact ⟨removing, phase⟩
  | partner phase =>
      rw [phase] at idle
      cases idle
  | telling _ _ _ phase =>
      rw [phase] at idle
      cases idle
  | closing phase =>
      rw [phase] at idle
      cases idle

theorem Listens.served_raise (listens : Listens w k uid roomId status)
    (consistent : Consistent w.server)
    (raises : ∀ order, connectionHandler w.server k uid roomId order msg =
      some (.raise w.server exn)) : Served w k msg w' ↔ Removes w k uid w' := by
  constructor
  · rintro ⟨serving, idle⟩
    exact ((listens.serving_raise raises).mp serving).removes consistent idle
  · rintro ⟨removing, ended⟩
    exact ⟨(listens.serving_raise raises).mpr removing, by rw [ended]; rfl⟩

end Raise

section Rooms

variable {w w' : World} {act : Act} {k : ConnId} {uid : Uid} {room : RoomId}

/-- Nobody calls a peer. -/
theorem OrderlyRooms.calleeFree (inv : OrderlyRooms w) (act : Act) : calleeFree w act = true := by
  unfold Signalling.calleeFree
  split
  · next k pick =>
      split
      · next u roomId callee waiting =>
          have standing := inv.views.tables.standing k
          rw [waiting] at standing
          obtain ⟨status, -, -, impossible⟩ := standing
          exact impossible.elim
      · rfl
  · rfl

theorem OrderlyRooms.consistent (run : interleaved.Reachable Orderly w) (quiet : w.Quiet) :
    Consistent w.server := by
  have inv : OrderlyRooms w ∧ SessionInv w := by
    refine run.invariant (P := fun w => OrderlyRooms w ∧ SessionInv w) ⟨.init, .init⟩
      fun w act w' inv allowed h => ⟨inv.1.step allowed h, ?_⟩
    exact inv.2.step allowed.sequential (inv.1.calleeFree act) h
  exact consistent_of_quiet inv.2 inv.1.mail.rooms quiet

/-- A member that asks for the list of its room is removed from it. -/
theorem OrderlyRooms.list_removes (run : interleaved.Reachable Orderly w) (quiet : w.Quiet)
    (inside : uid ∈ w.server.members room) :
    ∃ k, w.server.peers uid = some ⟨k, some room⟩ ∧
      (∃ w', Served w k "ROOM_PEER_LIST".toList w') ∧
      ∀ w', Served w k "ROOM_PEER_LIST".toList w' → Removal w k uid w' := by
  have inv := OrderlyRooms.of_reachable run
  have consistent := OrderlyRooms.consistent run quiet
  obtain ⟨peer, roomId, found, waiting⟩ :=
    (inv.mail.rooms.roomTables quiet).connected room uid inside
  obtain ⟨entry, registered, member⟩ := (consistent.rooms room uid).mp inside
  cases found.symm.trans registered
  obtain ⟨k, status⟩ := peer
  obtain rfl : status = some room := member.1
  have listens : Listens w k uid roomId (some room) := ⟨waiting, found⟩
  have raises : ∀ order, connectionHandler w.server k uid roomId order
      "ROOM_PEER_LIST".toList = some (.raise w.server .nameError) :=
    fun order => handler_room found member
  obtain ⟨w', removes⟩ : ∃ w', Removes w k uid w' := exists_removes consistent
    fun v _ peer _ _ _ known => (inv.mail.rooms.owner v peer known).2
  exact ⟨k, found, ⟨w', (listens.served_raise consistent raises).mpr removes⟩,
    fun w' done => ((listens.served_raise consistent raises).mp done).removal consistent⟩

/-- Who is removed was not answered. -/
theorem ListAnswered.not_removal {repr : Text → Text} (answered : ListAnswered repr w k uid room)
    {entry : Peer} (registered : w.server.peers uid = some entry)
    (served : Served w k "ROOM_PEER_LIST".toList w') : ¬ Removal w k uid w' := by
  intro removal
  have gone := (removal.tables.gone uid (Or.inl rfl)).1
  rw [(answered.stays w' served).1] at gone
  cases registered.symm.trans gone

/--
In no state of the orderly runs is a member answered that asks for the list of
its room, although it knows the room.  The server removes it as if it had left.
-/
theorem room_peer_list_never (run : interleaved.Reachable Orderly w) (quiet : w.Quiet)
    (inside : uid ∈ w.server.members room) :
    ∃ k, w.server.peers uid = some ⟨k, some room⟩ ∧
      w.view k = (w.server.members room).erase uid ∧
      (∀ repr, ¬ ListAnswered repr w k uid room) ∧
      (∃ w', Served w k "ROOM_PEER_LIST".toList w') ∧
      ∀ w', Served w k "ROOM_PEER_LIST".toList w' → Removal w k uid w' := by
  obtain ⟨k, found, ⟨w', served⟩, removal⟩ := OrderlyRooms.list_removes run quiet inside
  refine ⟨k, found, ?_, fun repr answered => ?_, ⟨w', served⟩, removal⟩
  · obtain ⟨peer, known, view⟩ :=
      (OrderlyRooms.of_reachable run).views.agree quiet room uid inside
    cases found.symm.trans known
    exact view
  · exact answered.not_removal found served (removal w' served)

end Rooms

/-- Two members of a room. -/
theorem exists_orderly_pair : ∃ w, interleaved.Reachable Orderly w ∧ w.Quiet ∧
    "x".toList ∈ w.server.members "r".toList := by
  obtain ⟨w, run, absent, test⟩ := exists_sequential 2 (fun _ act => noSession act)
    (greeting 0 "x" ++ greeting 1 "y" ++
      [.recv 0 "ROOM r".toList [] none, .resume 0 false none,
        .recv 1 "ROOM r".toList ["x".toList] none, .resume 1 false (some "x".toList),
        .resume 1 false none])
    (fun w => quietBelow 2 w && w.server.members "r".toList = {"x".toList, "y".toList})
    (by decide)
  obtain ⟨idle, members⟩ := Bool.and_eq_true_iff.mp test
  refine ⟨w, run.mono fun _ _ allowed => ⟨allowed.1, allowed.2⟩, absent.quiet idle, ?_⟩
  rw [of_decide_eq_true members]
  exact Finset.mem_insert_self _ _

/-- A member of a room with another member in it asks for the list. -/
theorem room_peer_list_never_pair :
    ∃ w k w', w.server.peers "x".toList = some ⟨k, some "r".toList⟩ ∧
      Served w k "ROOM_PEER_LIST".toList w' ∧ Removal w k "x".toList w' := by
  obtain ⟨w, run, quiet, inside⟩ := exists_orderly_pair
  obtain ⟨k, found, -, -, ⟨w', served⟩, removal⟩ := room_peer_list_never run quiet inside
  exact ⟨w, k, w', found, served, removal w' served⟩

/-- The members of a room are not answered. -/
theorem room_list_unanswered :
    ¬ ∀ repr w k uid room, interleaved.Reachable Orderly w → w.Quiet →
      uid ∈ w.server.members room → w.server.peers uid = some ⟨k, some room⟩ →
      ListAnswered repr w k uid room := by
  intro answered
  obtain ⟨w, run, quiet, inside⟩ := exists_orderly_pair
  obtain ⟨k, found, ⟨w', served⟩, removal⟩ := OrderlyRooms.list_removes run quiet inside
  exact (answered id w k _ _ run quiet inside found).not_removal found served (removal w' served)

end GstWebrtc.Signalling
