import GstWebrtc.Multiparty.PeerList
import GstWebrtc.Multiparty.RoomClient
import GstWebrtc.Multiparty.RustClient

/-!
# The wire format of rooms

The server joins uids by single spaces and puts a payload after one space.  The
C, Rust and Python clients take these texts apart with different functions, and
find what the server put in.
-/

namespace GstWebrtc.Multiparty

open GstWebrtc.Base GstWebrtc.Base.CText GstWebrtc.Base.PyText GstWebrtc.Signalling Client

/-- The list that each client finds in `data`. -/
structure ListDecoded (uids : List Uid) (data : Text) : Prop where
  /-- `do_join_room` prepends one uid after the other to its list of peers. -/
  cClient : ∀ (prog : Program) (parse : Text → Option Json) (cl : Client),
    cl.appState = .roomJoining →
    cl.onServerMessage prog parse ⟨true, true⟩ data =
      .ok ({ cl with
        appState := if uids = [] then .roomJoined else .roomCallOffering
        peers := uids.reverse ++ cl.peers }, [])
  rustClient : ∀ lib : RustClient.Libraries, RustClient.initialPeers lib data = .ok uids
  pythonClient : RoomClient.roomPeers data = some uids

/-- The sender and the payload that each client finds in `data`. -/
structure MessageDecoded (uid payload data : Text) : Prop where
  cClient : ∀ (prog : Program) (parse : Text → Option Json) (gst : Gst) (cl : Client),
    cl.onServerMessage prog parse gst data =
      ((cl.findPeerFromList (some uid)).bind fun _ =>
        cl.handlePeerMessage parse gst (some payload)).map fun cl => (cl, [])
  rustClient : RustClient.App.fields "ROOM_PEER_MSG ".toList data = some [uid, payload]
  pythonClient : RoomClient.messageFields data = some (uid, payload)

section Decoding

variable {uids : List Uid} {uid payload : Text} {c : Char}

theorem listDecoded (clean : ∀ uid ∈ uids, Clean uid) :
    ListDecoded uids ("ROOM_OK ".toList ++ joinSpace uids) where
  cClient := by
    intro prog parse cl waits
    have data : ofData ("ROOM_OK ".toList ++ joinSpace uids) =
        "ROOM_OK ".toList ++ joinSpace uids := by
      rw [ofData_append (by decide), ofData_eq_self (noNul_joinSpace clean)]
    have starts : hasPrefix ("ROOM_OK ".toList ++ joinSpace uids) "ROOM_OK ".toList = true :=
      hasPrefix_iff.mpr (List.prefix_append _ _)
    have fields : strsplit ("ROOM_OK ".toList ++ joinSpace uids) 0 =
        "ROOM_OK".toList :: if uids = [] then [[]] else uids :=
      strsplit_list (show ' ' ∉ "ROOM_OK".toList by decide)
        fun uid listed => (clean uid listed).1.space_not_mem
    have joined : doJoinRoom ⟨true, true⟩ cl ("ROOM_OK ".toList ++ joinSpace uids) =
        .ok { cl with
          appState := if uids = [] then .roomJoined else .roomCallOffering
          peers := uids.reverse ++ cl.peers } := by
      unfold doJoinRoom
      rw [if_neg (not_not_intro waits), if_neg (by simp), fields]
      cases uids with
      | nil => rfl
      | cons first rest =>
          have nonempty : first ≠ [] := (clean first List.mem_cons_self).1.ne_nil
          rw [if_neg (List.cons_ne_nil first rest)]
          dsimp only
          rw [if_neg (by simp), if_neg nonempty, if_pos rfl,
            List.foldl_flip_cons_eq_append', if_neg (List.cons_ne_nil first rest)]
    unfold onServerMessage
    dsimp only
    rw [data, if_neg (by rintro ⟨⟩), if_pos (hasPrefix_shorter starts (by decide)), if_pos starts,
      joined]
    rfl
  rustClient lib := RustClient.initialPeers_roomOk fun uid listed => (clean uid listed).1
  pythonClient := RoomClient.roomPeers_roomOk fun uid listed => (clean uid listed).1

theorem messageDecoded (clean : Clean uid) (head : isSpace c = false)
    (noNul : '\x00' ∉ c :: payload) :
    MessageDecoded uid (c :: payload) ("ROOM_PEER_MSG ".toList ++ uid ++ ' ' :: c :: payload) where
  cClient _ _ _ _ := onServerMessage_message clean noNul
  rustClient := RustClient.fields_message clean.1
  pythonClient := RoomClient.messageFields_message clean.1 head

end Decoding

/--
What the server formats, the clients decode: the list of a `ROOM_OK`, and the
sender and payload of a `ROOM_PEER_MSG` that the server took from a command.
-/
theorem wire_round_trip (repr : Text → Text) :
    (∀ (room : RoomId) (uids : List Uid), (∀ uid ∈ uids, Clean uid) →
      ListDecoded uids ((Reply.roomOk room uids).text repr)) ∧
    (∀ (u v payload : Text) (c : Char), Clean u → Clean v → isSpace c = false →
      '\x00' ∉ c :: payload →
      splitMax 2 ("ROOM_PEER_MSG ".toList ++ v ++ ' ' :: c :: payload) =
        ["ROOM_PEER_MSG".toList, v, c :: payload] ∧
      (∀ (srv : WebRTCSimpleServer) (ws : ConnId) (room : RoomId) (peer : Signalling.Peer),
        srv.peers v = some peer → peer.status = some room →
        roomPeerMsg srv ws u (some room) ("ROOM_PEER_MSG ".toList ++ v ++ ' ' :: c :: payload) =
          .send srv (some room) peer.ws (.peerMsg u (c :: payload)) .sent) ∧
      MessageDecoded u (c :: payload) ((Reply.peerMsg u (c :: payload)).text repr)) := by
  refine ⟨fun room uids clean => listDecoded clean, ?_⟩
  intro u v payload c clean clean' head noNul
  have fields : splitMax 2 ("ROOM_PEER_MSG ".toList ++ v ++ ' ' :: c :: payload) =
      ["ROOM_PEER_MSG".toList, v, c :: payload] := by
    rw [List.append_assoc]
    exact splitMax_two (show Word "ROOM_PEER_MSG".toList by decide) clean'.1 head
  refine ⟨fields, ?_, messageDecoded clean head noNul⟩
  intro srv ws room peer found status
  unfold roomPeerMsg
  rw [fields]
  dsimp only
  rw [found]
  exact if_neg (not_not_intro status)

/-- A uid and a payload with spaces that no client may lose. -/
theorem wire_round_trip_pair :
    ListDecoded ["a".toList, "b".toList] ((Reply.roomOk [] ["a".toList, "b".toList]).text id) ∧
    MessageDecoded "a".toList "x  y ".toList ((Reply.peerMsg "a".toList "x  y ".toList).text id) := by
  have cleanA : Clean "a".toList := ⟨by decide, by decide⟩
  have cleanB : Clean "b".toList := ⟨by decide, by decide⟩
  have both : ∀ uid ∈ ["a".toList, "b".toList], Clean uid := by
    intro uid listed
    rcases List.mem_pair.mp listed with rfl | rfl
    · exact cleanA
    · exact cleanB
  exact ⟨(wire_round_trip id).1 [] _ both,
    ((wire_round_trip id).2 _ "b".toList _ 'x' cleanA cleanB (by decide) (by decide)).2.2⟩

end GstWebrtc.Multiparty
