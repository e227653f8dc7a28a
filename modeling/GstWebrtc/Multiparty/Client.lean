import GstWebrtc.Base.JsonGlib

/-!
# The multiparty client

The signalling part of `mp-webrtc-sendrecv.c`: its global variables as a record,
and one function for each callback.  A callback returns the new state with the
texts that it sends, or the fault that ends the process.  What json-glib makes
of a peer's text is a parameter, and what GStreamer answers is an argument.
-/

namespace GstWebrtc.Multiparty

open GstWebrtc.Base GstWebrtc.Base.CText

/-- `enum AppState`. -/
inductive AppState where
  | appStateUnknown
  | appStateError
  | serverConnecting
  | serverConnectionError
  | serverConnected
  | serverRegistering
  | serverRegistrationError
  | serverRegistered
  | serverClosed
  | roomJoining
  | roomJoinError
  | roomJoined
  | roomCallNegotiating
  | roomCallOffering
  | roomCallAnswering
  | roomCallStarted
  | roomCallStopping
  | roomCallStopped
  | roomCallError
  deriving DecidableEq

/-- The number of an enumerator, by which the code compares states. -/
def AppState.code : AppState → Nat
  | appStateUnknown => 0
  | appStateError => 1
  | serverConnecting => 1000
  | serverConnectionError => 1001
  | serverConnected => 1002
  | serverRegistering => 2000
  | serverRegistrationError => 2001
  | serverRegistered => 2002
  | serverClosed => 2003
  | roomJoining => 3000
  | roomJoinError => 3001
  | roomJoined => 3002
  | roomCallNegotiating => 4000
  | roomCallOffering => 4001
  | roomCallAnswering => 4002
  | roomCallStarted => 4003
  | roomCallStopping => 4004
  | roomCallStopped => 4005
  | roomCallError => 4006

/-- What ends the process at once. -/
inductive Fault where
  | nullDereference
  | assertion
  /-- A string function is given `NULL`. -/
  | nullString
  deriving DecidableEq

/-- `local_id` and `room_id`, as `main` leaves them. -/
structure Program where
  localId : CString
  roomId : CString

structure Client where
  appState : AppState
  peers : List Text
  /-- The state of `ws_conn` is `SOUP_WEBSOCKET_STATE_OPEN`. -/
  connected : Bool
  /-- The main loop runs. -/
  looping : Bool
  deriving DecidableEq

/-- What GStreamer answers during one callback. -/
structure Gst where
  /-- `start_pipeline` succeeds. -/
  started : Bool
  /-- The assertions about the pipeline and its elements hold. -/
  sound : Bool

namespace Client

/-- The client when its connection has been made, before `register_with_server`. -/
def opened : Client := ⟨.serverConnected, [], true, true⟩

/-- `cleanup_and_quit_loop`, where `appStateUnknown` keeps the state. -/
def cleanupAndQuitLoop (cl : Client) (state : AppState) : Client :=
  { cl with
    appState := if 0 < state.code then state else cl.appState
    connected := false
    looping := false }

/-- `register_with_server`, with nothing for `FALSE`. -/
def registerWithServer (prog : Program) (cl : Client) : Option (Client × List Text) :=
  if cl.connected then
    some ({ cl with appState := .serverRegistering }, ["HELLO ".toList ++ prog.localId.text])
  else none

/-- `join_room_on_server`, with nothing for `FALSE`. -/
def joinRoomOnServer (prog : Program) (cl : Client) : Option (Client × List Text) :=
  if cl.connected then
    some ({ cl with appState := .roomJoining }, ["ROOM ".toList ++ prog.roomId.text])
  else none

def doRegistration (prog : Program) (cl : Client) : Client × List Text :=
  if cl.appState ≠ .serverRegistering then
    (cl.cleanupAndQuitLoop .appStateError, [])
  else
    match joinRoomOnServer prog { cl with appState := .serverRegistered } with
    | none =>
        ({ cl with appState := .serverRegistered }.cleanupAndQuitLoop .roomCallError, [])
    | some joining => joining

def doJoinRoom (gst : Gst) (cl : Client) (text : Text) : Except Fault Client :=
  if cl.appState ≠ .roomJoining then
    .ok (cl.cleanupAndQuitLoop .roomJoinError)
  else if gst.started = false then
    .ok ({ cl with appState := .roomJoined }.cleanupAndQuitLoop .roomCallError)
  else
    match strsplit text 0 with
    | [] => .error .assertion
    | command :: peerIds =>
        if command ≠ "ROOM_OK".toList then .error .assertion
        else
          match peerIds with
          | [] => .ok { cl with appState := .roomJoined }
          | peerId :: _ =>
              if peerId = [] then .ok { cl with appState := .roomJoined }
              -- `call_peer` puts an element for the peer into the pipeline
              else if gst.sound then
                .ok { cl with
                  appState := .roomCallOffering
                  peers := peerIds.foldl (fun peers peerId => peerId :: peers) cl.peers }
              else .error .assertion

def handleErrorMessage (cl : Client) : Client :=
  let state :=
    match cl.appState with
    | .serverConnecting => .serverConnectionError
    | .serverRegistering => .serverRegistrationError
    | .roomJoining => .roomJoinError
    | .roomJoined | .roomCallNegotiating | .roomCallOffering | .roomCallAnswering =>
        .roomCallError
    | .roomCallStarted | .roomCallStopping | .roomCallStopped => .roomCallError
    | _ => .appStateError
  { cl with appState := state }.cleanupAndQuitLoop .appStateUnknown

/-- `find_peer_from_list`: the data of the element that `g_list_find_custom` finds, and
the dereference of a null pointer when it finds none. -/
def findPeerFromList (cl : Client) (peerId : Option Text) : Except Fault Text :=
  match cl.peers.find? fun peer => some peer = peerId with
  | none => .error .nullDereference
  | some peer => .ok peer

/-- `incoming_call_from_peer`, which asserts that the element is linked. -/
def incomingCallFromPeer (gst : Gst) (cl : Client) : Except Fault Client :=
  if gst.sound then .ok cl else .error .assertion

def handleSdpOffer (gst : Gst) (cl : Client) (text : Option Text) : Except Fault Client :=
  if cl.appState ≠ .roomCallAnswering then .error .assertion
  else
    match text with
    -- `strlen`
    | none => .error .nullString
    | some _ => if gst.sound then .ok cl else .error .assertion

def handleSdpAnswer (gst : Gst) (cl : Client) (text : Option Text) : Except Fault Client :=
  if cl.appState.code < AppState.roomCallOffering.code then .error .assertion
  else
    match text with
    -- `strlen`
    | none => .error .nullString
    | some _ => if gst.sound then .ok cl else .error .assertion

/-- The `sdp` branch of `handle_peer_message`. -/
def handlePeerSdp (gst : Gst) (cl : Client) (object : JsonObject) : Except Fault Client :=
  if cl.appState.code < AppState.roomJoined.code then .error .assertion
  else
    let child := object.getObjectMember "sdp".toList
    if child.hasMember "type".toList = false then .ok (cl.cleanupAndQuitLoop .roomCallError)
    else
      let sdpType := child.getStringMember "type".toList
      let text := child.getStringMember "sdp".toList
      if sdpType = some "offer".toList then
        match incomingCallFromPeer gst { cl with appState := .roomCallAnswering } with
        | .error fault => .error fault
        | .ok cl => handleSdpOffer gst cl text
      else if sdpType = some "answer".toList then
        if cl.appState.code < AppState.roomCallOffering.code then .error .assertion
        else
          match handleSdpAnswer gst cl text with
          | .error fault => .error fault
          | .ok cl => .ok { cl with appState := .roomCallStarted }
      else .ok (cl.cleanupAndQuitLoop .roomCallError)

/-- The `ice` branch of `handle_peer_message`. -/
def handlePeerIce (gst : Gst) (cl : Client) (object : JsonObject) : Except Fault Client :=
  let child := object.getObjectMember "ice".toList
  if gst.sound then
    match child.getStringMember "candidate".toList with
    -- the string argument of `add-ice-candidate`
    | none => .error .nullString
    | some _ => .ok cl
  else .error .assertion

def handlePeerMessage (parse : Text → Option Json) (gst : Gst) (cl : Client)
    (msg : Option Text) : Except Fault Client :=
  match msg with
  | none => .ok cl
  | some msg =>
      match parse msg with
      | some (.object members) =>
          let object : JsonObject := some members
          if object.hasMember "sdp".toList then handlePeerSdp gst cl object
          else if object.hasMember "ice".toList then handlePeerIce gst cl object
          else .ok cl
      -- the message is ignored
      | _ => .ok cl

/-- The `ROOM_PEER` branch of `on_server_message`. -/
def onRoomPeer (parse : Text → Option Json) (gst : Gst) (cl : Client) (text : Text) :
    Except Fault Client :=
  if hasPrefix text "ROOM_PEER_MSG".toList then
    let splitm := strsplit text 3
    match findPeerFromList cl splitm[1]? with
    | .error fault => .error fault
    | .ok _ => handlePeerMessage parse gst cl splitm[2]?
  else if hasPrefix text "ROOM_PEER_JOINED".toList then
    match (strsplit text 2)[1]? with
    | none => .error .assertion
    | some peerId => .ok { cl with peers := peerId :: cl.peers }
  else if hasPrefix text "ROOM_PEER_LEFT".toList then
    match findPeerFromList cl (strsplit text 2)[1]? with
    | .error fault => .error fault
    | .ok peerId =>
        -- `remove_peer_from_pipeline`
        if gst.sound then .ok { cl with peers := cl.peers.erase peerId }
        else .error .assertion
  else .ok cl

/-- `on_server_message`, for a text message. -/
def onServerMessage (prog : Program) (parse : Text → Option Json) (gst : Gst) (cl : Client)
    (data : Text) : Except Fault (Client × List Text) :=
  let text := ofData data
  if text = "HELLO".toList then
    .ok (doRegistration prog cl)
  else if hasPrefix text "ROOM_".toList then
    if hasPrefix text "ROOM_OK ".toList then
      (doJoinRoom gst cl text).map fun cl => (cl, [])
    else if hasPrefix text "ROOM_PEER".toList then
      (onRoomPeer parse gst cl text).map fun cl => (cl, [])
    else .ok (cl.cleanupAndQuitLoop .appStateUnknown, [])
  else if hasPrefix text "ERROR".toList then
    .ok (handleErrorMessage cl, [])
  else .ok (cl.cleanupAndQuitLoop .appStateUnknown, [])

/-! ## Callbacks of the pipeline -/

/-- What the element of a peer reports; the body is the JSON text without its first brace. -/
inductive Event where
  | negotiationNeeded (peerId : Text)
  | offerCreated (peerId body : Text)
  | answerCreated (peerId body : Text)
  | iceCandidate (peerId body : Text)

def Event.peerId : Event → Text
  | negotiationNeeded peerId | offerCreated peerId _ | answerCreated peerId _
  | iceCandidate peerId _ => peerId

/-- `send_room_peer_msg`. -/
def sendRoomPeerMsg (text peerId : Text) : Text :=
  "ROOM_PEER_MSG ".toList ++ peerId ++ ' ' :: text

/-- A message to a peer is no call. -/
theorem sendRoomPeerMsg_plain {text peerId : Text} :
    ¬ "SESSION".toList <+: sendRoomPeerMsg text peerId := by
  unfold sendRoomPeerMsg
  rw [List.append_assoc]
  exact PyText.not_prefix_append (by decide) (by decide)

/-- `on_negotiation_needed`, `on_offer_created`, `on_answer_created` and
`send_ice_candidate_message`. -/
def onEvent (gst : Gst) (cl : Client) : Event → Except Fault (Client × List Text)
  | .negotiationNeeded _ => .ok ({ cl with appState := .roomCallOffering }, [])
  | .offerCreated peerId body =>
      if cl.appState = .roomCallOffering ∧ gst.sound then
        .ok (cl, [sendRoomPeerMsg ('\x7b' :: body) peerId])
      else .error .assertion
  | .answerCreated peerId body =>
      if cl.appState = .roomCallAnswering ∧ gst.sound then
        .ok ({ cl with appState := .roomCallStarted }, [sendRoomPeerMsg ('\x7b' :: body) peerId])
      else .error .assertion
  | .iceCandidate peerId body =>
      if cl.appState.code < AppState.roomCallOffering.code then
        .ok (cl.cleanupAndQuitLoop .appStateError, [])
      else .ok (cl, [sendRoomPeerMsg ('\x7b' :: body) peerId])

/-! ## The peer list -/

/-- What a text of the server makes of the list `peers`. -/
def peersAfter (peers : List Text) (data : Text) : List Text :=
  let text := ofData data
  if hasPrefix text "ROOM_OK ".toList then
    match strsplit text 0 with
    | _ :: peerId :: rest =>
        if peerId = [] then peers
        else (peerId :: rest).foldl (fun peers peerId => peerId :: peers) peers
    | _ => peers
  else if hasPrefix text "ROOM_PEER_JOINED".toList then
    match (strsplit text 2)[1]? with
    | none => peers
    | some peerId => peerId :: peers
  else if hasPrefix text "ROOM_PEER_LEFT".toList then
    match (strsplit text 2)[1]? with
    | none => peers
    | some peerId => peers.erase peerId
  else peers

/-- The peer that `find_peer_from_list` is asked for when a text is handled. -/
def looksUp (data : Text) : Option (Option Text) :=
  let text := ofData data
  if hasPrefix text "ROOM_PEER_MSG".toList then some (strsplit text 3)[1]?
  else if hasPrefix text "ROOM_PEER_LEFT".toList then some (strsplit text 2)[1]?
  else none

/-- The peer that a text asks for is in the list. -/
def Finds (peers : List Text) (data : Text) : Prop :=
  ∀ peerId, looksUp data = some peerId → ∃ peer ∈ peers, some peer = peerId

section Messages

variable {prog : Program} {parse : Text → Option Json} {gst : Gst} {cl cl' : Client}
  {data text : Text} {sent : List Text}

theorem findPeerFromList_ok {peerId : Option Text} {peer : Text}
    (h : cl.findPeerFromList peerId = .ok peer) : peer ∈ cl.peers ∧ some peer = peerId := by
  unfold findPeerFromList at h
  split at h
  · cases h
  · next found =>
      cases h
      exact ⟨List.mem_of_find?_eq_some found, by simpa using List.find?_some found⟩

theorem findPeerFromList_of_mem {peerId : Option Text}
    (h : ∃ peer ∈ cl.peers, some peer = peerId) : ∃ peer, cl.findPeerFromList peerId = .ok peer := by
  obtain ⟨peer, inside, same⟩ := h
  unfold findPeerFromList
  split
  · next missing =>
      exact absurd same (by simpa using List.find?_eq_none.mp missing peer inside)
  · next found => exact ⟨_, rfl⟩

/-- A call that leaves the client alone, or fails without looking a peer up. -/
def Plain (cl : Client) (result : Except Fault Client) : Prop :=
  result = .ok cl ∨ ∃ fault, result = .error fault ∧ fault ≠ .nullDereference

theorem incomingCallFromPeer_plain (gst : Gst) (cl : Client) :
    Plain cl (incomingCallFromPeer gst cl) := by
  unfold incomingCallFromPeer
  split
  · exact Or.inl rfl
  · exact Or.inr ⟨_, rfl, by decide⟩

theorem handleSdpOffer_plain (gst : Gst) (cl : Client) (sdp : Option Text) :
    Plain cl (handleSdpOffer gst cl sdp) := by
  unfold handleSdpOffer
  split
  · exact Or.inr ⟨_, rfl, by decide⟩
  · split
    · exact Or.inr ⟨_, rfl, by decide⟩
    · split
      · exact Or.inl rfl
      · exact Or.inr ⟨_, rfl, by decide⟩

theorem handleSdpAnswer_plain (gst : Gst) (cl : Client) (sdp : Option Text) :
    Plain cl (handleSdpAnswer gst cl sdp) := by
  unfold handleSdpAnswer
  split
  · exact Or.inr ⟨_, rfl, by decide⟩
  · split
    · exact Or.inr ⟨_, rfl, by decide⟩
    · split
      · exact Or.inl rfl
      · exact Or.inr ⟨_, rfl, by decide⟩

theorem handlePeerIce_plain (gst : Gst) (cl : Client) (object : JsonObject) :
    Plain cl (handlePeerIce gst cl object) := by
  unfold handlePeerIce
  dsimp only
  split
  · split
    · exact Or.inr ⟨_, rfl, by decide⟩
    · exact Or.inl rfl
  · exact Or.inr ⟨_, rfl, by decide⟩

/-- The `type` of a session description. -/
def sdpTypeOf (object : JsonObject) : Option Text :=
  (object.getObjectMember "sdp".toList).getStringMember "type".toList

/-- What a session description does to a client. -/
theorem handlePeerSdp_cases (gst : Gst) (cl : Client) (object : JsonObject) :
    (∃ fault, handlePeerSdp gst cl object = .error fault ∧ fault ≠ .nullDereference) ∨
      (∃ state, handlePeerSdp gst cl object = .ok (cl.cleanupAndQuitLoop state) ∧
        sdpTypeOf object ≠ some "offer".toList ∧ sdpTypeOf object ≠ some "answer".toList) ∨
      (handlePeerSdp gst cl object = .ok { cl with appState := .roomCallAnswering } ∧
        sdpTypeOf object = some "offer".toList) ∨
      (handlePeerSdp gst cl object = .ok { cl with appState := .roomCallStarted } ∧
        sdpTypeOf object = some "answer".toList) := by
  unfold handlePeerSdp
  dsimp only
  generalize (object.getObjectMember "sdp".toList).getStringMember "sdp".toList = sdp
  split
  · exact Or.inl ⟨_, rfl, by decide⟩
  · split
    · next untyped =>
        have none : ∀ sdpType, sdpTypeOf object ≠ some sdpType := fun sdpType typed => by
          cases untyped.symm.trans (JsonObject.hasMember_of_getStringMember typed)
        exact Or.inr (Or.inl ⟨_, rfl, none _, none _⟩)
    · split
      · next offers =>
          have calls := incomingCallFromPeer_plain gst { cl with appState := .roomCallAnswering }
          rcases calls with called | ⟨fault, failed, other⟩
          · rw [called]
            have sets := handleSdpOffer_plain gst { cl with appState := .roomCallAnswering } sdp
            rcases sets with set | ⟨fault, failed, other⟩
            · exact Or.inr (Or.inr (Or.inl ⟨set, offers⟩))
            · exact Or.inl ⟨fault, failed, other⟩
          · rw [failed]
            exact Or.inl ⟨fault, rfl, other⟩
      · next notOffer =>
          split
          · next answers =>
              split
              · exact Or.inl ⟨_, rfl, by decide⟩
              · rcases handleSdpAnswer_plain gst cl sdp with set | ⟨fault, failed, other⟩
                · rw [set]
                  exact Or.inr (Or.inr (Or.inr ⟨rfl, answers⟩))
                · rw [failed]
                  exact Or.inl ⟨fault, rfl, other⟩
          · next notAnswer => exact Or.inr (Or.inl ⟨_, rfl, notOffer, notAnswer⟩)

/-- What a peer's message does to a client; it looks nobody up. -/
theorem handlePeerMessage_cases (parse : Text → Option Json) (gst : Gst) (cl : Client)
    (msg : Option Text) :
    (∃ fault, handlePeerMessage parse gst cl msg = .error fault ∧ fault ≠ .nullDereference) ∨
      handlePeerMessage parse gst cl msg = .ok cl ∨
      (∃ state, handlePeerMessage parse gst cl msg = .ok (cl.cleanupAndQuitLoop state)) ∨
      handlePeerMessage parse gst cl msg = .ok { cl with appState := .roomCallAnswering } ∨
      handlePeerMessage parse gst cl msg = .ok { cl with appState := .roomCallStarted } := by
  unfold handlePeerMessage
  split
  · exact Or.inr (Or.inl rfl)
  · split
    · dsimp only
      split
      · rcases handlePeerSdp_cases gst cl (some _) with
          failed | ⟨state, ended, -⟩ | ⟨answering, -⟩ | ⟨started, -⟩
        · exact Or.inl failed
        · exact Or.inr (Or.inr (Or.inl ⟨state, ended⟩))
        · exact Or.inr (Or.inr (Or.inr (Or.inl answering)))
        · exact Or.inr (Or.inr (Or.inr (Or.inr started)))
      · split
        · rcases handlePeerIce_plain gst cl _ with added | failed
          · exact Or.inr (Or.inl added)
          · exact Or.inl failed
        · exact Or.inr (Or.inl rfl)
    · exact Or.inr (Or.inl rfl)

/-- The client that goes on after a peer's message. -/
theorem handlePeerMessage_ok {msg : Option Text}
    (h : handlePeerMessage parse gst cl msg = .ok cl') :
    cl' = cl ∨ (∃ state, cl' = cl.cleanupAndQuitLoop state) ∨
      cl' = { cl with appState := .roomCallAnswering } ∨
      cl' = { cl with appState := .roomCallStarted } := by
  rcases handlePeerMessage_cases parse gst cl msg with
    ⟨fault, failed, -⟩ | same | ⟨state, ended⟩ | answering | started
  · cases failed.symm.trans h
  · exact Or.inl (Except.ok.inj (h.symm.trans same))
  · exact Or.inr (Or.inl ⟨state, Except.ok.inj (h.symm.trans ended)⟩)
  · exact Or.inr (Or.inr (Or.inl (Except.ok.inj (h.symm.trans answering))))
  · exact Or.inr (Or.inr (Or.inr (Except.ok.inj (h.symm.trans started))))

/-- A peer's message leaves the list alone. -/
theorem handlePeerMessage_peers {msg : Option Text}
    (h : handlePeerMessage parse gst cl msg = .ok cl') : cl'.peers = cl.peers := by
  rcases handlePeerMessage_ok h with rfl | ⟨state, rfl⟩ | rfl | rfl <;> rfl

theorem handlePeerMessage_fault {msg : Option Text} :
    handlePeerMessage parse gst cl msg ≠ .error .nullDereference := by
  intro h
  rcases handlePeerMessage_cases parse gst cl msg with
    ⟨fault, failed, other⟩ | same | ⟨state, ended⟩ | answering | started
  · exact other (Except.error.inj (failed.symm.trans h))
  · cases same.symm.trans h
  · cases ended.symm.trans h
  · cases answering.symm.trans h
  · cases started.symm.trans h

theorem doRegistration_peers (h : doRegistration prog cl = (cl', sent)) :
    cl'.peers = cl.peers ∧ ∀ text ∈ sent, text = "ROOM ".toList ++ prog.roomId.text := by
  unfold doRegistration joinRoomOnServer at h
  split at h
  · cases h
    exact ⟨rfl, by simp⟩
  · split at h
    · cases h
      exact ⟨rfl, by simp⟩
    · next joining some =>
        cases h
        split at some
        · cases some
          exact ⟨rfl, by simp⟩
        · cases some

/-- The client that goes on after `ROOM_OK` has put the listed peers in front. -/
theorem doJoinRoom_peers (h : doJoinRoom gst cl text = .ok cl') (looping : cl'.looping = true) :
    cl'.peers = match strsplit text 0 with
      | _ :: peerId :: rest =>
          if peerId = [] then cl.peers
          else (peerId :: rest).foldl (fun peers peerId => peerId :: peers) cl.peers
      | _ => cl.peers := by
  unfold doJoinRoom at h
  split at h
  · cases h
    cases looping
  · split at h
    · cases h
      cases looping
    · split at h
      · cases h
      · next command peerIds fields =>
          rw [fields]
          split at h
          · cases h
          · split at h
            · cases h
              rfl
            · next peerId rest =>
                split at h
                · next empty =>
                    cases h
                    simp [empty]
                · next nonempty =>
                    split at h
                    · cases h
                      simp [nonempty]
                    · cases h

theorem doJoinRoom_fault : doJoinRoom gst cl text ≠ .error .nullDereference := by
  unfold doJoinRoom
  intro h
  repeat' split at h
  all_goals cases h

theorem onRoomPeer_peers (h : onRoomPeer parse gst cl text = .ok cl') :
    cl'.peers = if hasPrefix text "ROOM_PEER_JOINED".toList then
        match (strsplit text 2)[1]? with
        | none => cl.peers
        | some peerId => peerId :: cl.peers
      else if hasPrefix text "ROOM_PEER_LEFT".toList then
        match (strsplit text 2)[1]? with
        | none => cl.peers
        | some peerId => cl.peers.erase peerId
      else cl.peers := by
  unfold onRoomPeer at h
  split at h
  · next message =>
      rw [if_neg (hasPrefix_apart message (by decide) (by decide)),
        if_neg (hasPrefix_apart message (by decide) (by decide))]
      dsimp only at h
      split at h
      · cases h
      · exact handlePeerMessage_peers h
  · split at h
    · next joined =>
        rw [if_pos joined]
        split at h
        · cases h
        · cases h
          rfl
    · next notJoined =>
        rw [if_neg notJoined]
        split at h
        · next left =>
            rw [if_pos left]
            split at h
            · cases h
            · next found =>
                obtain ⟨-, same⟩ := findPeerFromList_ok found
                rw [← same]
                split at h
                · cases h
                  rfl
                · cases h
        · next notLeft =>
            rw [if_neg notLeft]
            cases h
            rfl

theorem onRoomPeer_fault (finds : Finds cl.peers data) (same : text = ofData data) :
    onRoomPeer parse gst cl text ≠ .error .nullDereference := by
  subst same
  unfold onRoomPeer
  intro h
  split at h
  · next message =>
      have asked : looksUp data = some (strsplit (ofData data) 3)[1]? := by
        unfold looksUp
        rw [if_pos message]
      obtain ⟨peer, found⟩ := findPeerFromList_of_mem (finds _ asked)
      dsimp only at h
      rw [found] at h
      exact handlePeerMessage_fault h
  · next notMessage =>
      split at h
      · split at h <;> cases h
      · split at h
        · next left =>
            have asked : looksUp data = some (strsplit (ofData data) 2)[1]? := by
              unfold looksUp
              rw [if_neg notMessage, if_pos left]
            obtain ⟨peer, found⟩ := findPeerFromList_of_mem (finds _ asked)
            rw [found] at h
            dsimp only at h
            split at h <;> cases h
        · cases h

theorem ok_of_map {result : Except Fault Client}
    (h : (result.map fun cl => (cl, ([] : List Text))) = .ok (cl', sent)) :
    result = .ok cl' ∧ sent = [] := by
  cases result with
  | error fault => cases h
  | ok next =>
      cases h
      exact ⟨rfl, rfl⟩

theorem error_of_map {result : Except Fault Client} {fault : Fault}
    (h : (result.map fun cl => (cl, ([] : List Text))) = .error fault) : result = .error fault := by
  cases result with
  | error other =>
      cases h
      rfl
  | ok next => cases h

/-- What a text of the server does to a client that goes on. -/
theorem onServerMessage_peers (h : onServerMessage prog parse gst cl data = .ok (cl', sent))
    (looping : cl'.looping = true) : cl'.peers = peersAfter cl.peers data := by
  unfold onServerMessage at h
  unfold peersAfter
  dsimp only at h ⊢
  split at h
  · next hello =>
      rw [hello]
      exact (doRegistration_peers (Except.ok.inj h)).1
  · split at h
    · split at h
      · next listed =>
          rw [if_pos listed]
          exact doJoinRoom_peers (ok_of_map h).1 looping
      · next unlisted =>
          rw [if_neg unlisted]
          split at h
          · exact onRoomPeer_peers (ok_of_map h).1
          · cases h
            cases looping
    · next notRoom =>
        have other : ∀ p, "ROOM_".toList <+: p → ¬ hasPrefix (ofData data) p = true :=
          fun p shorter whole => notRoom (hasPrefix_shorter whole shorter)
        rw [if_neg (other _ (by decide)), if_neg (other _ (by decide)),
          if_neg (other _ (by decide))]
        split at h
        · cases h
          rfl
        · cases h
          cases looping

/-- A client that knows the peer it is asked for dereferences no null pointer. -/
theorem onServerMessage_fault (finds : Finds cl.peers data) :
    onServerMessage prog parse gst cl data ≠ .error .nullDereference := by
  unfold onServerMessage
  intro h
  dsimp only at h
  split at h
  · cases h
  · split at h
    · split at h
      · exact doJoinRoom_fault (error_of_map h)
      · split at h
        · exact onRoomPeer_fault finds rfl (error_of_map h)
        · cases h
    · split at h <;> cases h

/-- The only command that an answer of the server makes the client send. -/
theorem onServerMessage_sent (h : onServerMessage prog parse gst cl data = .ok (cl', sent)) :
    ∀ text ∈ sent, text = "ROOM ".toList ++ prog.roomId.text := by
  unfold onServerMessage at h
  dsimp only at h
  split at h
  · exact (doRegistration_peers (Except.ok.inj h)).2
  · split at h
    · split at h
      · rw [(ok_of_map h).2]
        simp
      · split at h
        · rw [(ok_of_map h).2]
          simp
        · cases h
          simp
    · split at h
      · cases h
        simp
      · cases h
        simp

theorem doRegistration_handshake (h : doRegistration prog cl = (cl', sent)) :
    (sent = [] ∧ cl'.looping = false) ∨
    (cl.appState = .serverRegistering ∧ sent = ["ROOM ".toList ++ prog.roomId.text] ∧
      cl'.appState = .roomJoining) := by
  unfold doRegistration joinRoomOnServer at h
  split at h
  · cases h
    exact Or.inl ⟨rfl, rfl⟩
  · next registering =>
      split at h
      · cases h
        exact Or.inl ⟨rfl, rfl⟩
      · next joining some =>
          cases h
          split at some
          · cases some
            exact Or.inr ⟨not_not.mp registering, rfl, rfl⟩
          · cases some

theorem doJoinRoom_state (h : doJoinRoom gst cl text = .ok cl') (looping : cl'.looping = true) :
    cl'.appState ≠ .serverRegistering := by
  unfold doJoinRoom at h
  repeat' split at h
  all_goals cases h
  all_goals first
    | cases looping
    | simp

theorem doJoinRoom_joined (h : doJoinRoom gst cl text = .ok cl')
    (waits : cl.appState = .roomJoining) (started : gst.started = true) :
    cl'.looping = cl.looping ∧
      (cl'.appState = .roomJoined ∨ cl'.appState = .roomCallOffering) := by
  unfold doJoinRoom at h
  rw [if_neg (not_not.mpr waits), if_neg (by simp [started])] at h
  repeat' split at h
  all_goals cases h
  · exact ⟨rfl, Or.inl rfl⟩
  · exact ⟨rfl, Or.inl rfl⟩
  · exact ⟨rfl, Or.inr rfl⟩

theorem handlePeerMessage_state {msg : Option Text}
    (h : handlePeerMessage parse gst cl msg = .ok cl') (looping : cl'.looping = true)
    (registering : cl'.appState = .serverRegistering) : cl.appState = .serverRegistering := by
  rcases handlePeerMessage_ok h with rfl | ⟨state, rfl⟩ | rfl | rfl
  · exact registering
  · cases looping
  · cases registering
  · cases registering

theorem onRoomPeer_state (h : onRoomPeer parse gst cl text = .ok cl')
    (looping : cl'.looping = true) (registering : cl'.appState = .serverRegistering) :
    cl.appState = .serverRegistering := by
  unfold onRoomPeer at h
  dsimp only at h
  split at h
  · split at h
    · cases h
    · exact handlePeerMessage_state h looping registering
  · repeat' split at h
    all_goals cases h
    all_goals exact registering

/-- The texts about a peer of the room. -/
theorem onServerMessage_peer (room : hasPrefix (ofData data) "ROOM_PEER".toList = true) :
    onServerMessage prog parse gst cl data =
      (onRoomPeer parse gst cl (ofData data)).map fun cl => (cl, []) := by
  have notHello : ofData data ≠ "HELLO".toList := by
    intro hello
    rw [hello] at room
    cases room
  unfold onServerMessage
  dsimp only
  rw [if_neg notHello, if_pos (hasPrefix_shorter room (by decide)),
    if_neg (hasPrefix_apart room (by decide) (by decide)), if_pos room]

/--
A text of the server does not bring the client back to its registration, and
only a client that was registering answers it, with its `ROOM` command.
-/
theorem onServerMessage_handshake (h : onServerMessage prog parse gst cl data = .ok (cl', sent)) :
    (sent = [] ∧ (cl'.looping = true → cl'.appState = .serverRegistering →
      cl.appState = .serverRegistering)) ∨
    (cl.appState = .serverRegistering ∧ sent = ["ROOM ".toList ++ prog.roomId.text] ∧
      cl'.appState = .roomJoining) := by
  unfold onServerMessage at h
  dsimp only at h
  have still : sent = [] → (cl'.looping = true → cl'.appState = .serverRegistering →
      cl.appState = .serverRegistering) → (sent = [] ∧ (cl'.looping = true →
      cl'.appState = .serverRegistering → cl.appState = .serverRegistering)) ∨
      (cl.appState = .serverRegistering ∧ sent = ["ROOM ".toList ++ prog.roomId.text] ∧
        cl'.appState = .roomJoining) := fun none state => Or.inl ⟨none, state⟩
  split at h
  · rcases doRegistration_handshake (Except.ok.inj h) with ⟨none, stopped⟩ | asks
    · exact still none fun looping => absurd (stopped.symm.trans looping) (by simp)
    · exact Or.inr asks
  · split at h
    · split at h
      · obtain ⟨joined, none⟩ := ok_of_map h
        exact still none fun looping state => absurd state (doJoinRoom_state joined looping)
      · split at h
        · obtain ⟨handled, none⟩ := ok_of_map h
          exact still none fun looping state => onRoomPeer_state handled looping state
        · cases h
          exact still rfl fun looping => by cases looping
    · split at h
      · cases h
        exact still rfl fun looping => by cases looping
      · cases h
        exact still rfl fun looping => by cases looping

/-- A report of the pipeline leaves the list alone, and a message goes to the peer of
its element. -/
theorem onEvent_sent {e : Event} (h : onEvent gst cl e = .ok (cl', sent)) :
    cl'.peers = cl.peers ∧
      ∀ text ∈ sent, ∃ body, text = sendRoomPeerMsg ('\x7b' :: body) e.peerId := by
  cases e with
  | negotiationNeeded peerId =>
      cases h
      exact ⟨rfl, by simp⟩
  | offerCreated peerId body =>
      simp only [onEvent] at h
      split at h
      · cases h
        exact ⟨rfl, by simpa using ⟨body, rfl⟩⟩
      · cases h
  | answerCreated peerId body =>
      simp only [onEvent] at h
      split at h
      · cases h
        exact ⟨rfl, by simpa using ⟨body, rfl⟩⟩
      · cases h
  | iceCandidate peerId body =>
      simp only [onEvent] at h
      split at h
      · cases h
        exact ⟨rfl, by simp⟩
      · cases h
        exact ⟨rfl, by simpa using ⟨body, rfl⟩⟩

theorem onEvent_state {e : Event} (h : onEvent gst cl e = .ok (cl', sent))
    (looping : cl'.looping = true) (registering : cl'.appState = .serverRegistering) :
    cl.appState = .serverRegistering := by
  unfold onEvent at h
  repeat' split at h
  all_goals cases h
  all_goals first
    | exact registering
    | cases looping
    | cases registering

theorem onEvent_fault {e : Event} : onEvent gst cl e ≠ .error .nullDereference := by
  unfold onEvent
  intro h
  repeat' split at h
  all_goals cases h

end Messages

end Client

end GstWebrtc.Multiparty
