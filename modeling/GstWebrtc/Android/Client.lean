import GstWebrtc.Sendrecv.Client

/-!
# The Android client

The signalling part of `android/app/src/main/jni/webrtc.c`, which has grown out
of `webrtc-sendrecv.c`.  Its variables are the fields of a `WebRTC`, which lives
on when a call is ended and another one is started.
-/

namespace GstWebrtc.Android

open GstWebrtc.Base GstWebrtc.Base.CText
open GstWebrtc.Sendrecv (AppState Fault Answers Outcome)

/-- `WebRTC` without its connection, which is kept apart. -/
structure WebRTC where
  appState : AppState
  peerId : Option CString
  /-- `thread` is not `NULL`. -/
  thread : Bool
  /-- `loop` is not `NULL`. -/
  loop : Bool
  /-- `pipe` is not `NULL`. -/
  pipe : Bool

namespace WebRTC

/-- `native_new`. -/
def new : WebRTC := ⟨.appStateUnknown, none, false, false, false⟩

/-- `cleanup_and_quit_loop`, where `appStateUnknown` keeps the state. -/
def cleanupAndQuitLoop (webrtc : WebRTC) (msg : Option Text) (state : AppState) :
    WebRTC × Outcome :=
  ({ webrtc with
      appState := if 0 < state.code then state else webrtc.appState
      loop := false
      pipe := false },
    .ended msg)

def sendIceCandidateMessage (webrtc : WebRTC) (mlineindex : Nat) (candidate : Text) :
    WebRTC × Outcome :=
  if webrtc.appState.code < AppState.peerCallNegotiating.code then
    webrtc.cleanupAndQuitLoop (some "Can't send ICE, not in call".toList) .appStateError
  else
    let ice := Json.object [("candidate".toList, .string candidate),
      ("sdpMLineIndex".toList, .number mlineindex)]
    (webrtc, .acted [.sendMessage (.object [("ice".toList, ice)])])

def sendSdpOffer (webrtc : WebRTC) (offer : Text) : WebRTC × Outcome :=
  if webrtc.appState.code < AppState.peerCallNegotiating.code then
    webrtc.cleanupAndQuitLoop (some "Can't send offer, not in call".toList) .appStateError
  else
    let sdp := Json.object [("type".toList, .string "offer".toList), ("sdp".toList, .string offer)]
    (webrtc, .acted [.sendMessage (.object [("sdp".toList, sdp)])])

/-- `on_offer_created`, with nothing for a promise that is not replied to. -/
def onOfferCreated (webrtc : WebRTC) (reply : Option Text) : Except Fault (WebRTC × Outcome) :=
  if webrtc.appState ≠ .peerCallNegotiating then .error .assertion
  else
    match reply with
    | none => .error .assertion
    | some offer =>
        .ok ((webrtc.sendSdpOffer offer).map id (.after (.setLocalDescription .offer offer)))

def onNegotiationNeeded (webrtc : WebRTC) : WebRTC × Outcome :=
  ({ webrtc with appState := .peerCallNegotiating }, .acted [.createOffer])

/-- `setup_call`, with nothing for `FALSE`. -/
def setupCall (webrtc : WebRTC) (answers : Answers) : Option (WebRTC × Outcome) :=
  if answers.opened then
    match webrtc.peerId with
    | none => none
    | some peerId =>
        some ({ webrtc with appState := .peerConnecting },
          .acted [.sendText ("SESSION ".toList ++ peerId.text)])
  else none

/-- `register_with_server`, with nothing for `FALSE`. -/
def registerWithServer (webrtc : WebRTC) (answers : Answers) (ourId : Nat) :
    Option (WebRTC × Outcome) :=
  if answers.opened then
    some ({ webrtc with appState := .serverRegistering },
      .acted [.sendText ("HELLO ".toList ++ Nat.toDigits 10 ourId)])
  else none

def onServerClosed (webrtc : WebRTC) : WebRTC × Outcome :=
  { webrtc with appState := .serverClosed }.cleanupAndQuitLoop
    (some "Server connection closed".toList) .appStateUnknown

/-! ## `on_server_message` -/

/-- The branch for `HELLO`. -/
def onHello (webrtc : WebRTC) (answers : Answers) : WebRTC × Outcome :=
  if webrtc.appState ≠ .serverRegistering then
    webrtc.cleanupAndQuitLoop (some "ERROR: Received HELLO when not registering".toList)
      .appStateError
  else
    let registered := { webrtc with appState := .serverRegistered }
    match registered.setupCall answers with
    | none =>
        registered.cleanupAndQuitLoop (some "ERROR: Failed to setup call".toList) .peerCallError
    | some calling => calling

/-- The branch for `SESSION_OK`. -/
def onSessionOk (webrtc : WebRTC) (answers : Answers) : WebRTC × Outcome :=
  if webrtc.appState ≠ .peerConnecting then
    webrtc.cleanupAndQuitLoop (some "ERROR: Received SESSION_OK when not calling".toList)
      .peerConnectionError
  else
    let connected := { webrtc with appState := .peerConnected }
    if answers.started then ({ connected with pipe := true }, .acted [.startPipeline])
    else
      connected.cleanupAndQuitLoop (some "ERROR: failed to start pipeline".toList) .peerCallError

/-- The branch for errors. -/
def onError (webrtc : WebRTC) (text : Text) : WebRTC × Outcome :=
  let failed : AppState :=
    match webrtc.appState with
    | .serverConnecting => .serverConnectionError
    | .serverRegistering => .serverRegistrationError
    | .peerConnecting => .peerConnectionError
    | .peerConnected | .peerCallNegotiating => .peerCallError
    | _ => .appStateError
  { webrtc with appState := failed }.cleanupAndQuitLoop (some text) .appStateUnknown

/-- The branch for a session description. -/
def onSdp (webrtc : WebRTC) (object : JsonObject) : Except Fault (WebRTC × Outcome) :=
  if webrtc.appState ≠ .peerCallNegotiating then .error .assertion
  else
    let child := object.getObjectMember "sdp".toList
    if child.hasMember "type".toList = false then .error .assertion
    else if child.getStringMember "type".toList ≠ some "answer".toList then .error .assertion
    else
      match child.getStringMember "sdp".toList with
      -- `strlen`
      | none => .error .nullString
      | some text =>
          .ok ({ webrtc with appState := .peerCallStarted },
            .acted [.setRemoteDescription .answer text])

/-- The branch for a candidate. -/
def onIce (webrtc : WebRTC) (object : JsonObject) : Except Fault (WebRTC × Outcome) :=
  let child := object.getObjectMember "ice".toList
  let sdpmlineindex := (child.getIntMember "sdpMLineIndex".toList).bmod 0x100000000
  match child.getStringMember "candidate".toList with
  -- the string argument of `add-ice-candidate`
  | none => .error .nullString
  | some candidate => .ok (webrtc, .acted [.addIceCandidate sdpmlineindex candidate])

/-- `on_server_message`, for a text message. -/
def onServerMessage (parse : Text → Option Json) (answers : Answers) (webrtc : WebRTC)
    (data : Text) : Except Fault (WebRTC × Outcome) :=
  let text := ofData data
  if text = "HELLO".toList then .ok (webrtc.onHello answers)
  else if text = "SESSION_OK".toList then .ok (webrtc.onSessionOk answers)
  else if hasPrefix text "ERROR".toList then .ok (webrtc.onError text)
  else
    match parse text with
    | none => .ok (webrtc, .ignored ("Unknown message '".toList ++ text ++ "', ignoring".toList))
    | some (.object members) =>
        let object : JsonObject := some members
        if object.hasMember "sdp".toList then webrtc.onSdp object
        else if object.hasMember "ice".toList then webrtc.onIce object
        else .ok (webrtc, .ignored ("Ignoring unknown JSON message:\n".toList ++ text ++ "\n".toList))
    | some _ =>
        .ok (webrtc, .ignored ("Unknown json message '".toList ++ text ++ "', ignoring".toList))

/-! ## The connection and the calls -/

def onServerConnected (webrtc : WebRTC) (error : Option Text) (answers : Answers) (ourId : Nat) :
    WebRTC × Outcome :=
  match error with
  | some message => webrtc.cleanupAndQuitLoop (some message) .serverConnectionError
  | none =>
      let connected := { webrtc with appState := .serverConnected }
      match connected.registerWithServer answers ourId with
      | none => (connected, .acted [])
      | some registering => registering

def nativeEndCall (webrtc : WebRTC) : WebRTC × Outcome :=
  if webrtc.loop then
    let ended := webrtc.cleanupAndQuitLoop none .appStateUnknown
    ({ ended.1 with thread := false }, ended.2)
  else (webrtc, .acted [])

/-- `_call_thread`, which runs `connect_to_websocket_server_async`. -/
def callThread (webrtc : WebRTC) : WebRTC :=
  { webrtc with loop := true, appState := .serverConnecting }

def nativeCallOtherParty (webrtc : WebRTC) : WebRTC × Outcome :=
  let before := if webrtc.thread then webrtc.nativeEndCall else (webrtc, .acted [])
  ({ before.1 with thread := true }.callThread, before.2)

def nativeSetCallId (webrtc : WebRTC) (peerId : CString) : WebRTC :=
  { webrtc with peerId := some peerId }

end WebRTC

end GstWebrtc.Android
