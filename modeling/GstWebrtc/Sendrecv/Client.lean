import GstWebrtc.Base.JsonGlib

/-!
# The client that calls one peer

The signalling part of `webrtc-sendrecv.c`: one function for each callback, from
the application state to the next one with what the callback asks for, or the
fault that ends the process.  What json-glib makes of a text is a parameter, and
what libsoup and GStreamer answer is an argument.
-/

namespace GstWebrtc.Sendrecv

open GstWebrtc.Base GstWebrtc.Base.CText

/-- `enum AppState`, which is the same in the Android client. -/
inductive AppState where
  | appStateUnknown
  | appStateError
  | serverConnecting
  | serverConnectionError
  | serverConnected
  | serverRegistering
  | serverRegistrationError
  | serverRegistered
  | serverClosed
  | peerConnecting
  | peerConnectionError
  | peerConnected
  | peerCallNegotiating
  | peerCallStarted
  | peerCallStopping
  | peerCallStopped
  | peerCallError
  deriving DecidableEq

/-- The number of an enumerator, by which the code compares states. -/
def AppState.code : AppState → Nat
  | appStateUnknown => 0
  | appStateError => 1
  | serverConnecting => 1000
  | serverConnectionError => 1001
  | serverConnected => 1002
  | serverRegistering => 2000
  | serverRegistrationError => 2001
  | serverRegistered => 2002
  | serverClosed => 2003
  | peerConnecting => 3000
  | peerConnectionError => 3001
  | peerConnected => 3002
  | peerCallNegotiating => 4000
  | peerCallStarted => 4001
  | peerCallStopping => 4002
  | peerCallStopped => 4003
  | peerCallError => 4004

/-- What ends the process at once. -/
inductive Fault where
  | assertion
  /-- A string function is given `NULL`. -/
  | nullString
  deriving DecidableEq

inductive SdpType where
  | offer
  | answer
  deriving DecidableEq

/-- What a callback asks of the connection and of the pipeline. -/
inductive Request where
  | sendText (text : Text)
  /-- `get_string_from_json_object`, and the text is sent. -/
  | sendMessage (msg : Json)
  | startPipeline
  | createOffer
  | createAnswer
  | setLocalDescription (type : SdpType) (sdp : Text)
  | setRemoteDescription (type : SdpType) (sdp : Text)
  | addIceCandidate (sdpMLineIndex : Int) (candidate : Text)

/-- How a callback returns. -/
inductive Outcome where
  | acted (requests : List Request)
  /-- Nothing is done but to print the message. -/
  | ignored (message : Text)
  /-- The call is over: `cleanup_and_quit_loop` with this message. -/
  | ended (message : Option Text)

/-- A request that the callback makes first. -/
def Outcome.after (request : Request) : Outcome → Outcome
  | acted requests => acted (request :: requests)
  | outcome => outcome

/-- The options of the program. -/
structure Program where
  peerId : Option CString
  remoteIsOfferer : Bool

/-- What the libraries answer while a frame is handled. -/
structure Answers where
  /-- The state of `ws_conn` is `SOUP_WEBSOCKET_STATE_OPEN`. -/
  opened : Bool
  /-- `start_pipeline` succeeds. -/
  started : Bool

/-- `cleanup_and_quit_loop`, where `appStateUnknown` keeps the state. -/
def cleanupAndQuitLoop (current : AppState) (msg : Text) (state : AppState) :
    AppState × Outcome :=
  (if 0 < state.code then state else current, .ended (some msg))

def sendIceCandidateMessage (state : AppState) (mlineindex : Nat) (candidate : Text) :
    AppState × Outcome :=
  if state.code < AppState.peerCallNegotiating.code then
    cleanupAndQuitLoop state "Can't send ICE, not in call".toList .appStateError
  else
    let ice := Json.object [("candidate".toList, .string candidate),
      ("sdpMLineIndex".toList, .number mlineindex)]
    (state, .acted [.sendMessage (.object [("ice".toList, ice)])])

def sendSdpToPeer (state : AppState) (type : SdpType) (text : Text) : AppState × Outcome :=
  if state.code < AppState.peerCallNegotiating.code then
    cleanupAndQuitLoop state "Can't send SDP to peer, not in call".toList .appStateError
  else
    let name :=
      match type with
      | .offer => "offer".toList
      | .answer => "answer".toList
    let sdp := Json.object [("type".toList, .string name), ("sdp".toList, .string text)]
    (state, .acted [.sendMessage (.object [("sdp".toList, sdp)])])

/-- `on_offer_created`, with nothing for a promise that is not replied to. -/
def onOfferCreated (state : AppState) (reply : Option Text) :
    Except Fault (AppState × Outcome) :=
  if state ≠ .peerCallNegotiating then .error .assertion
  else
    match reply with
    | none => .error .assertion
    | some offer =>
        .ok ((sendSdpToPeer state .offer offer).map id (.after (.setLocalDescription .offer offer)))

def onNegotiationNeeded (prog : Program) : AppState × Outcome :=
  if prog.remoteIsOfferer then
    (.peerCallNegotiating, .acted [.sendText "OFFER_REQUEST".toList])
  else (.peerCallNegotiating, .acted [.createOffer])

def dataChannelOnError (state : AppState) : AppState × Outcome :=
  cleanupAndQuitLoop state "Data channel error".toList .appStateUnknown

def dataChannelOnClose (state : AppState) : AppState × Outcome :=
  cleanupAndQuitLoop state "Data channel closed".toList .appStateUnknown

/-- `setup_call`, with nothing for `FALSE`. -/
def setupCall (prog : Program) (answers : Answers) : Option (AppState × Outcome) :=
  if answers.opened then
    match prog.peerId with
    | none => none
    | some peerId =>
        some (.peerConnecting, .acted [.sendText ("SESSION ".toList ++ peerId.text)])
  else none

/-- `register_with_server`, with nothing for `FALSE`. -/
def registerWithServer (answers : Answers) (ourId : Nat) : Option (AppState × Outcome) :=
  if answers.opened then
    some (.serverRegistering, .acted [.sendText ("HELLO ".toList ++ Nat.toDigits 10 ourId)])
  else none

def onServerClosed : AppState × Outcome :=
  cleanupAndQuitLoop .serverClosed "Server connection closed".toList .appStateUnknown

/-- `on_answer_created`, with nothing for a promise that is not replied to. -/
def onAnswerCreated (state : AppState) (reply : Option Text) :
    Except Fault (AppState × Outcome) :=
  if state ≠ .peerCallNegotiating then .error .assertion
  else
    match reply with
    | none => .error .assertion
    | some answer =>
        .ok ((sendSdpToPeer state .answer answer).map id
          (.after (.setLocalDescription .answer answer)))

def onOfferSet (state : AppState) : AppState × Outcome := (state, .acted [.createAnswer])

def onOfferReceived (state : AppState) (sdp : Text) : AppState × Outcome :=
  (state, .acted [.setRemoteDescription .offer sdp])

/-! ## `on_server_message` -/

/-- The branch for `HELLO`. -/
def onHello (prog : Program) (answers : Answers) (state : AppState) : AppState × Outcome :=
  if state ≠ .serverRegistering then
    cleanupAndQuitLoop state "ERROR: Received HELLO when not registering".toList .appStateError
  else
    match setupCall prog answers with
    | none =>
        cleanupAndQuitLoop .serverRegistered "ERROR: Failed to setup call".toList .peerCallError
    | some calling => calling

/-- The branch for `SESSION_OK`. -/
def onSessionOk (answers : Answers) (state : AppState) : AppState × Outcome :=
  if state ≠ .peerConnecting then
    cleanupAndQuitLoop state "ERROR: Received SESSION_OK when not calling".toList
      .peerConnectionError
  else if answers.started then (.peerConnected, .acted [.startPipeline])
  else
    cleanupAndQuitLoop .peerConnected "ERROR: failed to start pipeline".toList .peerCallError

/-- The branch for errors. -/
def onError (state : AppState) (text : Text) : AppState × Outcome :=
  let failed : AppState :=
    match state with
    | .serverConnecting => .serverConnectionError
    | .serverRegistering => .serverRegistrationError
    | .peerConnecting => .peerConnectionError
    | .peerConnected | .peerCallNegotiating => .peerCallError
    | _ => .appStateError
  cleanupAndQuitLoop failed text .appStateUnknown

/-- The branch for a session description. -/
def onSdp (state : AppState) (object : JsonObject) : Except Fault (AppState × Outcome) :=
  if state ≠ .peerCallNegotiating then .error .assertion
  else
    let child := object.getObjectMember "sdp".toList
    if child.hasMember "type".toList = false then
      .ok (cleanupAndQuitLoop state "ERROR: received SDP without 'type'".toList .peerCallError)
    else
      let sdptype := child.getStringMember "type".toList
      match child.getStringMember "sdp".toList with
      -- `strlen`
      | none => .error .nullString
      | some text =>
          match sdptype with
          -- `g_str_equal`
          | none => .error .nullString
          | some sdptype =>
              if sdptype = "answer".toList then
                .ok (.peerCallStarted, .acted [.setRemoteDescription .answer text])
              else .ok (onOfferReceived state text)

/-- The branch for a candidate. -/
def onIce (state : AppState) (object : JsonObject) : Except Fault (AppState × Outcome) :=
  let child := object.getObjectMember "ice".toList
  let sdpmlineindex := (child.getIntMember "sdpMLineIndex".toList).bmod 0x100000000
  match child.getStringMember "candidate".toList with
  -- the string argument of `add-ice-candidate`
  | none => .error .nullString
  | some candidate => .ok (state, .acted [.addIceCandidate sdpmlineindex candidate])

/-- `on_server_message`, for a text message. -/
def onServerMessage (prog : Program) (parse : Text → Option Json) (answers : Answers)
    (state : AppState) (data : Text) : Except Fault (AppState × Outcome) :=
  let text := ofData data
  if text = "HELLO".toList then .ok (onHello prog answers state)
  else if text = "SESSION_OK".toList then .ok (onSessionOk answers state)
  else if hasPrefix text "ERROR".toList then .ok (onError state text)
  else
    match parse text with
    | none => .ok (state, .ignored ("Unknown message '".toList ++ text ++ "', ignoring".toList))
    | some (.object members) =>
        let object : JsonObject := some members
        if object.hasMember "sdp".toList then onSdp state object
        else if object.hasMember "ice".toList then onIce state object
        else .ok (state, .ignored ("Ignoring unknown JSON message:\n".toList ++ text ++ "\n".toList))
    | some _ =>
        .ok (state, .ignored ("Unknown json message '".toList ++ text ++ "', ignoring".toList))

/-- `on_server_connected`, when the connection is made. -/
def onServerConnected (answers : Answers) (ourId : Nat) : AppState × Outcome :=
  match registerWithServer answers ourId with
  | none => (.serverConnected, .acted [])
  | some registering => registering

/-! ## Events -/

/-- What libsoup and GStreamer report. -/
inductive Event where
  | textMessage (answers : Answers) (data : Text)
  | binaryMessage
  | negotiationNeeded
  | offerCreated (reply : Option Text)
  | offerSet
  | answerCreated (reply : Option Text)
  | iceCandidate (mlineindex : Nat) (candidate : Text)
  | dataChannelError
  | dataChannelClosed
  | closed

/-- The callback of an event. -/
def perform (prog : Program) (parse : Text → Option Json) (state : AppState) :
    Event → Except Fault (AppState × Outcome)
  | .textMessage answers data => onServerMessage prog parse answers state data
  | .binaryMessage =>
      .ok (state, .ignored "Received unknown binary message, ignoring".toList)
  | .negotiationNeeded => .ok (onNegotiationNeeded prog)
  | .offerCreated reply => onOfferCreated state reply
  | .offerSet => .ok (onOfferSet state)
  | .answerCreated reply => onAnswerCreated state reply
  | .iceCandidate mlineindex candidate => .ok (sendIceCandidateMessage state mlineindex candidate)
  | .dataChannelError => .ok (dataChannelOnError state)
  | .dataChannelClosed => .ok (dataChannelOnClose state)
  | .closed => .ok onServerClosed

end GstWebrtc.Sendrecv
