import GstWebrtc.Base.JsonGlib

/-!
# The stream servers

`webrtc-recvonly-h264.c` and `webrtc-unidirectional-h264.c` serve many viewers
from one process.  Their `soup_websocket_message_cb` is the same code: it
reports each message that it does not expect with `g_error`, which aborts.
What json-glib makes of a text and whether an SDP text can be parsed are
parameters.
-/

namespace GstWebrtc.Sendonly

open GstWebrtc.Base GstWebrtc.Base.CText

abbrev ConnId := Nat

structure ReceiverEntry where
  connection : ConnId
  /-- The element of the viewer's pipeline, by number. -/
  webrtcbin : Nat

inductive Frame where
  | binary
  | text (data : Text)

/-- A signal that is emitted on a `webrtcbin`. -/
inductive Signal where
  /-- `set-remote-description` with an answer. -/
  | setRemoteDescription (sdp : Text)
  | addIceCandidate (mlineIndex : Nat) (candidate : Text)
  deriving DecidableEq

/-- What ends the process. -/
inductive Fault where
  | gError (message : Text)
  /-- A string function is given `NULL`. -/
  | nullString

section Callback

variable (parse : Text → Option Json) (parsable : Text → Bool)

/-- The branch for `sdp`. -/
def onSdp (data : JsonObject) : Except Fault (Option Signal) :=
  if data.hasMember "type".toList = false then
    .error (.gError "Received SDP message without type field\n".toList)
  else
    let sdpType := data.getStringMember "type".toList
    if sdpType ≠ some "answer".toList then
      .error (.gError ("Expected SDP message type \"answer\", got \"".toList ++
        sdpType.getD "(null)".toList ++ "\"\n".toList))
    else if data.hasMember "sdp".toList = false then
      .error (.gError "Received SDP message without SDP string\n".toList)
    else
      match data.getStringMember "sdp".toList with
      -- `strlen`
      | none => .error .nullString
      | some sdp =>
          if parsable sdp then .ok (some (.setRemoteDescription sdp))
          else .error (.gError "Could not parse SDP string\n".toList)

/-- The branch for `ice`, where the index becomes a `guint`. -/
def onIce (data : JsonObject) : Except Fault (Option Signal) :=
  if data.hasMember "sdpMLineIndex".toList = false then
    .error (.gError "Received ICE message without mline index\n".toList)
  else
    let mlineIndex := (data.getIntMember "sdpMLineIndex".toList % 0x100000000).toNat
    if data.hasMember "candidate".toList = false then
      .error (.gError "Received ICE message without ICE candidate string\n".toList)
    else
      match data.getStringMember "candidate".toList with
      -- the string argument of `add-ice-candidate`
      | none => .error .nullString
      | some candidate => .ok (some (.addIceCandidate mlineIndex candidate))

/-- The label `unknown_message`. -/
def unknownMessage (text : Text) : Except Fault (Option Signal) :=
  .error (.gError ("Unknown message \"".toList ++ text ++ "\", ignoring".toList))

/-- The signal that the callback emits on the viewer's element, if any. -/
def soupWebsocketMessageCb : Frame → Except Fault (Option Signal)
  | .binary => .error (.gError "Received unknown binary message, ignoring\n".toList)
  | .text bytes =>
      let text := ofData bytes
      match parse text with
      | some (.object members) =>
          let root : JsonObject := some members
          if root.hasMember "type".toList = false then
            .error (.gError "Received message without type field\n".toList)
          else
            let typeString := root.getStringMember "type".toList
            if root.hasMember "data".toList = false then
              .error (.gError "Received message without data field\n".toList)
            else
              let data := root.getObjectMember "data".toList
              if typeString = some "sdp".toList then onSdp parsable data
              else if typeString = some "ice".toList then onIce data
              else unknownMessage text
      | _ => unknownMessage text

end Callback

/-! ## The process -/

structure StreamServer where
  /-- `receiver_entry_table` -/
  receivers : ConnId → Option ReceiverEntry
  /-- The signals emitted until now, with the element of each. -/
  emitted : List (Nat × Signal)

inductive Event where
  /-- A viewer connects and gets a pipeline. -/
  | websocket (connection : ConnId) (webrtcbin : Nat)
  | message (connection : ConnId) (frame : Frame)
  | closed (connection : ConnId)

namespace StreamServer

/-- `soup_websocket_handler` -/
def soupWebsocketHandler (srv : StreamServer) (connection : ConnId) (webrtcbin : Nat) :
    StreamServer :=
  { srv with
    receivers := Function.update srv.receivers connection (some ⟨connection, webrtcbin⟩) }

theorem receivers_soupWebsocketHandler (srv : StreamServer) (connection : ConnId)
    (webrtcbin : Nat) :
    (srv.soupWebsocketHandler connection webrtcbin).receivers connection =
      some ⟨connection, webrtcbin⟩ := Function.update_self _ _ _

/-- `soup_websocket_closed_cb` -/
def soupWebsocketClosedCb (srv : StreamServer) (connection : ConnId) : StreamServer :=
  { srv with receivers := Function.update srv.receivers connection none }

/-- The process after an event, or what ended it. -/
def step (parse : Text → Option Json) (parsable : Text → Bool) (srv : StreamServer) :
    Event → Except Fault StreamServer
  | .websocket connection webrtcbin => .ok (srv.soupWebsocketHandler connection webrtcbin)
  | .message connection frame =>
      match srv.receivers connection with
      | none => .ok srv
      | some entry =>
          match soupWebsocketMessageCb parse parsable frame with
          | .error fault => .error fault
          | .ok none => .ok srv
          | .ok (some signal) =>
              .ok { srv with emitted := srv.emitted ++ [(entry.webrtcbin, signal)] }
  | .closed connection => .ok (srv.soupWebsocketClosedCb connection)

end StreamServer

/-! ## What a viewer may send -/

section Messages

variable (parse : Text → Option Json) (parsable : Text → Bool)

/-- The messages of the documented shape, each with the signal that it asks for. -/
inductive Asks : Frame → Signal → Prop where
  | sdp {bytes members data sdp} (root : parse (ofData bytes) = some (.object members))
      (type : members.lookup "type".toList = some (.string "sdp".toList))
      (holds : members.lookup "data".toList = some (.object data))
      (answer : data.lookup "type".toList = some (.string "answer".toList))
      (text : data.lookup "sdp".toList = some (.string sdp)) (valid : parsable sdp = true) :
      Asks (.text bytes) (.setRemoteDescription sdp)
  | ice {bytes members data} {mlineIndex : Nat} {candidate}
      (root : parse (ofData bytes) = some (.object members))
      (type : members.lookup "type".toList = some (.string "ice".toList))
      (holds : members.lookup "data".toList = some (.object data))
      (index : data.lookup "sdpMLineIndex".toList = some (.number mlineIndex))
      (text : data.lookup "candidate".toList = some (.string candidate)) :
      Asks (.text bytes) (.addIceCandidate mlineIndex candidate)

/-- The index of a candidate is a `guint`. -/
def Signal.Fits : Signal → Prop
  | setRemoteDescription _ => True
  | addIceCandidate mlineIndex _ => mlineIndex < 0x100000000

/-- What is done with a frame that arrives for `entry`: the process continues with the same
receivers, and a signal is emitted on the viewer's element if the frame asks for one. -/
def Handled (srv : StreamServer) (entry : ReceiverEntry) (connection : ConnId) (frame : Frame) :
    Prop :=
  ∃ srv', srv.step parse parsable (.message connection frame) = .ok srv' ∧
    srv'.receivers = srv.receivers ∧
    ((∃ signal, Asks parse parsable frame signal ∧
        srv'.emitted = srv.emitted ++ [(entry.webrtcbin, signal)]) ∨
      (∀ signal, ¬ Asks parse parsable frame signal) ∧ srv'.emitted = srv.emitted)

end Messages

section Getters

variable {members : List (Text × Json)} {name : Text}

theorem hasMember_of_lookup {member : Json} (found : members.lookup name = some member) :
    JsonObject.hasMember (some members) name = true := by
  rw [JsonObject.hasMember, JsonObject.getMember, Option.bind_some, found, Option.isSome_some]

theorem getStringMember_of_lookup {value : Text}
    (found : members.lookup name = some (.string value)) :
    JsonObject.getStringMember (some members) name = some value := by
  simp only [JsonObject.getStringMember, JsonObject.getMember, Option.bind_some, found]

theorem getObjectMember_of_lookup {object : List (Text × Json)}
    (found : members.lookup name = some (.object object)) :
    JsonObject.getObjectMember (some members) name = some object := by
  simp only [JsonObject.getObjectMember, JsonObject.getMember, Option.bind_some, found]

theorem getIntMember_of_lookup {value : Int}
    (found : members.lookup name = some (.number value)) :
    JsonObject.getIntMember (some members) name = value := by
  simp only [JsonObject.getIntMember, JsonObject.getMember, Option.bind_some, found]

end Getters

section Frames

variable {parse : Text → Option Json} {parsable : Text → Bool} {frame : Frame} {signal : Signal}
  {result : Option Signal}

theorem onSdp_ok {data : JsonObject} (ok : onSdp parsable data = .ok result) :
    ∃ signal, result = some signal ∧ signal.Fits := by
  simp only [onSdp] at ok
  split at ok
  · cases ok
  · split at ok
    · cases ok
    · split at ok
      · cases ok
      · split at ok
        · cases ok
        · split at ok
          · cases ok
            exact ⟨_, rfl, trivial⟩
          · cases ok

theorem onIce_ok {data : JsonObject} (ok : onIce data = .ok result) :
    ∃ signal, result = some signal ∧ signal.Fits := by
  simp only [onIce] at ok
  split at ok
  · cases ok
  · split at ok
    · cases ok
    · split at ok
      · cases ok
      · cases ok
        refine ⟨_, rfl, ?_⟩
        simp only [Signal.Fits]
        omega

/-- Unless it aborts, the callback emits a signal. -/
theorem callback_ok (ok : soupWebsocketMessageCb parse parsable frame = .ok result) :
    ∃ signal, result = some signal ∧ signal.Fits := by
  cases frame with
  | binary => cases ok
  | text bytes =>
      simp only [soupWebsocketMessageCb] at ok
      split at ok
      · split at ok
        · cases ok
        · split at ok
          · cases ok
          · split at ok
            · exact onSdp_ok ok
            · split at ok
              · exact onIce_ok ok
              · cases ok
      · cases ok

/-- A message of the documented shape has the effect that it asks for. -/
theorem Asks.callback (asks : Asks parse parsable frame signal) (fits : signal.Fits) :
    soupWebsocketMessageCb parse parsable frame = .ok (some signal) := by
  cases asks with
  | sdp root type holds answer text valid =>
      simp only [soupWebsocketMessageCb, root, hasMember_of_lookup type,
        hasMember_of_lookup holds, getStringMember_of_lookup type,
        getObjectMember_of_lookup holds, onSdp, hasMember_of_lookup answer,
        getStringMember_of_lookup answer, hasMember_of_lookup text,
        getStringMember_of_lookup text, valid, reduceCtorEq, if_false, if_true, ne_eq, not_true]
  | @ice bytes members data mlineIndex candidate root type holds index text =>
      have notSdp : ¬ some "ice".toList = some "sdp".toList := by decide
      have same : ((mlineIndex : Int) % 0x100000000).toNat = mlineIndex := by
        simp only [Signal.Fits] at fits
        omega
      simp only [soupWebsocketMessageCb, root, hasMember_of_lookup type,
        hasMember_of_lookup holds, getStringMember_of_lookup type,
        getObjectMember_of_lookup holds, if_neg notSdp, onIce, hasMember_of_lookup index,
        getIntMember_of_lookup index, same, hasMember_of_lookup text,
        getStringMember_of_lookup text, reduceCtorEq, if_false, if_true]

/--
A frame from a viewer is handled as its log text says exactly when it is a
message of the documented shape; every other one ends the process or is acted
on with a value that it does not carry.
-/
theorem frame_handled_iff {srv : StreamServer} {connection : ConnId} {entry : ReceiverEntry}
    (known : srv.receivers connection = some entry) :
    Handled parse parsable srv entry connection frame ↔
      ∃ signal, Asks parse parsable frame signal ∧ signal.Fits := by
  constructor
  · rintro ⟨srv', served, -, outcome⟩
    simp only [StreamServer.step, known] at served
    split at served
    · cases served
    · next ok =>
        obtain ⟨signal, emits, -⟩ := callback_ok ok
        cases emits
    · next signal ok =>
        cases served
        obtain ⟨_, same, fits⟩ := callback_ok ok
        cases same
        rcases outcome with ⟨asked, asks, emitted⟩ | ⟨-, emitted⟩
        · have last := List.append_cancel_left emitted
          cases last
          exact ⟨signal, asks, fits⟩
        · simp at emitted
  · rintro ⟨signal, asks, fits⟩
    refine ⟨{ srv with emitted := srv.emitted ++ [(entry.webrtcbin, signal)] }, ?_, rfl,
      Or.inl ⟨signal, asks, rfl⟩⟩
    simp only [StreamServer.step, known, asks.callback fits]

end Frames

/-- A viewer sends its answer. -/
theorem frame_handled_answer :
    ∃ parse srv entry frame, Handled parse (fun _ => true) srv entry 0 frame := by
  let message : Text :=
    "\x7b\"type\":\"sdp\",\"data\":\x7b\"type\":\"answer\",\"sdp\":\"v=0\"\x7d\x7d".toList
  let answer : List (Text × Json) :=
    [("type".toList, .string "answer".toList), ("sdp".toList, .string "v=0".toList)]
  let members : List (Text × Json) :=
    [("type".toList, .string "sdp".toList), ("data".toList, .object answer)]
  let parse : Text → Option Json :=
    fun text => if text = message then some (.object members) else none
  have root : parse (ofData message) = some (.object members) := if_pos (by decide)
  let srv : StreamServer := ⟨fun _ => none, []⟩
  exact ⟨parse, srv.soupWebsocketHandler 0 0, ⟨0, 0⟩, .text message,
    (frame_handled_iff (srv.receivers_soupWebsocketHandler 0 0)).mpr
      ⟨_, .sdp root rfl rfl rfl rfl rfl, trivial⟩⟩

/-- A binary frame ends the process. -/
theorem binary_frame_aborts :
    ¬ ∀ parse parsable srv entry connection frame, srv.receivers connection = some entry →
      Handled parse parsable srv entry connection frame := by
  intro handled
  obtain ⟨srv', served, -⟩ := handled (fun _ => none) (fun _ => false)
    (StreamServer.soupWebsocketHandler ⟨fun _ => none, []⟩ 0 0) ⟨0, 0⟩ 0 .binary
    (StreamServer.receivers_soupWebsocketHandler _ _ _)
  cases served

end GstWebrtc.Sendonly
