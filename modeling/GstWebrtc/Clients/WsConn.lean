import GstWebrtc.Base.Websocket
import GstWebrtc.Android.Client

/-!
# The websocket of a client that calls one peer

`webrtc-sendrecv.c` and `webrtc.c` of the Android app as owners of `ws_conn`.
`cleanup_and_quit_loop` closes the connection while that is open, drops the
reference otherwise, and leaves the pointer as it is, so that the events that
may come while the connection is being closed and later are few.
-/

namespace GstWebrtc.Clients

open GstWebrtc.Base GstWebrtc.Base.CText

/-- The request sends on the connection. -/
def sends : Sendrecv.Request → Bool
  | .sendText _ => true
  | .sendMessage _ => true
  | _ => false

/-- What the callback has done with `ws_conn`. -/
def useOf : Sendrecv.Outcome → Use
  | .acted requests => if requests.any sends then .calls else .idle
  | .ignored _ => .idle
  | .ended _ => .cleansUp

/-- Frames come until the connection is closed. -/
def delivers : Option SocketState → Bool
  | some .opened => true
  | some .closing => true
  | _ => false

/-! ## The callbacks that leave a closing or closed connection in order -/

/-- The callback calls `cleanup_and_quit_loop`. -/
def ends : Sendrecv.Outcome → Bool
  | .ended _ => true
  | _ => false

theorem fits_closing {outcome : Sendrecv.Outcome} :
    (useOf outcome).Fits (some .closing) ↔ ends outcome = false := by
  cases outcome with
  | acted requests =>
      refine iff_of_true ?_ rfl
      unfold useOf
      dsimp only
      split <;> exact True.intro
  | ignored message => exact iff_of_true True.intro rfl
  | ended message => exact iff_of_false id (by rintro ⟨⟩)

theorem fits_opened {use : Use} : use.Fits (some .opened) := by
  cases use <;> exact True.intro

theorem fits_null {use : Use} : use.Fits none := by
  cases use <;> exact True.intro

/-- A callback that cleans up in one case. -/
theorem fits_cleansUp_if {cleans : Bool} {socket : SocketState} (late : socket ≠ .opened) :
    cleans = false ↔ (if cleans then Use.cleansUp else .idle).Fits (some socket) := by
  cases cleans with
  | false => exact iff_of_true rfl (by cases socket <;> exact True.intro)
  | true =>
      refine iff_of_false (by rintro ⟨⟩) ?_
      cases socket with
      | opened => exact absurd rfl late
      | closing => exact id
      | closed => exact id

/-- The texts that may come while the connection is being closed, in a client that calls one
peer; the last argument tells of a description that has no `type`. -/
def textMayCome (state : Sendrecv.AppState) (started : Bool) (text : Text) (lacksType : Bool) :
    Prop :=
  if text = "SESSION_OK".toList then state = .peerConnecting ∧ started = true
  else text ≠ "HELLO".toList ∧ hasPrefix text "ERROR".toList = false ∧ lacksType = false

/-! ## `webrtc-sendrecv.c` -/

section Sendrecv

open GstWebrtc.Sendrecv

variable (prog : Program) (parse : Text → Option Json)

/-- The callback of an event, when `ws_conn` is in the given state. -/
def callbackSendrecv (state : AppState) (socket : Option SocketState) :
    Event → Option (Except Fault (AppState × Outcome))
  | .textMessage answers data =>
      if delivers socket then
        some (onServerMessage prog parse ⟨socket = some .opened, answers.started⟩ state data)
      else none
  | .binaryMessage =>
      if delivers socket then some (perform prog parse state .binaryMessage) else none
  -- the closed signal is the connection's own
  | .closed => none
  | event => some (perform prog parse state event)

/-- The program when its connection has been made and it has registered. -/
def sendrecv : Owner where
  State := AppState
  Event := Event
  init := .serverRegistering
  wsConn := some Socket.fresh
  callback state socket event :=
    match callbackSendrecv prog parse state socket event with
    | some (.ok (next, outcome)) => some (next, useOf outcome)
    | _ => none
  onClosed _ := onServerClosed.1

/-- The text is an object with a session description that has no `type`. -/
def lacksType (text : Text) : Bool :=
  match parse text with
  | some (.object members) =>
      let object : JsonObject := some members
      object.hasMember "sdp".toList &&
        !(object.getObjectMember "sdp".toList).hasMember "type".toList
  | _ => false

/-- The events that may come, by the application state and the state of `ws_conn`. -/
def sendrecvMayCome : AppState → Option SocketState → Event → Prop
  | state, some .closing, .textMessage answers data =>
      textMayCome state answers.started (ofData data) (lacksType parse (ofData data))
  | state, some .closing, .iceCandidate _ _ => AppState.peerCallNegotiating.code ≤ state.code
  | _, some .closed, .negotiationNeeded => prog.remoteIsOfferer = false
  | state, some .closed, .offerCreated _ => state ≠ .peerCallNegotiating
  | state, some .closed, .answerCreated _ => state ≠ .peerCallNegotiating
  | _, some .closed, .iceCandidate _ _ => False
  | _, some .closing, .dataChannelError | _, some .closing, .dataChannelClosed
  | _, some .closed, .dataChannelError | _, some .closed, .dataChannelClosed => False
  | _, _, _ => True

variable {prog parse} {state next : AppState} {outcome : Outcome} {started : Bool} {text : Text}

theorem onHello_ends : ends (onHello prog ⟨false, started⟩ state).2 = true := by
  unfold onHello
  split <;> rfl

theorem onSessionOk_ends {answers : Answers} :
    ends (onSessionOk answers state).2 = false ↔
      state = .peerConnecting ∧ answers.started = true := by
  unfold onSessionOk
  split
  · next other => exact iff_of_false (by rintro ⟨⟩) fun calling => other calling.1
  · next calling =>
      split
      · next starts => exact iff_of_true rfl ⟨not_not.mp calling, starts⟩
      · next fails => exact iff_of_false (by rintro ⟨⟩) fun starts => fails starts.2

theorem onSdp_ends {object : JsonObject} (handled : onSdp state object = .ok (next, outcome)) :
    ends outcome = false ↔
      (object.getObjectMember "sdp".toList).hasMember "type".toList = true := by
  unfold onSdp at handled
  dsimp only at handled
  split at handled
  · cases handled
  · split at handled
    · next untyped =>
        cases handled
        exact iff_of_false (by rintro ⟨⟩) (by rw [untyped]; exact Bool.false_ne_true)
    · next typed =>
        refine iff_of_true ?_ (by simpa using typed)
        repeat' split at handled
        all_goals cases handled
        all_goals rfl

theorem onIce_ends {object : JsonObject} (handled : onIce state object = .ok (next, outcome)) :
    ends outcome = false := by
  unfold onIce at handled
  dsimp only at handled
  split at handled
  · cases handled
  · cases handled
    rfl

/-- A text that is handled while the connection is being closed. -/
theorem onServerMessage_ends
    (handled : onServerMessage prog parse ⟨false, started⟩ state text = .ok (next, outcome)) :
    ends outcome = false ↔
      textMayCome state started (ofData text) (lacksType parse (ofData text)) := by
  unfold onServerMessage at handled
  dsimp only at handled
  unfold textMayCome
  generalize ofData text = text at handled ⊢
  split at handled
  · next hello =>
      have same : (onHello prog ⟨false, started⟩ state).2 = outcome :=
        congrArg Prod.snd (Except.ok.inj handled)
      rw [← same, onHello_ends, if_neg (by rw [hello]; decide)]
      exact iff_of_false (by decide) fun other => other.1 hello
  · next notHello =>
      split at handled
      · next sessionOk =>
          have same : (onSessionOk ⟨false, started⟩ state).2 = outcome :=
            congrArg Prod.snd (Except.ok.inj handled)
          rw [← same, if_pos sessionOk]
          exact onSessionOk_ends
      · next other =>
          rw [if_neg other, and_iff_right notHello]
          split at handled
          · next error =>
              cases handled
              exact iff_of_false (by rintro ⟨⟩) fun plain => by cases error.symm.trans plain.1
          · next notError =>
              rw [and_iff_right (eq_false_of_ne_true notError)]
              unfold lacksType
              split at handled
              · next parsed =>
                  cases handled
                  rw [parsed]
                  exact iff_of_true rfl rfl
              · next members parsed =>
                  rw [parsed]
                  dsimp only
                  split at handled
                  · next hasSdp =>
                      rw [onSdp_ends handled, hasSdp, Bool.true_and, Bool.not_eq_false']
                  · next noSdp =>
                      rw [eq_false_of_ne_true noSdp]
                      refine iff_of_true ?_ rfl
                      split at handled
                      · exact onIce_ends handled
                      · cases handled
                        rfl
              · next value unlike parsed =>
                  cases handled
                  rw [parsed]
                  refine iff_of_true rfl ?_
                  split
                  · next members same => exact absurd (Option.some.inj same) (unlike members)
                  · rfl

theorem onOfferCreated_calls {reply : Option Text}
    (handled : onOfferCreated state reply = .ok (next, outcome)) :
    state = .peerCallNegotiating ∧ useOf outcome = .calls := by
  unfold onOfferCreated at handled
  split at handled
  · cases handled
  · next negotiating =>
      obtain rfl := not_not.mp negotiating
      split at handled
      · cases handled
      · cases handled
        exact ⟨rfl, rfl⟩

theorem onAnswerCreated_calls {reply : Option Text}
    (handled : onAnswerCreated state reply = .ok (next, outcome)) :
    state = .peerCallNegotiating ∧ useOf outcome = .calls := by
  unfold onAnswerCreated at handled
  split at handled
  · cases handled
  · next negotiating =>
      obtain rfl := not_not.mp negotiating
      split at handled
      · cases handled
      · cases handled
        exact ⟨rfl, rfl⟩

theorem sendIceCandidateMessage_use (mlineindex : Nat) (candidate : Text) :
    useOf (sendIceCandidateMessage state mlineindex candidate).2 =
      if AppState.peerCallNegotiating.code ≤ state.code then .calls else .cleansUp := by
  unfold sendIceCandidateMessage
  split
  · next early => exact (if_neg (Nat.not_le.mpr early)).symm
  · next inCall => exact (if_pos (Nat.not_lt.mp inCall)).symm

theorem onNegotiationNeeded_use :
    useOf (onNegotiationNeeded prog).2 = if prog.remoteIsOfferer then .calls else .idle := by
  unfold onNegotiationNeeded
  cases prog.remoteIsOfferer <;> rfl

/-- The callback of an event leaves the connection in order just when the event may come. -/
theorem callbackSendrecv_fits {socket : Option SocketState} {event : Event}
    (handled : callbackSendrecv prog parse state socket event = some (.ok (next, outcome))) :
    sendrecvMayCome prog parse state socket event ↔ (useOf outcome).Fits socket := by
  have performed : ∀ {result : AppState × Outcome}, some (Except.ok result) =
      (some (.ok (next, outcome)) : Option (Except Fault _)) → useOf result.2 = useOf outcome := by
    rintro result ⟨⟩
    rfl
  cases socket with
  | none => cases event <;> exact iff_of_true True.intro fits_null
  | some socket =>
      cases socket with
      | opened => cases event <;> exact iff_of_true True.intro fits_opened
      | closing =>
          cases event with
          | textMessage answers data =>
              exact (onServerMessage_ends (Option.some.inj handled)).symm.trans fits_closing.symm
          | iceCandidate mlineindex candidate =>
              rw [← performed handled, sendIceCandidateMessage_use]
              change AppState.peerCallNegotiating.code ≤ state.code ↔ _
              split
              · next inCall => exact iff_of_true inCall True.intro
              · next early => exact iff_of_false early id
          | dataChannelError =>
              cases handled
              exact Iff.rfl
          | dataChannelClosed =>
              cases handled
              exact Iff.rfl
          | negotiationNeeded =>
              rw [← performed handled, onNegotiationNeeded_use]
              split <;> exact Iff.rfl
          | offerCreated reply =>
              rw [(onOfferCreated_calls (Option.some.inj handled)).2]
              exact Iff.rfl
          | answerCreated reply =>
              rw [(onAnswerCreated_calls (Option.some.inj handled)).2]
              exact Iff.rfl
          | binaryMessage =>
              cases handled
              exact Iff.rfl
          | offerSet =>
              cases handled
              exact Iff.rfl
          | closed => cases handled
      | closed =>
          cases event with
          | textMessage answers data => cases handled
          | binaryMessage => cases handled
          | iceCandidate mlineindex candidate =>
              rw [← performed handled, sendIceCandidateMessage_use]
              split <;> exact Iff.rfl
          | dataChannelError =>
              cases handled
              exact Iff.rfl
          | dataChannelClosed =>
              cases handled
              exact Iff.rfl
          | negotiationNeeded =>
              rw [← performed handled, onNegotiationNeeded_use]
              change prog.remoteIsOfferer = false ↔ _
              split
              · next remote => exact iff_of_false (by simp [remote]) id
              · next ours => exact iff_of_true (eq_false_of_ne_true ours) True.intro
          | offerCreated reply =>
              obtain ⟨negotiating, calls⟩ := onOfferCreated_calls (Option.some.inj handled)
              rw [calls]
              exact iff_of_false (fun other => other negotiating) id
          | answerCreated reply =>
              obtain ⟨negotiating, calls⟩ := onAnswerCreated_calls (Option.some.inj handled)
              rw [calls]
              exact iff_of_false (fun other => other negotiating) id
          | offerSet =>
              cases handled
              exact Iff.rfl
          | closed => cases handled

end Sendrecv

/-! ## `webrtc.c` -/

section Android

open GstWebrtc.Sendrecv GstWebrtc.Android

/-- What libsoup, GStreamer and the user of the app cause. -/
inductive CallEvent where
  | setCallId (peerId : CString)
  | callOtherParty
  | endCall
  | connected (error : Option Text) (ourId : Nat)
  | textMessage (started : Bool) (data : Text)
  | binaryMessage
  | negotiationNeeded
  | offerCreated (reply : Option Text)
  | iceCandidate (mlineindex : Nat) (candidate : Text)

variable (parse : Text → Option Json)

/-- The callback of an event, when `ws_conn` is in the given state. -/
def callbackAndroid (webrtc : WebRTC) (socket : Option SocketState) :
    CallEvent → Option (Except Fault (WebRTC × Outcome))
  | .setCallId peerId => some (.ok (webrtc.nativeSetCallId peerId, .acted []))
  | .callOtherParty => some (.ok webrtc.nativeCallOtherParty)
  | .endCall => some (.ok webrtc.nativeEndCall)
  -- the loop of the call runs the callback, with a new connection that is open
  | .connected error ourId =>
      if webrtc.loop then some (.ok (webrtc.onServerConnected error ⟨true, true⟩ ourId)) else none
  | .textMessage started data =>
      if delivers socket then
        some (webrtc.onServerMessage parse ⟨socket = some .opened, started⟩ data)
      else none
  | .binaryMessage =>
      if delivers socket then
        some (.ok (webrtc, .ignored "Received unknown binary message, ignoring".toList))
      else none
  -- the pipeline is stopped when it is released
  | .negotiationNeeded => if webrtc.pipe then some (.ok webrtc.onNegotiationNeeded) else none
  | .offerCreated reply => if webrtc.pipe then some (webrtc.onOfferCreated reply) else none
  | .iceCandidate mlineindex candidate =>
      if webrtc.pipe then some (.ok (webrtc.sendIceCandidateMessage mlineindex candidate)) else none

/-- `soup_session_websocket_connect_finish` is assigned to `ws_conn`. -/
def useOfCall : CallEvent → Outcome → Use
  | .connected (some _) _, _ => .clears
  | .connected none _, _ => .connects
  | _, outcome => useOf outcome

/-- A new `WebRTC`, for any number of calls. -/
def android : Owner where
  State := WebRTC
  Event := CallEvent
  init := WebRTC.new
  wsConn := none
  callback webrtc socket event :=
    match callbackAndroid parse webrtc socket event with
    | some (.ok (next, outcome)) => some (next, useOfCall event outcome)
    | _ => none
  onClosed webrtc := webrtc.onServerClosed.1

/-- The events that may come, by the fields of the `WebRTC` and the state of `ws_conn`. -/
def androidMayCome : WebRTC → Option SocketState → CallEvent → Prop
  | webrtc, some .closing, .textMessage started data =>
      textMayCome webrtc.appState started (ofData data) false
  | webrtc, some .closing, .iceCandidate _ _ =>
      AppState.peerCallNegotiating.code ≤ webrtc.appState.code
  | webrtc, some .closed, .offerCreated _ => webrtc.appState ≠ .peerCallNegotiating
  | _, some .closed, .iceCandidate _ _ => False
  | webrtc, some .closing, .callOtherParty | webrtc, some .closed, .callOtherParty =>
      (webrtc.thread && webrtc.loop) = false
  | webrtc, some .closing, .endCall | webrtc, some .closed, .endCall => webrtc.loop = false
  | _, _, _ => True

variable {parse} {webrtc next : WebRTC} {outcome : Outcome} {started : Bool} {text : Text}

theorem webrtc_onHello_ends : ends (webrtc.onHello ⟨false, started⟩).2 = true := by
  unfold WebRTC.onHello
  split <;> rfl

theorem webrtc_onSessionOk_ends {answers : Answers} :
    ends (webrtc.onSessionOk answers).2 = false ↔
      webrtc.appState = .peerConnecting ∧ answers.started = true := by
  unfold WebRTC.onSessionOk
  split
  · next other => exact iff_of_false (by rintro ⟨⟩) fun calling => other calling.1
  · next calling =>
      dsimp only
      split
      · next starts => exact iff_of_true rfl ⟨not_not.mp calling, starts⟩
      · next fails => exact iff_of_false (by rintro ⟨⟩) fun starts => fails starts.2

theorem webrtc_onSdp_ends {object : JsonObject}
    (handled : webrtc.onSdp object = .ok (next, outcome)) :
    ends outcome = false := by
  unfold WebRTC.onSdp at handled
  dsimp only at handled
  repeat' split at handled
  all_goals cases handled
  rfl

theorem webrtc_onIce_ends {object : JsonObject}
    (handled : webrtc.onIce object = .ok (next, outcome)) :
    ends outcome = false := by
  unfold WebRTC.onIce at handled
  dsimp only at handled
  split at handled
  · cases handled
  · cases handled
    rfl

/-- A text that is handled while the connection is being closed. -/
theorem webrtc_onServerMessage_ends
    (handled : webrtc.onServerMessage parse ⟨false, started⟩ text = .ok (next, outcome)) :
    ends outcome = false ↔ textMayCome webrtc.appState started (ofData text) false := by
  unfold WebRTC.onServerMessage at handled
  dsimp only at handled
  unfold textMayCome
  generalize ofData text = text at handled ⊢
  split at handled
  · next hello =>
      have same : (webrtc.onHello ⟨false, started⟩).2 = outcome :=
        congrArg Prod.snd (Except.ok.inj handled)
      rw [← same, webrtc_onHello_ends, if_neg (by rw [hello]; decide)]
      exact iff_of_false (by decide) fun other => other.1 hello
  · next notHello =>
      split at handled
      · next sessionOk =>
          have same : (webrtc.onSessionOk ⟨false, started⟩).2 = outcome :=
            congrArg Prod.snd (Except.ok.inj handled)
          rw [← same, if_pos sessionOk]
          exact webrtc_onSessionOk_ends
      · next other =>
          rw [if_neg other, and_iff_right notHello]
          split at handled
          · next error =>
              cases handled
              exact iff_of_false (by rintro ⟨⟩) fun plain => by cases error.symm.trans plain.1
          · next notError =>
              refine iff_of_true ?_ ⟨eq_false_of_ne_true notError, rfl⟩
              split at handled
              · cases handled
                rfl
              · split at handled
                · exact webrtc_onSdp_ends handled
                · split at handled
                  · exact webrtc_onIce_ends handled
                  · cases handled
                    rfl
              · cases handled
                rfl

theorem webrtc_onOfferCreated_calls {reply : Option Text}
    (handled : webrtc.onOfferCreated reply = .ok (next, outcome)) :
    webrtc.appState = .peerCallNegotiating ∧ useOf outcome = .calls := by
  unfold WebRTC.onOfferCreated WebRTC.sendSdpOffer at handled
  split at handled
  · cases handled
  · next negotiating =>
      have state := not_not.mp negotiating
      rw [state] at handled
      split at handled
      · cases handled
      · cases handled
        exact ⟨state, rfl⟩

theorem webrtc_sendIceCandidateMessage_use (mlineindex : Nat) (candidate : Text) :
    useOf (webrtc.sendIceCandidateMessage mlineindex candidate).2 =
      if AppState.peerCallNegotiating.code ≤ webrtc.appState.code then .calls else .cleansUp := by
  unfold WebRTC.sendIceCandidateMessage
  split
  · next early => exact (if_neg (Nat.not_le.mpr early)).symm
  · next inCall => exact (if_pos (Nat.not_lt.mp inCall)).symm

theorem nativeEndCall_use :
    useOf webrtc.nativeEndCall.2 = if webrtc.loop then .cleansUp else .idle := by
  unfold WebRTC.nativeEndCall
  cases webrtc.loop <;> rfl

theorem nativeCallOtherParty_use :
    useOf webrtc.nativeCallOtherParty.2 =
      if webrtc.thread && webrtc.loop then .cleansUp else .idle := by
  unfold WebRTC.nativeCallOtherParty
  cases thread : webrtc.thread with
  | false => rfl
  | true =>
      rw [Bool.true_and]
      exact nativeEndCall_use

/-- The callback of an event leaves the connection in order just when the event may come. -/
theorem callbackAndroid_fits {socket : Option SocketState} {event : CallEvent}
    (handled : callbackAndroid parse webrtc socket event = some (.ok (next, outcome))) :
    androidMayCome webrtc socket event ↔ (useOfCall event outcome).Fits socket := by
  have performed : ∀ {result : WebRTC × Outcome}, some (Except.ok result) =
      (some (.ok (next, outcome)) : Option (Except Fault _)) → useOf result.2 = useOf outcome := by
    rintro result ⟨⟩
    rfl
  cases socket with
  | none => cases event <;> exact iff_of_true True.intro fits_null
  | some socket =>
      cases event with
      | setCallId peerId =>
          cases handled
          cases socket <;> exact Iff.rfl
      | binaryMessage =>
          cases socket with
          | closed => cases handled
          | _ =>
              cases handled
              exact Iff.rfl
      | connected error ourId =>
          cases error <;> cases socket <;> exact Iff.rfl
      | callOtherParty =>
          have use : useOfCall .callOtherParty outcome =
              if webrtc.thread && webrtc.loop then .cleansUp else .idle :=
            (performed handled).symm.trans nativeCallOtherParty_use
          rw [use]
          cases socket with
          | opened => exact iff_of_true True.intro fits_opened
          | closing => exact fits_cleansUp_if (by decide)
          | closed => exact fits_cleansUp_if (by decide)
      | endCall =>
          have use : useOfCall .endCall outcome = if webrtc.loop then .cleansUp else .idle :=
            (performed handled).symm.trans nativeEndCall_use
          rw [use]
          cases socket with
          | opened => exact iff_of_true True.intro fits_opened
          | closing => exact fits_cleansUp_if (by decide)
          | closed => exact fits_cleansUp_if (by decide)
      | textMessage started data =>
          cases socket with
          | opened => exact iff_of_true True.intro fits_opened
          | closing =>
              exact (webrtc_onServerMessage_ends (Option.some.inj handled)).symm.trans
                fits_closing.symm
          | closed => cases handled
      | negotiationNeeded =>
          unfold callbackAndroid at handled
          dsimp only at handled
          split at handled
          · cases handled
            cases socket <;> exact Iff.rfl
          · cases handled
      | offerCreated reply =>
          unfold callbackAndroid at handled
          dsimp only at handled
          split at handled
          · obtain ⟨negotiating, calls⟩ := webrtc_onOfferCreated_calls (Option.some.inj handled)
            change _ ↔ (useOf outcome).Fits _
            rw [calls]
            cases socket with
            | closed => exact iff_of_false (fun other => other negotiating) id
            | _ => exact Iff.rfl
          · cases handled
      | iceCandidate mlineindex candidate =>
          unfold callbackAndroid at handled
          dsimp only at handled
          split at handled
          · change _ ↔ (useOf outcome).Fits _
            rw [← performed handled, webrtc_sendIceCandidateMessage_use]
            cases socket with
            | opened => exact iff_of_true True.intro fits_opened
            | closing =>
                change AppState.peerCallNegotiating.code ≤ webrtc.appState.code ↔ _
                split
                · next inCall => exact iff_of_true inCall True.intro
                · next early => exact iff_of_false early id
            | closed => split <;> exact Iff.rfl
          · cases handled

end Android

end GstWebrtc.Clients
