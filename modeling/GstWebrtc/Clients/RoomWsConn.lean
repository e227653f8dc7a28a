import GstWebrtc.Clients.WsConn
import GstWebrtc.Multiparty.Client

/-!
# The websocket of the multiparty client

`mp-webrtc-sendrecv.c` as an owner of `ws_conn`, and the events that may come
while the connection is being closed and later.
-/

namespace GstWebrtc.Clients

open GstWebrtc.Base GstWebrtc.Base.CText GstWebrtc.Multiparty

/-- What libsoup and the elements of the peers report. -/
inductive RoomEvent where
  | textMessage (gst : Gst) (data : Text)
  | report (gst : Gst) (event : Client.Event)

variable (prog : Program) (parse : Text → Option Json)

/-- The callback of an event, when `ws_conn` is in the given state. -/
def callbackMultiparty (client : Client) (socket : Option SocketState) :
    RoomEvent → Option (Except Fault (Client × List Text))
  | .textMessage gst data =>
      if delivers socket then
        some ({ client with connected := socket = some SocketState.opened }.onServerMessage
          prog parse gst data)
      else none
  | .report gst event => some (client.onEvent gst event)

/-- What the callback has done with `ws_conn`; nothing but `cleanup_and_quit_loop` ends a loop. -/
def useOfClient (client : Client) (sent : List Text) : Use :=
  if client.looping = false then .cleansUp else if sent = [] then .idle else .calls

/-- `on_server_closed`. -/
def onServerClosed (client : Client) : Client :=
  { client with appState := .serverClosed }.cleanupAndQuitLoop .appStateUnknown

/-- The program when its connection has been made and it has registered. -/
def multiparty : Owner where
  State := Client
  Event := RoomEvent
  init := { Client.opened with appState := .serverRegistering }
  wsConn := some Socket.fresh
  callback client socket event :=
    match callbackMultiparty prog parse { client with looping := true } socket event with
    | some (.ok (next, sent)) => some (next, useOfClient next sent)
    | _ => none
  onClosed := onServerClosed

/-- The message has a session description that is neither an offer nor an answer. -/
def lacksKnownType (msg : Text) : Bool :=
  match parse msg with
  | some (.object members) =>
      let object : JsonObject := some members
      object.hasMember "sdp".toList &&
        decide (Client.sdpTypeOf object ≠ some "offer".toList ∧
          Client.sdpTypeOf object ≠ some "answer".toList)
  | _ => false

/-- The texts that may come while the connection is being closed. -/
def roomTextMayCome (state : AppState) (started : Bool) (text : Text) : Prop :=
  if hasPrefix text "ROOM_OK ".toList then state = .roomJoining ∧ started = true
  else if hasPrefix text "ROOM_PEER_MSG".toList then
    (strsplit text 3)[2]?.any (lacksKnownType parse) = false
  else hasPrefix text "ROOM_PEER".toList = true

/-- The events that may come, by the application state and the state of `ws_conn`. -/
def multipartyMayCome : Client → Option SocketState → RoomEvent → Prop
  | client, some .closing, .textMessage gst data =>
      roomTextMayCome parse client.appState gst.started (ofData data)
  | client, some .closing, .report _ (.iceCandidate _ _) =>
      AppState.roomCallOffering.code ≤ client.appState.code
  | client, some .closed, .report _ (.offerCreated _ _) => client.appState ≠ .roomCallOffering
  | client, some .closed, .report _ (.answerCreated _ _) => client.appState ≠ .roomCallAnswering
  | _, some .closed, .report _ (.iceCandidate _ _) => False
  | _, _, _ => True

variable {prog parse} {client next : Client} {gst : Gst} {sent : List Text} {text : Text}

theorem fits_closing_client :
    (useOfClient next sent).Fits (some .closing) ↔ next.looping = true := by
  unfold useOfClient
  split
  · next ended => exact iff_of_false id (by simp [ended])
  · next loops => split <;> exact iff_of_true True.intro (eq_true_of_ne_false loops)

theorem doRegistration_ends (closing : client.connected = false) :
    (Client.doRegistration prog client).1.looping = false := by
  unfold Client.doRegistration Client.joinRoomOnServer
  split
  · rfl
  · dsimp only
    rw [closing]
    rfl

theorem doJoinRoom_looping (handled : Client.doJoinRoom gst client text = .ok next)
    (looping : client.looping = true) :
    next.looping = true ↔ client.appState = .roomJoining ∧ gst.started = true := by
  constructor
  · intro goesOn
    unfold Client.doJoinRoom at handled
    split at handled
    · cases handled
      cases goesOn
    · next joining =>
        split at handled
        · cases handled
          cases goesOn
        · next starts => exact ⟨not_not.mp joining, eq_true_of_ne_false starts⟩
  · rintro ⟨joining, started⟩
    exact (Client.doJoinRoom_joined handled joining started).1.trans looping

theorem lacksKnownType_of_object {msg : Text} {members : List (Text × Json)}
    (parsed : parse msg = some (.object members)) :
    lacksKnownType parse msg = (JsonObject.hasMember (some members) "sdp".toList &&
      decide (Client.sdpTypeOf (some members) ≠ some "offer".toList ∧
        Client.sdpTypeOf (some members) ≠ some "answer".toList)) := by
  unfold lacksKnownType
  rw [parsed]

theorem lacksKnownType_of_other {msg : Text}
    (unlike : ∀ members, parse msg ≠ some (.object members)) : lacksKnownType parse msg = false := by
  unfold lacksKnownType
  split
  · next members parsed => exact absurd parsed (unlike members)
  · rfl

theorem handlePeerMessage_looping {msg : Option Text}
    (handled : Client.handlePeerMessage parse gst client msg = .ok next)
    (looping : client.looping = true) :
    next.looping = true ↔ msg.any (lacksKnownType parse) = false := by
  unfold Client.handlePeerMessage at handled
  cases msg with
  | none =>
      cases handled
      exact iff_of_true looping rfl
  | some msg =>
      rw [Option.any_some]
      dsimp only at handled
      split at handled
      · next members parsed =>
          rw [lacksKnownType_of_object parsed]
          split at handled
          · next hasSdp =>
              rw [hasSdp, Bool.true_and, decide_eq_false_iff_not]
              rcases Client.handlePeerSdp_cases gst client (some members) with
                ⟨fault, failed, -⟩ | ⟨state, ended, other⟩ | ⟨answering, offers⟩ |
                  ⟨started, answers⟩
              · cases failed.symm.trans handled
              · cases ended.symm.trans handled
                exact iff_of_false (by rintro ⟨⟩) (not_not.mpr other)
              · cases answering.symm.trans handled
                exact iff_of_true looping fun other => other.1 offers
              · cases started.symm.trans handled
                exact iff_of_true looping fun other => other.2 answers
          · next noSdp =>
              rw [eq_false_of_ne_true noSdp]
              refine iff_of_true ?_ rfl
              split at handled
              · rcases Client.handlePeerIce_plain gst client (some members) with
                  added | ⟨fault, failed, -⟩
                · cases added.symm.trans handled
                  exact looping
                · cases failed.symm.trans handled
              · cases handled
                exact looping
      · next value unlike =>
          cases handled
          exact iff_of_true looping (lacksKnownType_of_other unlike)

/-- A text that is handled while the connection is being closed. -/
theorem onServerMessage_looping {connected : Client}
    (handled : connected.onServerMessage prog parse gst text = .ok (next, sent))
    (closing : connected.connected = false) (looping : connected.looping = true) :
    next.looping = true ↔ roomTextMayCome parse connected.appState gst.started (ofData text) := by
  unfold Client.onServerMessage at handled
  dsimp only at handled
  unfold roomTextMayCome
  generalize ofData text = text at handled ⊢
  split at handled
  · next hello =>
      have same : (Client.doRegistration prog connected).1 = next :=
        congrArg Prod.fst (Except.ok.inj handled)
      rw [← same, doRegistration_ends closing, hello, if_neg (by decide), if_neg (by decide)]
      exact iff_of_false (by decide) (by decide)
  · split at handled
    · split at handled
      · next joins =>
          rw [if_pos joins]
          exact doJoinRoom_looping (Client.ok_of_map handled).1 looping
      · next other =>
          rw [if_neg other]
          split at handled
          · next peer =>
              have about := (Client.ok_of_map handled).1
              unfold Client.onRoomPeer at about
              dsimp only at about
              split at about
              · next message =>
                  rw [if_pos message]
                  split at about
                  · cases about
                  · exact handlePeerMessage_looping about looping
              · next notMessage =>
                  rw [if_neg notMessage]
                  refine iff_of_true ?_ peer
                  repeat' split at about
                  all_goals cases about
                  all_goals exact looping
          · next notPeer =>
              cases handled
              have notMessage : ¬ hasPrefix text "ROOM_PEER_MSG".toList = true := fun message =>
                notPeer (hasPrefix_shorter message (by decide))
              rw [if_neg notMessage]
              exact iff_of_false (by rintro ⟨⟩) notPeer
    · next notRoom =>
        have plain : ∀ p, "ROOM_".toList <+: p → ¬ hasPrefix text p = true :=
          fun p shorter whole => notRoom (hasPrefix_shorter whole shorter)
        rw [if_neg (plain _ (by decide)), if_neg (plain _ (by decide))]
        refine iff_of_false ?_ (plain _ (by decide))
        split at handled
        · cases handled
          rintro ⟨⟩
        · cases handled
          rintro ⟨⟩

/-- What a report of an element makes of the connection. -/
def useOfReport (state : AppState) : Client.Event → Use
  | .negotiationNeeded _ => .idle
  | .offerCreated _ _ => .calls
  | .answerCreated _ _ => .calls
  | .iceCandidate _ _ =>
      if AppState.roomCallOffering.code ≤ state.code then .calls else .cleansUp

theorem onEvent_use {event : Client.Event}
    (handled : client.onEvent gst event = .ok (next, sent)) (looping : client.looping = true) :
    useOfClient next sent = useOfReport client.appState event := by
  have calls : ∀ {client : Client} {text : Text}, client.looping = true →
      useOfClient client [text] = .calls := fun loops => by
    unfold useOfClient
    rw [loops]
    rfl
  cases event with
  | negotiationNeeded peerId =>
      cases handled
      unfold useOfClient
      rw [looping]
      rfl
  | offerCreated peerId body =>
      unfold Client.onEvent at handled
      dsimp only at handled
      split at handled
      · cases handled
        exact calls looping
      · cases handled
  | answerCreated peerId body =>
      unfold Client.onEvent at handled
      dsimp only at handled
      split at handled
      · cases handled
        exact calls looping
      · cases handled
  | iceCandidate peerId body =>
      unfold Client.onEvent at handled
      dsimp only at handled
      split at handled
      · next early =>
          cases handled
          exact (if_neg (Nat.not_le.mpr early)).symm
      · next inCall =>
          cases handled
          rw [calls looping]
          exact (if_pos (Nat.not_lt.mp inCall)).symm

theorem onEvent_offerCreated {peerId body : Text}
    (handled : client.onEvent gst (.offerCreated peerId body) = .ok (next, sent)) :
    client.appState = .roomCallOffering := by
  unfold Client.onEvent at handled
  dsimp only at handled
  split at handled
  · next passes => exact passes.1
  · cases handled

theorem onEvent_answerCreated {peerId body : Text}
    (handled : client.onEvent gst (.answerCreated peerId body) = .ok (next, sent)) :
    client.appState = .roomCallAnswering := by
  unfold Client.onEvent at handled
  dsimp only at handled
  split at handled
  · next passes => exact passes.1
  · cases handled

/-- The callback of an event leaves the connection in order just when the event may come. -/
theorem callbackMultiparty_fits {socket : Option SocketState} {event : RoomEvent}
    (handled : callbackMultiparty prog parse { client with looping := true } socket event =
      some (.ok (next, sent))) :
    multipartyMayCome parse client socket event ↔ (useOfClient next sent).Fits socket := by
  cases event with
  | textMessage gst data =>
      cases socket with
      | none => cases handled
      | some socket =>
          cases socket with
          | opened => exact iff_of_true True.intro fits_opened
          | closing =>
              exact (onServerMessage_looping (Option.some.inj handled) rfl rfl).symm.trans
                fits_closing_client.symm
          | closed => cases handled
  | report gst event =>
      have done := Option.some.inj handled
      have used := onEvent_use done rfl
      cases socket with
      | none => cases event <;> exact iff_of_true True.intro fits_null
      | some socket =>
          cases socket with
          | opened => cases event <;> exact iff_of_true True.intro fits_opened
          | closing =>
              cases event with
              | iceCandidate peerId body =>
                  rw [used]
                  change AppState.roomCallOffering.code ≤ client.appState.code ↔ _
                  unfold useOfReport
                  dsimp only
                  split
                  · next inCall => exact iff_of_true inCall True.intro
                  · next early => exact iff_of_false early id
              | _ =>
                  rw [used]
                  exact Iff.rfl
          | closed =>
              cases event with
              | negotiationNeeded peerId =>
                  rw [used]
                  exact Iff.rfl
              | offerCreated peerId body =>
                  have offering := onEvent_offerCreated done
                  rw [used]
                  exact iff_of_false (fun other => other offering) id
              | answerCreated peerId body =>
                  have answering := onEvent_answerCreated done
                  rw [used]
                  exact iff_of_false (fun other => other answering) id
              | iceCandidate peerId body =>
                  rw [used]
                  unfold useOfReport
                  dsimp only
                  split <;> exact Iff.rfl

end GstWebrtc.Clients
