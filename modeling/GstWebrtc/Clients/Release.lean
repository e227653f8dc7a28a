import GstWebrtc.Clients.RoomWsConn

/-!
# The release of the reference

The three C clients as owners of `ws_conn`, and the runs in which the reference
is dropped once, and last.
-/

namespace GstWebrtc.Clients

open GstWebrtc.Base

/-- A C client, with its options and what json-glib makes of texts. -/
inductive CClient where
  | sendrecv (prog : Sendrecv.Program) (parse : Text → Option Json)
  | multiparty (prog : Multiparty.Program) (parse : Text → Option Json)
  | android (parse : Text → Option Json)

def CClient.owner : CClient → Owner
  | sendrecv prog parse => Clients.sendrecv prog parse
  | multiparty prog parse => Clients.multiparty prog parse
  | android parse => Clients.android parse

/-! ## The release of the reference -/

namespace CClient

theorem kept (client : CClient) : Owner.Kept client.owner.wsConn := by
  cases client with
  | sendrecv prog parse => exact .opened
  | multiparty prog parse => exact .opened
  | android parse => exact .null

/-- The events that may come, by the variables of the client and the state of `ws_conn`. -/
def mayCome : (client : CClient) → client.owner.Condition
  | sendrecv prog parse => sendrecvMayCome prog parse
  | multiparty _ parse => multipartyMayCome parse
  | android _ => androidMayCome

theorem mayCome_exact (client : CClient) : client.mayCome.Exact := by
  intro state socket event next use called
  cases client with
  | sendrecv prog parse =>
      simp only [owner, Clients.sendrecv] at called
      split at called
      · next handled =>
          cases called
          exact callbackSendrecv_fits handled
      · cases called
  | multiparty prog parse =>
      simp only [owner, Clients.multiparty] at called
      split at called
      · next handled =>
          cases called
          exact callbackMultiparty_fits handled
      · cases called
  | android parse =>
      simp only [owner, Clients.android] at called
      split at called
      · next handled =>
          cases called
          exact callbackAndroid_fits handled
      · cases called

end CClient

/--
The reference is released once and last in every run in which each event may
come when it does.  After the first event that may not, the reference has been
misused already, or it is when the closed signal comes.
-/
theorem released_once (client : CClient) :
    (∀ h, client.owner.machine.Reachable client.mayCome.Allows h → h.Sound) ∧
      ∀ h signal next, client.owner.machine.Reachable client.mayCome.Allows h →
        h.step signal = some next → ¬ client.mayCome.Allows h signal →
          ¬ next.Sound ∨ ∃ last, next.step .closed = some last ∧ ¬ last.Sound := by
  refine ⟨fun h run => ?_, fun h signal next run fires broken => ?_⟩
  · exact (Owner.kept_of_reachable client.mayCome_exact client.kept run).sound
  · have kept := Owner.kept_of_reachable client.mayCome_exact client.kept run
    exact Owner.misused_of_not_allowed client.mayCome_exact kept fires broken

/-- `webrtc-sendrecv --peer-id y`, and a json-glib that is given no JSON. -/
def caller : CClient := .sendrecv ⟨some ⟨"remote".toList, by decide⟩, false⟩ fun _ => none

/-- The caller in a state of its application, while it has its reference. -/
def callerIn (state : Sendrecv.AppState) (socket : SocketState) : caller.owner.Holder :=
  ⟨state, some ⟨socket, 0, false⟩⟩

/-- A candidate is found while the server closes the connection in the middle of a call. -/
theorem released_once_call :
    ∃ h : caller.owner.Holder, h.wsConn = some ⟨.closed, 1, false⟩ ∧ h.Sound := by
  have registering : caller.owner.machine.Reachable caller.mayCome.Allows
      (callerIn .serverRegistering .opened) := .refl
  have connecting : caller.owner.machine.Reachable caller.mayCome.Allows
      (callerIn .peerConnecting .opened) :=
    registering.act (.callback (Sendrecv.Event.textMessage ⟨true, true⟩ "HELLO".toList))
      True.intro rfl
  have connected : caller.owner.machine.Reachable caller.mayCome.Allows
      (callerIn .peerConnected .opened) :=
    connecting.act (.callback (Sendrecv.Event.textMessage ⟨true, true⟩ "SESSION_OK".toList))
      True.intro rfl
  have negotiating : caller.owner.machine.Reachable caller.mayCome.Allows
      (callerIn .peerCallNegotiating .opened) :=
    connected.act (.callback Sendrecv.Event.negotiationNeeded) True.intro rfl
  have offered : caller.owner.machine.Reachable caller.mayCome.Allows
      (callerIn .peerCallNegotiating .opened) :=
    negotiating.act (.callback (Sendrecv.Event.offerCreated (some "v=0".toList))) True.intro rfl
  have closing : caller.owner.machine.Reachable caller.mayCome.Allows
      (callerIn .peerCallNegotiating .closing) := offered.act .closing True.intro rfl
  have inCall : caller.mayCome.Allows (callerIn .peerCallNegotiating .closing)
      (.callback (Sendrecv.Event.iceCandidate 0 "candidate".toList)) := Nat.le_refl 4000
  have late : caller.owner.machine.Reachable caller.mayCome.Allows
      (callerIn .peerCallNegotiating .closing) :=
    closing.act (.callback (Sendrecv.Event.iceCandidate 0 "candidate".toList)) inCall rfl
  have closed : caller.owner.machine.Reachable caller.mayCome.Allows
      ⟨.serverClosed, some ⟨.closed, 1, false⟩⟩ := late.act .closed True.intro rfl
  exact ⟨_, rfl, (released_once caller).1 _ closed⟩

/-- The server closes the connection in the middle of a call. -/
def callClosed : List caller.owner.Signal :=
  [.callback (Sendrecv.Event.textMessage ⟨true, true⟩ "HELLO".toList),
    .callback (Sendrecv.Event.textMessage ⟨true, true⟩ "SESSION_OK".toList), .closed]

/-- A candidate is found before the pipeline is stopped. -/
theorem candidate_after_close :
    ¬ ∀ (client : CClient) (h : client.owner.Holder),
      client.owner.machine.Reachable Machine.anyAction h → h.Sound := by
  intro sound
  obtain ⟨h, run, test⟩ := Machine.exists_reachable_of_exec (m := caller.owner.machine)
    (callClosed ++ [.callback (Sendrecv.Event.iceCandidate 0 "candidate".toList)])
    (fun h => h.wsConn = some ⟨.closed, 2, true⟩) (by decide)
  have bad := sound caller h run _ (of_decide_eq_true test)
  exact absurd bad (by decide)

/-- In the Android app a call that is ended before it is connected finds the connection of the
call before. -/
example : ((android fun _ => none).machine.exec (android fun _ => none).machine.init
    [.callback CallEvent.callOtherParty, .callback (CallEvent.connected none 10), .closed,
      .callback CallEvent.callOtherParty, .callback CallEvent.endCall]).map Owner.Holder.wsConn =
    some (some ⟨.closed, 2, true⟩) := by
  decide

end GstWebrtc.Clients
