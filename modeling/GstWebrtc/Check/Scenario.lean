import GstWebrtc.Base.PeerConnection
import GstWebrtc.Browser.Description
import GstWebrtc.Check.RemoteChannels

/-!
# Scenarios of the validate client

`webrtc_validate.py` performs the actions of a scenario with its own `webrtcbin`
and with the test page in a browser, which it commands by texts of the session.
The actions run in one thread, the callbacks of `webrtcbin` in another one, and
the texts that arrive in a third one.  The data channels are left out, and of the
actions those that negotiate are there.
-/

namespace GstWebrtc.Check

open GstWebrtc.Base GstWebrtc.Browser

/-! ## The page -/

/-- The call of `web/webrtc.js`. -/
structure TestPage where
  peerConnection : Option PeerConnection
  /-- `local_stream_promise` is settled. -/
  streamSettled : Bool
  /-- What `createOffer` and `createAnswer` ask for when it is. -/
  waiting : List Operation
  /-- The page has not closed its connection to the server. -/
  connected : Bool

/-- `{'STATE': state, 'description': sdp}` -/
def stateMessage (state : NegotiationState) (description : Description) : Json :=
  .object [("STATE".toList, .string state.value),
    ("description".toList, descriptionJson description)]

def sdpMessage (description : Description) : Json :=
  .object [("sdp".toList, descriptionJson description)]

/-- The text of `setError`, with what an exception is printed as. -/
def errorMessage : Json :=
  .object [("STATE".toList, .string NegotiationState.error.value), ("msg".toList, .object [])]

/-- `updateRemoteStateFromSetSDPJson`, and `_update_negotiation_from_description_state`. -/
def stateSet : Description → NegotiationState
  | .offer _ => .offerSet
  | .answer _ => .answerSet

/-- `updateRemoteStateFromGeneratedSDPJson` -/
def stateCreated : Description → NegotiationState
  | .offer _ => .offerCreated
  | .answer _ => .answerCreated

/-- A remote description is set or is going to be. -/
def hearsCandidates (pc : PeerConnection) : Bool :=
  pc.remoteDescription.isSome || pc.operations.any fun op =>
    match op with
    | .setRemoteDescription _ => true
    | _ => false

namespace TestPage

def load : TestPage := ⟨none, false, [], true⟩

/-- `createCall`, unless there is a call. -/
def inCall (page : TestPage) : PeerConnection := page.peerConnection.getD .new

/-- The page with the texts that it sends. -/
abbrev Ran := TestPage × List Json

/-- `setRemoteDescription` is rejected for what is no description. -/
def onIncomingSDP (page : TestPage) (sdp : Json) : Ran :=
  match ofDescriptionJson sdp with
  | some description =>
      ({ page with
        peerConnection := some (page.inCall.chain (.setRemoteDescription description)) }, [])
  | none => ({ page with peerConnection := some page.inCall }, [errorMessage])

/-- `addIceCandidate`, which needs a remote description by the time that it is done. -/
def onIncomingICE (page : TestPage) : Ran :=
  ({ page with peerConnection := some page.inCall },
    if hearsCandidates page.inCall then [] else [errorMessage])

/-- `createOffer` or `createAnswer` -/
def create (page : TestPage) (op : Operation) : Ran :=
  ({ page with peerConnection := some page.inCall, waiting := page.waiting ++ [op] }, [])

def handleIncomingError (page : TestPage) : Ran :=
  ({ page with peerConnection := some page.inCall, connected := false }, [errorMessage])

def has (msg : Json) (name : String) : Bool := (Page.property msg name.toList).isSome

def onServerMessage (page : TestPage) (msg : Json) : Ran :=
  if has msg "SET_TITLE" || has msg "OPTIONS" then (page, [])
  else
    match Page.property msg "sdp".toList with
    | some sdp => page.onIncomingSDP sdp
    | none =>
        if has msg "ice" then page.onIncomingICE
        else if has msg "CREATE_OFFER" then page.create .createOffer
        else if has msg "CREATE_ANSWER" then page.create .createAnswer
        -- what the data channels do to the call is left out
        else if has msg "DATA_CREATE" || has msg "DATA_CLOSE" || has msg "DATA_SEND_MSG" then
          ({ page with peerConnection := some page.inCall }, [])
        else page.handleIncomingError

/-- `getUserMedia` of `createCall` is settled. -/
def settleStream (page : TestPage) (ok : Bool) : Option Ran :=
  match page.peerConnection with
  | none => none
  | some _ =>
      if page.streamSettled then none
      else some ({ page with streamSettled := true }, if ok then [] else [errorMessage])

/-- A callback that waits for the stream runs. -/
def runWaiting (page : TestPage) : Option Ran :=
  match page.peerConnection, page.streamSettled, page.waiting with
  | some pc, true, op :: rest =>
      some ({ page with peerConnection := some (pc.chain op), waiting := rest }, [])
  | _, _, _ => none

/-- What an operation calls back, and what that sends. -/
def settled (pc : PeerConnection) : Operation → Result → PeerConnection × List Json
  -- `onLocalDescription`
  | .createOffer, .created d | .createAnswer, .created d =>
      (pc.chain (.setLocalDescription d), [stateMessage (stateCreated d) d])
  | .createOffer, _ | .createAnswer, _ => (pc, [errorMessage])
  | .setLocalDescription d, .set => (pc, [stateMessage (stateSet d) d, sdpMessage d])
  -- nothing catches it
  | .setLocalDescription _, _ => (pc, [])
  | .setRemoteDescription d, .set => (pc, [stateMessage (stateSet d) d])
  | .setRemoteDescription _, _ => (pc, [errorMessage])

/-- The `RTCPeerConnection` does its first operation. -/
def operate (page : TestPage) (generated : Text) : Option Ran :=
  match page.peerConnection with
  | none => none
  | some pc =>
      (pc.advance generated).map fun (op, result, pc) =>
        let (pc, sent) := settled pc op result
        ({ page with peerConnection := some pc }, sent)

end TestPage

/-! ## The client -/

inductive Which where
  | local
  | remote
  deriving DecidableEq

/-- `negotiation_responder` for the initiator. -/
def Which.other : Which → Which
  | .local => .remote
  | .remote => .local

/-- An action of a scenario. -/
inductive Action where
  | createOffer (which : Which)
  | createAnswer (which : Which)
  | waitForNegotiationState (which : Which) (state : NegotiationState)
  deriving DecidableEq

/-- What is left of a callback of `webrtcbin`. -/
inductive Statement where
  | updateNegotiationState (state : NegotiationState)
  | setLocalDescription (description : Description)
  /-- The signal is fired whose handler in the application sends the description. -/
  | fireCreated (description : Description)

/-- `_on_offer_created`, `_on_answer_created` and `_on_description_set`; without an offer or an
answer the reply raises. -/
def changeFunc : Operation → Result → List Statement
  | .createOffer, .created (.offer sdp) =>
      [.updateNegotiationState .offerCreated, .setLocalDescription (.offer sdp),
        .fireCreated (.offer sdp)]
  | .createOffer, _ => [.updateNegotiationState .offerCreated]
  | .createAnswer, .created (.answer sdp) =>
      [.updateNegotiationState .answerCreated, .setLocalDescription (.answer sdp),
        .fireCreated (.answer sdp)]
  | .createAnswer, _ => [.updateNegotiationState .answerCreated]
  | .setLocalDescription d, _ | .setRemoteDescription d, _ => [.updateNegotiationState (stateSet d)]

/-- `have_json` of the application, with the description that it sets. -/
def haveJson (msg : Json) : Except PyError (Option Description) := do
  if ← msg.contains "sdp".toList then
    let sdp ← msg.getItem "sdp".toList
    let text ← (← sdp.getItem "sdp".toList).encode
    let type ← sdp.getItem "type".toList
    return some (if type.isText "answer".toList then .answer text else .offer text)
  else if ← msg.contains "ice".toList then
    let ice ← msg.getItem "ice".toList
    let _ ← (← ice.getItem "candidate".toList).encode
    match ← ice.getItem "sdpMLineIndex".toList with
    | .number _ => return none
    -- the signal takes an integer
    | _ => .error .typeError
  else return none

/-- A test that is running. -/
structure Test where
  script : List Action
  /-- An action has returned `ERROR`. -/
  failed : Bool
  webrtcbin : PeerConnection
  callback : List Statement
  /-- The negotiation states of the client. -/
  observer : StateObserver NegotiationState
  remoteClient : RemoteWebRTCObserver
  /-- A handler has raised, and nothing that arrives is read any more. -/
  stopped : Bool
  page : TestPage
  toPage : List Json
  toClient : List Json

namespace Test

def createMessage (name : String) : Json := .object [(name.toList, .string [])]

/-- `wait_for_negotiation_states` for the state and for errors. -/
def awaited (state : NegotiationState) (s : NegotiationState) : Bool := s = state || s = .error

/-- `on_action` -/
def onAction (w : Test) : Action → Option Test
  | .createOffer .local => some { w with webrtcbin := w.webrtcbin.chain .createOffer }
  | .createOffer .remote => some { w with toPage := w.toPage ++ [createMessage "CREATE_OFFER"] }
  | .createAnswer .local => some { w with webrtcbin := w.webrtcbin.chain .createAnswer }
  | .createAnswer .remote => some { w with toPage := w.toPage ++ [createMessage "CREATE_ANSWER"] }
  | .waitForNegotiationState .local state =>
      (w.observer.waitFor (awaited state)).map fun (found, after) =>
        { w with observer := after, failed := decide (found = .error) }
  | .waitForNegotiationState .remote state =>
      (w.remoteClient.stateObserver.waitFor (awaited state)).map fun (found, after) =>
        { w with
          remoteClient := { w.remoteClient with stateObserver := after }
          failed := decide (found = .error) }

def runStatement (w : Test) : Statement → Test
  | .updateNegotiationState state => { w with observer := w.observer.update state }
  | .setLocalDescription d => { w with webrtcbin := w.webrtcbin.chain (.setLocalDescription d) }
  | .fireCreated d => { w with toPage := w.toPage ++ [sdpMessage d] }

/-- `on_json` and `have_json` of the application are called, unless the first one raises. -/
def fireHaveJson (w : Test) (msg : Json) : Test :=
  match w.remoteClient.onJson msg with
  | (remoteClient, some _) => { w with remoteClient := remoteClient, stopped := true }
  | (remoteClient, none) =>
      match haveJson msg with
      | .error _ => { w with remoteClient := remoteClient, stopped := true }
      | .ok none => { w with remoteClient := remoteClient }
      | .ok (some d) =>
          { w with
            remoteClient := remoteClient
            webrtcbin := w.webrtcbin.chain (.setRemoteDescription d) }

def ran (w : Test) : TestPage.Ran → Test
  | (page, sent) => { w with page := page, toClient := w.toClient ++ sent }

/-! ## Steps -/

inductive Act where
  /-- The thread of the scenario. -/
  | scenario
  /-- The thread of `webrtcbin` runs a statement, or does an operation. -/
  | pcThread (generated : Text)
  /-- The thread of the asyncio loop. -/
  | asyncio
  | clientCandidate (mline : Nat) (candidate : Text)
  | pageReceives
  | stream (ok : Bool)
  | waiting
  | operation (generated : Text)
  | pageCandidate (candidate : IceCandidate)

namespace Act

/-- A candidate has been gathered. -/
def gathers : Act → Bool
  | clientCandidate _ _ | pageCandidate _ => true
  | _ => false

/-- The browser is started with a camera that needs no permission, and its candidates tell their
line. -/
def Usual : Act → Prop
  | stream ok => ok = true
  | pageCandidate candidate => candidate.sdpMLineIndex.isSome = true
  | _ => True

end Act

def step (w : Test) : Act → Option Test
  | .scenario =>
      match w.failed, w.script with
      | false, action :: rest => { w with script := rest }.onAction action
      | _, _ => none
  | .pcThread generated =>
      match w.callback with
      | statement :: rest => some ({ w with callback := rest }.runStatement statement)
      | [] =>
          (w.webrtcbin.advance generated).map fun (op, result, pc) =>
            { w with webrtcbin := pc, callback := changeFunc op result }
  | .asyncio =>
      match w.stopped, w.toClient with
      | false, msg :: rest => some ({ w with toClient := rest }.fireHaveJson msg)
      | _, _ => none
  | .clientCandidate mline candidate =>
      if w.webrtcbin.localDescription.isSome then
        some { w with toPage := w.toPage ++ [.object [("ice".toList, .object
          [("sdpMLineIndex".toList, .string (toString mline).toList),
            ("candidate".toList, .string candidate)])]] }
      else none
  | .pageReceives =>
      match w.page.connected, w.toPage with
      | true, msg :: rest => some ({ w with toPage := rest }.ran (w.page.onServerMessage msg))
      | _, _ => none
  | .stream ok => (w.page.settleStream ok).map w.ran
  | .waiting => w.page.runWaiting.map w.ran
  | .operation generated => (w.page.operate generated).map w.ran
  | .pageCandidate candidate =>
      match w.page.peerConnection with
      | none => none
      | some pc =>
          if pc.localDescription.isSome then
            some { w with
              toClient := w.toClient ++ [.object [("ice".toList, candidate.json)]] }
          else none

end Test

/-- `wait-for-negotiation-state` -/
def wait (awaited : Which × NegotiationState) : Action :=
  .waitForNegotiationState awaited.1 awaited.2

/-- `offer_answer.scenario`, with some of its waits. -/
def offerAnswer (initiator : Which) (before after : List (Which × NegotiationState)) :
    List Action :=
  .createOffer initiator :: (before.map wait ++
    .createAnswer initiator.other :: after.map wait)

/-- The waits between the two actions. -/
def waitsBefore (initiator : Which) : List (Which × NegotiationState) :=
  [(initiator, .offerCreated), (initiator, .offerSet), (initiator.other, .offerSet)]

/-- The waits at the end. -/
def waitsAfter (initiator : Which) : List (Which × NegotiationState) :=
  [(initiator.other, .answerCreated), (initiator.other, .answerSet), (initiator, .answerSet)]

/-- The page is told a title and the options before the first one of the actions. -/
def test (script : List Action) (title : Text) (options : List (Text × Json)) :
    Machine Test Test.Act where
  init :=
    { script := script
      failed := false
      webrtcbin := .new
      callback := []
      observer := ⟨some .new, []⟩
      remoteClient := .new
      stopped := false
      page := .load
      toPage := [.object [("SET_TITLE".toList, .string title)],
        .object [("OPTIONS".toList, .object options)]]
      toClient := [] }
  step := Test.step

end GstWebrtc.Check
