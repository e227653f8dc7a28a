import GstWebrtc.Base.JsonGlib
import GstWebrtc.Base.Machine

/-!
# The browser page

`sendrecv/js/webrtc.js` with what the browser does for it: its WebSockets, the
timers of `websocketServerConnect` and the promises that are pending.  A
function that a promise calls back reads the global variables when it runs.
What is shown on the page and the ICE candidates are left out, and the browser
has `getUserMedia`.
-/

namespace GstWebrtc.Browser

open GstWebrtc.Base

/-- The constants of the script, and `JSON.parse`, with nothing for a `SyntaxError`. -/
structure Setup where
  defaultPeerId : Option Text
  parse : Text → Option Json

inductive ReadyState where
  | connecting
  | opened
  | closing
  | closed
  deriving DecidableEq

structure WebSocket where
  readyState : ReadyState
  /-- The texts `HELLO` that were sent on it. -/
  hellos : List Text
  deriving DecidableEq

/-- What a pending promise calls back; a call is numbered by `createCall`, and so is its
`RTCPeerConnection`. -/
inductive Task where
  /-- `getUserMedia` of a call. -/
  | userMedia (call : Nat)
  /-- `createCall(null).then(generateOffer)`. -/
  | generateOffer (call : Nat)
  /-- `setRemoteDescription` of a call, with an offer or not. -/
  | remoteSet (call : Nat) (offer : Bool)
  /-- The answer to an offer for the call, when the local stream of call `stream` is there. -/
  | answer (call stream : Nat)
  /-- `createOffer` or `createAnswer` for the call. -/
  | created (call : Nat)
  /-- `setLocalDescription` for the call. -/
  | localSet (call : Nat)
  /-- The tracks of the local stream of a call are to be stopped. -/
  | release (call : Nat)
  deriving DecidableEq

namespace Task

/-- The call that a callback belongs to. -/
def call : Task → Nat
  | userMedia call | generateOffer call | remoteSet call _ | answer call _ | created call
  | localSet call | release call => call

/-- The call whose local stream a callback waits for. -/
def waitsFor : Task → Option Nat
  | generateOffer call => some call
  | answer _ stream => some stream
  | release call => some call
  | _ => none

end Task

/-- What is done for a call, with the `RTCPeerConnection` and the WebSocket that it is done to. -/
inductive Effect where
  | addStream (call pc : Nat)
  | createOffer (call pc : Nat)
  | createAnswer (call pc : Nat)
  | setLocalDescription (call pc : Nat)
  | sendSdp (call pc socket : Nat)
  | stopTracks (call : Nat)
  deriving DecidableEq

structure Page where
  /-- Every WebSocket that was made. -/
  sockets : List WebSocket
  wsConn : Option Nat
  peerId : Text
  /-- The delays of the pending calls of `websocketServerConnect`. -/
  timers : List Nat
  connectAttempts : Nat
  /-- For every call the WebSocket whose message it was created for. -/
  calls : List Nat
  peerConnection : Option Nat
  localStreamPromise : Option Nat
  /-- The local streams that are there, or `undefined` after an error. -/
  streams : List (Nat × Bool)
  tasks : List Task
  log : List Effect

namespace Page

/-- The page when the script has been loaded. -/
def start : Page where
  sockets := []
  wsConn := none
  peerId := []
  timers := []
  connectAttempts := 0
  calls := []
  peerConnection := none
  localStreamPromise := none
  streams := []
  tasks := []
  log := []

def readyState (page : Page) (socket : Nat) : Option ReadyState :=
  page.sockets[socket]?.map fun ws => ws.readyState

def setReadyState (page : Page) (socket : Nat) (state : ReadyState) : Page :=
  { page with sockets := page.sockets.modify socket fun ws => { ws with readyState := state } }

/-- `close()` of a WebSocket. -/
def close (page : Page) (socket : Nat) : Page :=
  match page.readyState socket with
  | some .connecting => page.setReadyState socket .closing
  | some .opened => page.setReadyState socket .closing
  | _ => page

def resetState (page : Page) : Page :=
  match page.wsConn with
  | none => page
  | some socket => page.close socket

def handleIncomingError (page : Page) : Page := page.resetState

/-- The tracks are stopped when the local stream is there. -/
def resetVideo (page : Page) : Page :=
  match page.localStreamPromise with
  | none => page
  | some call => { page with tasks := page.tasks ++ [.release call] }

/-- The member of an object, when there is one and it is not `null`. -/
def property (msg : Json) (name : Text) : Option Json :=
  match msg with
  | .object members =>
      match members.lookup name with
      | some .null => none
      | found => found
  | _ => none

/-- `sdp.type != "offer"` is false. -/
def isOffer (sdp : Json) : Bool :=
  match property sdp "type".toList with
  | some (.string type) => type = "offer".toList
  | _ => false

def onIncomingSDP (page : Page) (sdp : Json) : Page :=
  match page.peerConnection with
  | none => page
  | some call => { page with tasks := page.tasks ++ [.remoteSet call (isOffer sdp)] }

/-- `onLocalDescription`, for a description that was created for the call. -/
def onLocalDescription (page : Page) (call : Nat) : Page :=
  match page.peerConnection with
  | none => page
  | some pc =>
      { page with
        tasks := page.tasks ++ [.localSet call]
        log := page.log ++ [.setLocalDescription call pc] }

def generateOffer (page : Page) (call : Nat) : Page :=
  match page.peerConnection with
  | none => page
  | some pc =>
      { page with
        tasks := page.tasks ++ [.created call]
        log := page.log ++ [.createOffer call pc] }

/-- `createCall`, for a message on the given WebSocket. -/
def createCall (page : Page) (socket : Nat) : Page :=
  { page with
    connectAttempts := 0
    calls := page.calls ++ [socket]
    peerConnection := some page.calls.length
    localStreamPromise := some page.calls.length
    tasks := page.tasks ++ [.userMedia page.calls.length] }

def onServerMessage (setup : Setup) (page : Page) (socket : Nat) (data : Text) : Page :=
  if data = "HELLO".toList then page
  else if "ERROR".toList.isPrefixOf data then page.handleIncomingError
  else if "OFFER_REQUEST".toList.isPrefixOf data then
    match page.peerConnection with
    | some _ => page
    | none =>
        let created := page.createCall socket
        { created with tasks := created.tasks ++ [.generateOffer page.calls.length] }
  else
    match setup.parse data with
    | none => page.handleIncomingError
    | some msg =>
        let inCall := if page.peerConnection = none then page.createCall socket else page
        match msg with
        -- a `TypeError`
        | .null => inCall
        | msg =>
            match property msg "sdp".toList with
            | some sdp => inCall.onIncomingSDP sdp
            | none =>
                match property msg "ice".toList with
                | some _ => inCall
                | none => inCall.handleIncomingError

def onServerClose (page : Page) : Page :=
  let reset := page.resetVideo
  { reset with
    peerConnection := none
    timers := reset.timers ++ [1000] }

def onServerError (page : Page) : Page := { page with timers := page.timers ++ [3000] }

/-- `websocketServerConnect`, when `getOurId` answers with the given number. -/
def websocketServerConnect (setup : Setup) (page : Page) (ourId : Nat) : Page :=
  if 3 < page.connectAttempts + 1 then
    { page with connectAttempts := page.connectAttempts + 1 }
  else
    { page with
      connectAttempts := page.connectAttempts + 1
      peerId :=
        match setup.defaultPeerId with
        | some (c :: id) => c :: id
        | _ => Nat.toDigits 10 ourId
      wsConn := some page.sockets.length
      sockets := page.sockets ++ [⟨.connecting, []⟩] }

/-- The listener for `open`. -/
def onOpen (page : Page) : Page :=
  match page.wsConn with
  | none => page
  | some socket =>
      -- `send` fails on a WebSocket that is connecting, and does nothing on one that is closed
      if page.readyState socket = some .opened then
        { page with
          sockets := page.sockets.modify socket fun ws =>
            { ws with hellos := ws.hellos ++ ["HELLO ".toList ++ page.peerId] } }
      else page

/-! ## Promises -/

/-- `getUserMedia` has succeeded or not; an error of `addStream` is caught. -/
def onUserMedia (page : Page) (call : Nat) (ok : Bool) : Page :=
  match ok, page.peerConnection with
  | true, some pc =>
      { page with
        streams := page.streams ++ [(call, true)]
        log := page.log ++ [.addStream call pc] }
  | _, _ => { page with streams := page.streams ++ [(call, false)] }

/-- The remote description is set. -/
def onRemoteSet (page : Page) (call : Nat) (offer : Bool) : Page :=
  if offer then
    match page.localStreamPromise with
    | none => page
    | some stream => { page with tasks := page.tasks ++ [.answer call stream] }
  else page

/-- The local stream is there for an answer. -/
def onAnswer (page : Page) (call : Nat) : Page :=
  match page.peerConnection with
  | none => page
  | some pc =>
      { page with
        tasks := page.tasks ++ [.created call]
        log := page.log ++ [.createAnswer call pc] }

/-- The local description is set. -/
def onLocalSet (page : Page) (call : Nat) : Page :=
  match page.peerConnection, page.wsConn with
  | some pc, some socket =>
      if page.readyState socket = some .opened then
        { page with log := page.log ++ [.sendSdp call pc socket] }
      else page
  | _, _ => page

def onRelease (page : Page) (call : Nat) : Page :=
  if page.streams.any fun stream => stream = (call, true) then
    { page with log := page.log ++ [.stopTracks call] }
  else page

/-- A callback runs, after its promise has been fulfilled or rejected. -/
def run (page : Page) (ok : Bool) : Task → Page
  | .userMedia call => page.onUserMedia call ok
  | .generateOffer call => page.generateOffer call
  | .remoteSet call offer => if ok then page.onRemoteSet call offer else page
  | .answer call _ => page.onAnswer call
  | .created call => if ok then page.onLocalDescription call else page
  | .localSet call => if ok then page.onLocalSet call else page
  | .release call => page.onRelease call

/-- The local stream that the callback waits for is there. -/
def ready (page : Page) (task : Task) : Bool :=
  match task.waitsFor with
  | none => true
  | some call => page.streams.any fun stream => stream.1 = call

/-! ## Events -/

inductive Event where
  | load (ourId : Nat)
  /-- A timer fires. -/
  | timer (index ourId : Nat)
  | opens (socket : Nat)
  | message (socket : Nat) (data : Text)
  /-- A WebSocket fails, which fires `error` and then `close`. -/
  | fails (socket : Nat)
  /-- A WebSocket ends normally, which fires `close`. -/
  | ends (socket : Nat)
  /-- A pending promise is fulfilled or rejected. -/
  | settles (task : Nat) (ok : Bool)

def step (setup : Setup) (page : Page) : Event → Option Page
  | .load ourId =>
      if page.sockets = [] then some (page.websocketServerConnect setup ourId) else none
  | .timer index ourId =>
      match page.timers[index]? with
      | none => none
      | some _ =>
          some ({ page with timers := page.timers.eraseIdx index }.websocketServerConnect setup ourId)
  | .opens socket =>
      if page.readyState socket = some .connecting then
        some (page.setReadyState socket .opened).onOpen
      else none
  | .message socket data =>
      if page.readyState socket = some .opened then some (page.onServerMessage setup socket data)
      else none
  | .fails socket =>
      match page.readyState socket with
      | none => none
      | some .closed => none
      | some _ => some (page.setReadyState socket .closed).onServerError.onServerClose
  | .ends socket =>
      match page.readyState socket with
      | some .opened => some (page.setReadyState socket .closed).onServerClose
      | some .closing => some (page.setReadyState socket .closed).onServerClose
      | _ => none
  | .settles index ok =>
      match page.tasks[index]? with
      | none => none
      | some task =>
          if page.ready task then
            some ({ page with tasks := page.tasks.eraseIdx index }.run ok task)
          else none

end Page

/-- The page from its loading on. -/
def browser (setup : Setup) : Machine Page Page.Event := ⟨Page.start, Page.step setup⟩

end GstWebrtc.Browser
