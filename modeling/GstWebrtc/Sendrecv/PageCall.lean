import GstWebrtc.Base.PeerConnection
import GstWebrtc.Browser.Description
import GstWebrtc.Sendrecv.Client

/-!
# A call between the program and the page

`webrtc-sendrecv.c` and its `webrtcbin`, the page of `sendrecv/js` with its
`RTCPeerConnection`, and what the server relays between the two, from the moment
the server has sent `SESSION_OK`.  The page is the one that is registered under
the uid that the program calls.
-/

namespace GstWebrtc.Sendrecv

open GstWebrtc.Base GstWebrtc.Browser

/-- A text of the session; a JSON text stands for the value that it is printed from. -/
inductive Frame where
  | plain (text : Text)
  | json (msg : Json)

namespace Frame

/-- Of a JSON text only the beginning is looked at before it is parsed. -/
def data : Frame → Text
  | plain text => text
  | json _ => "\x7b".toList

def parse : Frame → Text → Option Json
  | plain _, _ => none
  | json msg, _ => some msg

end Frame

def toDescription : SdpType → Text → Description
  | .offer, sdp => .offer sdp
  | .answer, sdp => .answer sdp

/-- What has ended the program. -/
inductive Halt where
  | fault (fault : Fault)
  | quit (message : Option Text)

structure Call where
  /-- `app_state` -/
  state : AppState
  webrtc1 : PeerConnection
  /-- The pipeline is playing and `on-negotiation-needed` has not been emitted. -/
  unnegotiated : Bool
  halted : Option Halt
  page : Page
  /-- `peer_connection` of the page, which makes one call only. -/
  peerConnection : PeerConnection
  toProgram : List Frame
  toPage : List Frame

namespace Call

/-! ## The program -/

def request (w : Call) : Request → Call
  | .sendText text => { w with toPage := w.toPage ++ [.plain text] }
  | .sendMessage msg => { w with toPage := w.toPage ++ [.json msg] }
  | .startPipeline => { w with unnegotiated := true }
  | .createOffer => { w with webrtc1 := w.webrtc1.chain .createOffer }
  | .createAnswer => { w with webrtc1 := w.webrtc1.chain .createAnswer }
  | .setLocalDescription type sdp =>
      { w with webrtc1 := w.webrtc1.chain (.setLocalDescription (toDescription type sdp)) }
  | .setRemoteDescription type sdp =>
      { w with webrtc1 := w.webrtc1.chain (.setRemoteDescription (toDescription type sdp)) }
  -- candidates change neither the descriptions nor the signaling state
  | .addIceCandidate _ _ => w

/-- A callback of the program runs. -/
def callback (prog : Program) (frame : Frame) (w : Call) (event : Event) : Option Call :=
  match w.halted with
  | some _ => none
  | none =>
      match perform prog frame.parse w.state event with
      | .error fault => some { w with halted := some (.fault fault) }
      | .ok (state, .acted requests) => some (requests.foldl request { w with state := state })
      | .ok (state, .ignored _) => some { w with state := state }
      | .ok (state, .ended message) =>
          some { w with state := state, halted := some (.quit message) }

/-- The callback that an operation of `webrtcbin` was given; the other promises are
interrupted when they are made. -/
def changeFunc : Operation → Result → Option Event
  | .createOffer, .created (.offer sdp) => some (.offerCreated (some sdp))
  | .createOffer, _ => some (.offerCreated none)
  | .createAnswer, .created (.answer sdp) => some (.answerCreated (some sdp))
  | .createAnswer, _ => some (.answerCreated none)
  | .setRemoteDescription (.offer _), _ => some .offerSet
  | _, _ => none

/-! ## The page -/

/-- The callback waits for an operation of the `RTCPeerConnection`. -/
def chained : Task → Bool
  | .remoteSet _ _ | .created _ | .localSet _ => true
  | _ => false

/-- The operation that the page has asked for. -/
def asks (result : Result) : Effect → Option Operation
  | .createOffer _ _ => some .createOffer
  | .createAnswer _ _ => some .createAnswer
  | .setLocalDescription _ _ =>
      match result with
      | .created description => some (.setLocalDescription description)
      | _ => none
  | _ => none

/-- What the page sends, which is its `localDescription`. -/
def sends (pc : PeerConnection) : Effect → Option Frame
  | .sendSdp _ _ _ =>
      pc.localDescription.map fun description =>
        .json (.object [("sdp".toList, descriptionJson description)])
  | _ => none

/-- A callback of the page has run, after an operation with the given result. -/
def pageRan (w : Call) (page : Page) (result : Result) (pc : PeerConnection) : Call :=
  let effects := page.log.drop w.page.log.length
  { w with
    page := page
    peerConnection := { pc with operations := pc.operations ++ effects.filterMap (asks result) }
    toProgram := w.toProgram ++ effects.filterMap (sends pc) }

/-- The description that `onIncomingSDP` is given. -/
def incoming : Frame → Option Json
  | .plain _ => none
  | .json msg => Page.property msg "sdp".toList

/-- A text arrives at the page. -/
def pageReceives (w : Call) (frame : Frame) : Option Call :=
  match w.page.step ⟨none, frame.parse⟩ (.message 0 frame.data) with
  | none => none
  | some page =>
      match incoming frame with
      | none => some { w with page := page }
      | some sdp =>
          (ofDescriptionJson sdp).map fun description =>
            { w with
              page := page
              peerConnection := w.peerConnection.chain (.setRemoteDescription description) }

/-! ## Steps -/

inductive Act where
  | programReceives
  | negotiationNeeded
  /-- `webrtcbin` does its first operation. -/
  | webrtcbin (generated : Text)
  | programCandidate (mlineindex : Nat) (candidate : Text)
  | pageReceives
  /-- `getUserMedia`, or what waits for it. -/
  | promise (index : Nat) (ok : Bool)
  /-- The `RTCPeerConnection` does its first operation. -/
  | operation (generated : Text)
  | pageCandidate (candidate : IceCandidate)

/-- A candidate has been gathered. -/
def Act.gathers : Act → Bool
  | programCandidate _ _ | pageCandidate _ => true
  | _ => false

def noFrame : Frame := .plain []

def step (prog : Program) (w : Call) : Act → Option Call
  | .programReceives =>
      match w.toProgram with
      | [] => none
      | frame :: rest =>
          { w with toProgram := rest }.callback prog frame (.textMessage ⟨true, true⟩ frame.data)
  | .negotiationNeeded =>
      if w.unnegotiated then
        { w with unnegotiated := false }.callback prog noFrame .negotiationNeeded
      else none
  | .webrtcbin generated =>
      match w.webrtc1.advance generated with
      | none => none
      | some (op, result, pc) =>
          match changeFunc op result with
          | none => some { w with webrtc1 := pc }
          | some event => { w with webrtc1 := pc }.callback prog noFrame event
  | .programCandidate mlineindex candidate =>
      if w.webrtc1.localDescription.isSome then
        w.callback prog noFrame (.iceCandidate mlineindex candidate)
      else none
  | .pageReceives =>
      match w.toPage with
      | [] => none
      | frame :: rest => { w with toPage := rest }.pageReceives frame
  | .promise index ok =>
      match w.page.tasks[index]? with
      | none => none
      | some task =>
          if chained task then none
          else
            (w.page.step ⟨none, noFrame.parse⟩ (.settles index ok)).map fun page =>
              w.pageRan page .set w.peerConnection
  | .operation generated =>
      match w.peerConnection.advance generated, w.page.tasks.findIdx? chained with
      | some (_, result, pc), some index =>
          (w.page.step ⟨none, noFrame.parse⟩ (.settles index (result ≠ .failed))).map fun page =>
            w.pageRan page result pc
      | _, _ => none
  | .pageCandidate candidate =>
      if w.page.peerConnection.isSome ∧ w.peerConnection.localDescription.isSome then
        some { w with
          toProgram := w.toProgram ++ [.json (.object [("ice".toList, candidate.json)])] }
      else none

end Call

/-- The page, registered with the server under its peer id. -/
def registered (peerId : Text) : Page :=
  { Page.start with
    sockets := [⟨.opened, ["HELLO ".toList ++ peerId]⟩]
    wsConn := some 0
    peerId := peerId
    connectAttempts := 1 }

def call (prog : Program) (peerId : Text) : Machine Call Call.Act where
  init :=
    { state := .peerConnecting
      webrtc1 := .new
      unnegotiated := false
      halted := none
      page := registered peerId
      peerConnection := .new
      toProgram := [.plain "SESSION_OK".toList]
      toPage := [] }
  step := Call.step prog

end GstWebrtc.Sendrecv
