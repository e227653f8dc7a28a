import GstWebrtc.Base.PeerConnection
import GstWebrtc.Browser.Description
import GstWebrtc.Sendonly.StreamServer

/-!
# The viewers of a stream server

The server with the `webrtcbin` of every pipeline, and the pages that
`soup_http_handler` hands out, each with its `RTCPeerConnection` and the texts
between the two.  The page of `webrtc-recvonly-h264.c` asks for the viewer's
camera before it answers.
-/

namespace GstWebrtc.Sendonly

open GstWebrtc.Base GstWebrtc.Browser

/-! ## The page -/

/-- The script of `html_source`, whose promises are those of its `RTCPeerConnection`. -/
structure ViewerPage where
  webrtcPeerConnection : Option PeerConnection
  /-- The promises of `getLocalStream` that are pending. -/
  localStreams : Nat

def sdpMessage (data : Json) : Json :=
  .object [("type".toList, .string "sdp".toList), ("data".toList, data)]

def iceMessage (data : Json) : Json :=
  .object [("type".toList, .string "ice".toList), ("data".toList, data)]

namespace ViewerPage

def load : ViewerPage := ⟨none, 0⟩

/-- `setRemoteDescription`, whose promise is rejected for what is no description. -/
def setRemoteDescription (pc : PeerConnection) (sdp : Option Json) : PeerConnection :=
  match sdp.bind ofDescriptionJson with
  | some description => pc.chain (.setRemoteDescription description)
  | none => pc

def onIncomingSDP (camera : Bool) (page : ViewerPage) (pc : PeerConnection) (sdp : Option Json) :
    ViewerPage :=
  let pc := setRemoteDescription pc sdp
  if camera then ⟨some pc, page.localStreams + 1⟩
  else { page with webrtcPeerConnection := some (pc.chain .createAnswer) }

/-- `msg.type` is `"sdp"`. -/
def isSdp (msg : Json) : Bool :=
  match Page.property msg "type".toList with
  | some (.string type) => type = "sdp".toList
  | _ => false

def onServerMessage (camera : Bool) (page : ViewerPage) (msg : Json) : ViewerPage :=
  let pc := page.webrtcPeerConnection.getD .new
  if isSdp msg then
    page.onIncomingSDP camera pc (Page.property msg "data".toList)
  -- candidates change neither the descriptions nor the signaling state
  else { page with webrtcPeerConnection := some pc }

/-- A promise of `getLocalStream` is settled, and nothing catches it when it is rejected. -/
def streamSettled (page : ViewerPage) (ok : Bool) : Option ViewerPage :=
  match page.webrtcPeerConnection, page.localStreams with
  | some pc, pending + 1 => some ⟨some (if ok then pc.chain .createAnswer else pc), pending⟩
  | _, _ => none

/-- What the promise of an operation calls back, and what that sends. -/
def settled (pc : PeerConnection) : Operation → Result → PeerConnection × List Json
  -- `onLocalDescription`
  | .createAnswer, .created description => (pc.chain (.setLocalDescription description), [])
  | .setLocalDescription _, .set =>
      (pc, [sdpMessage ((pc.localDescription.map descriptionJson).getD .null)])
  -- `reportError`, and `setRemoteDescription`, which nothing waits for
  | _, _ => (pc, [])

end ViewerPage

/-! ## The server -/

/-- A `webrtcbin`, with what the `receiver_entry` that its callbacks are given points to. -/
structure Element where
  connection : ConnId
  webrtcbin : PeerConnection
  /-- `on-negotiation-needed` has not been emitted. -/
  unnegotiated : Bool

/-- A signal is emitted; candidates change neither the descriptions nor the signaling state. -/
def Element.emit (el : Element) : Signal → Element
  | .setRemoteDescription sdp =>
      { el with webrtcbin := el.webrtcbin.chain (.setRemoteDescription (.answer sdp)) }
  | .addIceCandidate _ _ => el

/-- A viewer's end of a WebSocket, with the texts on their way in both directions. -/
structure Viewer where
  page : ViewerPage
  gone : Bool
  toServer : List Json
  toViewer : List Json

/-- What has ended the server. -/
inductive Halt where
  | fault (fault : Fault)
  /-- The reply of `create-offer` has no offer. -/
  | nullOffer

structure Broadcast where
  server : StreamServer
  elements : Nat → Option Element
  viewers : ConnId → Option Viewer
  halted : Option Halt

/-- A JSON text, which stands for the value that it is printed from. -/
def jsonFrame : Frame := .text []

namespace Broadcast

def start : Broadcast := ⟨⟨fun _ => none, []⟩, fun _ => none, fun _ => none, none⟩

def setViewer (w : Broadcast) (k : ConnId) (v : Viewer) : Broadcast :=
  { w with viewers := Function.update w.viewers k (some v) }

/-- A callback of the element has run, with the texts that it sends. -/
def setElement (w : Broadcast) (n : Nat) (el : Element) (sent : List Json) : Broadcast :=
  { w with
    elements := Function.update w.elements n (some el)
    viewers := Function.update w.viewers el.connection
      ((w.viewers el.connection).map fun v => { v with toViewer := v.toViewer ++ sent }) }

/-- Signals are emitted on elements. -/
def emit (elements : Nat → Option Element) (e : Nat × Signal) : Nat → Option Element :=
  Function.update elements e.1 ((elements e.1).map fun el => el.emit e.2)

/-- `soup_websocket_message_cb` -/
def message (parsable : Text → Bool) (w : Broadcast) (k : ConnId) (msg : Json) : Broadcast :=
  match w.server.step (fun _ => some msg) parsable (.message k jsonFrame) with
  | .error fault => { w with halted := some (.fault fault) }
  | .ok server =>
      { w with
        server := server
        elements := (server.emitted.drop w.server.emitted.length).foldl emit w.elements }

/-- `soup_websocket_closed_cb`, with the `destroy_receiver_entry` of the table. -/
def closed (w : Broadcast) (k : ConnId) (entry : ReceiverEntry) : Broadcast :=
  { w with
    server := w.server.soupWebsocketClosedCb k
    elements := Function.update w.elements entry.webrtcbin none }

/-- `on_offer_created_cb`; the other promises are interrupted when they are made. -/
def changeFunc (el : Element) : Operation → Result → Option (Element × List Json)
  | .createOffer, .created (.offer sdp) =>
      some ({ el with webrtcbin := el.webrtcbin.chain (.setLocalDescription (.offer sdp)) },
        [sdpMessage (descriptionJson (.offer sdp))])
  | .createOffer, _ => none
  | _, _ => some (el, [])

/-! ## Steps -/

inductive Act where
  /-- A page is loaded and connects, and a pipeline is made for it. -/
  | connects (k : ConnId) (n : Nat)
  | serverReceives (k : ConnId)
  | negotiationNeeded (n : Nat)
  /-- A `webrtcbin` does its first operation. -/
  | webrtcbin (n : Nat) (generated : Text)
  | serverCandidate (n : Nat) (mlineIndex : Nat) (candidate : Text)
  | viewerReceives (k : ConnId)
  | localStream (k : ConnId) (ok : Bool)
  /-- The `RTCPeerConnection` of a page does its first operation. -/
  | operation (k : ConnId) (generated : Text)
  | viewerCandidate (k : ConnId) (candidate : IceCandidate)
  /-- A page is closed. -/
  | leaves (k : ConnId)
  | closed (k : ConnId)

namespace Act

/-- A candidate has been gathered. -/
def gathers : Act → Bool
  | serverCandidate _ _ _ | viewerCandidate _ _ => true
  | _ => false

def arrives : Act → Bool
  | connects _ _ => true
  | _ => false

/-- Nothing that has happened asks for it. -/
def unasked : Act → Bool
  | leaves _ => true
  | act => act.gathers || act.arrives

/-- The answers of browsers can be parsed. -/
def Generates (parsable : Text → Bool) : Act → Prop
  | operation _ generated => parsable generated = true
  | _ => True

end Act

/-- The server does something, unless it has ended. -/
def serves (w : Broadcast) (next : Option Broadcast) : Option Broadcast :=
  match w.halted with
  | some _ => none
  | none => next

/-- The page of a viewer does something, unless it is gone. -/
def views (w : Broadcast) (k : ConnId) (f : Viewer → Option Viewer) : Option Broadcast :=
  match w.viewers k with
  | none => none
  | some v => if v.gone then none else (f v).map (w.setViewer k)

def step (camera : Bool) (parsable : Text → Bool) (w : Broadcast) : Act → Option Broadcast
  | .connects k n =>
      match w.viewers k, w.elements n with
      | none, none => w.serves (some { w with
          server := w.server.soupWebsocketHandler k n
          elements := Function.update w.elements n (some ⟨k, .new, true⟩)
          viewers := Function.update w.viewers k (some ⟨.load, false, [], []⟩) })
      | _, _ => none
  | .serverReceives k =>
      match w.viewers k with
      | none => none
      | some v =>
          match v.toServer with
          | [] => none
          | msg :: rest =>
              w.serves (some ((w.setViewer k { v with toServer := rest }).message parsable k msg))
  | .negotiationNeeded n =>
      match w.elements n with
      | none => none
      | some el =>
          if el.unnegotiated then
            w.serves (some (w.setElement n
              { el with webrtcbin := el.webrtcbin.chain .createOffer, unnegotiated := false } []))
          else none
  | .webrtcbin n generated =>
      match w.elements n with
      | none => none
      | some el =>
          match el.webrtcbin.advance generated with
          | none => none
          | some (op, result, pc) =>
              match changeFunc { el with webrtcbin := pc } op result with
              | none => w.serves (some { w with halted := some .nullOffer })
              | some (after, sent) => w.serves (some (w.setElement n after sent))
  | .serverCandidate n mlineIndex candidate =>
      match w.elements n with
      | none => none
      | some el =>
          if el.webrtcbin.localDescription.isSome then
            w.serves (some (w.setElement n el [iceMessage (.object
              [("sdpMLineIndex".toList, .number mlineIndex),
                ("candidate".toList, .string candidate)])]))
          else none
  | .viewerReceives k => w.views k fun v =>
      match v.toViewer with
      | [] => none
      | msg :: rest => some { v with page := v.page.onServerMessage camera msg, toViewer := rest }
  | .localStream k ok => w.views k fun v =>
      (v.page.streamSettled ok).map fun page => { v with page := page }
  | .operation k generated => w.views k fun v =>
      match v.page.webrtcPeerConnection with
      | none => none
      | some pc =>
          match pc.advance generated with
          | none => none
          | some (op, result, pc) =>
              let (pc, sent) := ViewerPage.settled pc op result
              some { v with
                page := { v.page with webrtcPeerConnection := some pc }
                toServer := v.toServer ++ sent }
  | .viewerCandidate k candidate => w.views k fun v =>
      match v.page.webrtcPeerConnection with
      | none => none
      | some pc =>
          if pc.localDescription.isSome then
            some { v with toServer := v.toServer ++ [iceMessage candidate.json] }
          else none
  | .leaves k => w.views k fun v => some { v with gone := true }
  | .closed k =>
      match w.viewers k, w.server.receivers k with
      | some v, some entry =>
          if v.gone then
            w.serves (some ((w.closed k entry).setViewer k { v with toServer := [] }))
          else none
      | _, _ => none

end Broadcast

/-- A server without viewers. -/
def broadcast (camera : Bool) (parsable : Text → Bool) : Machine Broadcast Broadcast.Act :=
  ⟨.start, Broadcast.step camera parsable⟩

end GstWebrtc.Sendonly
