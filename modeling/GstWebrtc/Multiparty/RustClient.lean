import GstWebrtc.Base.RustText
import Mathlib.Data.List.AList

/-!
# The Rust client

The signalling part of `gst-rust/src/main.rs`: what it decodes, its map of peers,
and the messages that it sends for a peer.  serde, the SDP parser and the two
fallible steps of building a peer's bin are a record of their answers; the other
calls into GStreamer only unwrap or assert, and succeed.
-/

namespace GstWebrtc.Multiparty.RustClient

open GstWebrtc.Base GstWebrtc.Base.RustText
open GstWebrtc.Base.PyText (Word startsWith startsWith_iff joinSpace)

inductive JsonMsg where
  | ice (candidate : Text) (sdpMLineIndex : UInt32)
  | sdp (type : Text) (sdp : Text)
  deriving DecidableEq

/-- What ends a function: an `anyhow::Error` with its text, or a panic. -/
inductive Failure where
  | bail (message : Text)
  | panic
  deriving DecidableEq

/-- What the libraries answer. -/
structure Libraries where
  /-- `serde_json::from_str`. -/
  fromStr : Text → Except Text JsonMsg
  /-- `serde_json::to_string`. -/
  toStr : JsonMsg → Text
  /-- `SDPMessage::parse_buffer` accepts the text. -/
  parseBuffer : Text → Bool
  /-- The error of `parse_bin_from_description`. -/
  binError : Option Text
  /-- The error of linking the tees to the bin. -/
  linkError : Option Text
  /-- `{:?}` of a text. -/
  debug : Text → Text

/-- GStreamer builds and links the bin of every peer. -/
def Libraries.Builds (lib : Libraries) : Prop := lib.binError = none ∧ lib.linkError = none

structure Peer where
  peerId : UInt32
  /-- `on-negotiation-needed` is connected. -/
  offer : Bool
  deriving DecidableEq

structure App where
  peers : AList fun _ : UInt32 => Peer

/-- What is passed to the `webrtcbin` of a peer. -/
inductive Emission where
  | remoteAnswer (sdp : Text)
  /-- `set-remote-description` and then `create-answer`. -/
  | remoteOffer (sdp : Text)
  | addIceCandidate (sdpMLineIndex : UInt32) (candidate : Text)
  deriving DecidableEq

/-! ## One peer -/

namespace Peer

variable (lib : Libraries) (peer : Peer)

/-- The text that each of the three senders formats. -/
def roomPeerMsg (message : Text) : Text :=
  "ROOM_PEER_MSG ".toList ++ displayU32 peer.peerId ++ ' ' :: message

def onOfferCreated (sdp : Text) : Text :=
  peer.roomPeerMsg (lib.toStr (.sdp "offer".toList sdp))

def onAnswerCreated (sdp : Text) : Text :=
  peer.roomPeerMsg (lib.toStr (.sdp "answer".toList sdp))

def onIceCandidate (mlineindex : UInt32) (candidate : Text) : Text :=
  peer.roomPeerMsg (lib.toStr (.ice candidate mlineindex))

def handleSdp (type sdp : Text) : Except Failure (Peer × Emission) :=
  if type = "answer".toList then
    if lib.parseBuffer sdp then .ok (peer, .remoteAnswer sdp)
    else .error (.bail "Failed to parse SDP answer".toList)
  else if type = "offer".toList then
    if lib.parseBuffer sdp then .ok (peer, .remoteOffer sdp)
    else .error (.bail "Failed to parse SDP offer".toList)
  else .error (.bail ("Sdp type is not \"answer\" but \"".toList ++ type ++ "\"".toList))

def handleIce (sdpMLineIndex : UInt32) (candidate : Text) : Except Failure (Peer × Emission) :=
  .ok (peer, .addIceCandidate sdpMLineIndex candidate)

/-- What a peer does with the text of a message. -/
def handleMessage (msg : Text) : Except Failure (Peer × Emission) :=
  match lib.fromStr msg with
  | .error message => .error (.bail message)
  | .ok (.sdp type sdp) => peer.handleSdp lib type sdp
  | .ok (.ice candidate sdpMLineIndex) => peer.handleIce sdpMLineIndex candidate

end Peer

/-! ## The map of peers -/

namespace App

variable (lib : Libraries) (app : App)

def addPeer (peer : Text) (offer : Bool) : App × Except Failure Unit :=
  match parseU32 peer with
  | none => (app, .error (.bail "Can't parse peer id".toList))
  | some peerId =>
      if (app.peers.lookup peerId).isSome then
        (app, .error (.bail
          ("Peer ".toList ++ displayU32 peerId ++ " already called".toList)))
      else
        match lib.binError with
        | some message => (app, .error (.bail message))
        | none =>
            let app : App := ⟨app.peers.insert peerId ⟨peerId, offer⟩⟩
            match lib.linkError with
            | some message => (app, .error (.bail message))
            | none => (app, .ok ())

def removePeer (peer : Text) : App × Except Failure Unit :=
  match parseU32 peer with
  | none => (app, .error (.bail "Can't parse peer id".toList))
  | some peerId => (⟨app.peers.erase peerId⟩, .ok ())

/-- The fields after a command that the text begins with. -/
def fields (command msg : Text) : Option (List Text) :=
  (slice (len command) msg).map (splitn 2)

/-- The `ROOM_PEER_MSG` branch of `handle_websocket_message`. -/
def dispatch (msg : Text) : Except Failure (Peer × Emission) :=
  match fields "ROOM_PEER_MSG ".toList msg with
  | none => .error .panic
  | some split =>
      match split[0]?.bind parseU32 with
      | none => .error (.bail "Can't parse peer id".toList)
      | some peerId =>
          match app.peers.lookup peerId with
          | none => .error (.bail ("Can't find peer ".toList ++ displayU32 peerId))
          | some peer =>
              match split[1]? with
              | none => .error (.bail "Can't parse peer message".toList)
              | some msg => peer.handleMessage lib msg

/-- A notice of the room about one peer. -/
def notice (command msg : Text) (handle : Text → App × Except Failure Unit) :
    App × Except Failure (Option (Peer × Emission)) :=
  match fields command msg with
  | none => (app, .error .panic)
  | some split =>
      match split[0]? with
      | none => (app, .error (.bail "Can't parse peer id".toList))
      | some peerId => ((handle peerId).1, (handle peerId).2.map fun _ => none)

def handleWebsocketMessage (msg : Text) : App × Except Failure (Option (Peer × Emission)) :=
  if startsWith msg "ERROR".toList then
    (app, .error (.bail ("Got error message: ".toList ++ msg)))
  else if startsWith msg "ROOM_PEER_MSG ".toList then
    (app, (app.dispatch lib msg).map some)
  else if startsWith msg "ROOM_PEER_JOINED ".toList then
    app.notice "ROOM_PEER_JOINED ".toList msg fun peer => app.addPeer lib peer false
  else if startsWith msg "ROOM_PEER_LEFT ".toList then
    app.notice "ROOM_PEER_LEFT ".toList msg app.removePeer
  else (app, .ok none)

/-- `App::new`. -/
def new (initialPeers : List Text) : Except Failure App :=
  initialPeers.foldlM
    (fun app peer =>
      match app.addPeer lib peer true with
      | (app, .ok ()) => .ok app
      | (_, .error failure) => .error failure)
    ⟨∅⟩

/-- The loop of `run`, which prints an error and goes on. -/
def run (texts : List Text) : App :=
  texts.foldl (fun app text => (app.handleWebsocketMessage lib text).1) app

end App

/-- What `async_main` makes of the reply to `ROOM`. -/
def initialPeers (lib : Libraries) (text : Text) : Except Failure (List Text) :=
  if startsWith text "ROOM_OK".toList then
    match slice (len "ROOM_OK ".toList) text with
    | none => .error .panic
    | some peersStr =>
        .ok ((split peersStr).filterMap fun p => if trim p = [] then none else some (trim p))
  else .error (.bail ("server error: ".toList ++ lib.debug text))

/-- `async_main` from the reply to `ROOM` up to the loop. -/
def asyncMain (lib : Libraries) (text : Text) : Except Failure App :=
  match initialPeers lib text with
  | .error failure => .error failure
  | .ok peers => App.new lib peers

/-! ## What the functions do -/

section Functions

variable {lib : Libraries} {app : App} {uid payload : Text} {number : UInt32}

theorem addPeer_new {offer : Bool} (builds : lib.Builds) (read : parseU32 uid = some number)
    (fresh : number ∉ app.peers) :
    app.addPeer lib uid offer = (⟨app.peers.insert number ⟨number, offer⟩⟩, .ok ()) := by
  obtain ⟨bin, link⟩ := builds
  have missing : (app.peers.lookup number).isSome = false := by
    rw [AList.lookup_eq_none.mpr fresh]
    rfl
  simp [App.addPeer, read, missing, bin, link]

theorem removePeer_read (read : parseU32 uid = some number) :
    app.removePeer uid = (⟨app.peers.erase number⟩, .ok ()) := by
  simp [App.removePeer, read]

theorem fields_message (word : Word uid) :
    App.fields "ROOM_PEER_MSG ".toList ("ROOM_PEER_MSG ".toList ++ uid ++ ' ' :: payload) =
      some [uid, payload] := by
  rw [App.fields, List.append_assoc, slice_append]
  exact congrArg some (splitn_two word.space_not_mem)

/-- A peer's message goes to the entry of its number. -/
theorem handleWebsocketMessage_message {peer : Peer} (read : parseU32 uid = some number)
    (known : app.peers.lookup number = some peer) :
    app.handleWebsocketMessage lib ("ROOM_PEER_MSG ".toList ++ uid ++ ' ' :: payload) =
      (app, (peer.handleMessage lib payload).map some) := by
  have starts : startsWith ("ROOM_PEER_MSG ".toList ++ uid ++ ' ' :: payload)
      "ROOM_PEER_MSG ".toList = true := startsWith_iff.mpr ⟨uid ++ ' ' :: payload, by simp⟩
  have handled : app.dispatch lib ("ROOM_PEER_MSG ".toList ++ uid ++ ' ' :: payload) =
      peer.handleMessage lib payload := by
    unfold App.dispatch
    rw [fields_message (word_of_parseU32 read)]
    simp only [List.getElem?_cons_zero, List.getElem?_cons_succ, Option.bind_some, read, known]
  unfold App.handleWebsocketMessage
  rw [if_neg (by simp [startsWith]), if_pos starts, handled]

theorem handleWebsocketMessage_joined (read : parseU32 uid = some number) :
    (app.handleWebsocketMessage lib ("ROOM_PEER_JOINED ".toList ++ uid)).1 =
      (app.addPeer lib uid false).1 := by
  have split : App.fields "ROOM_PEER_JOINED ".toList ("ROOM_PEER_JOINED ".toList ++ uid) =
      some [uid] := by
    rw [App.fields, slice_append]
    exact congrArg some (splitn_two_word (word_of_parseU32 read).space_not_mem)
  have starts : startsWith ("ROOM_PEER_JOINED ".toList ++ uid) "ROOM_PEER_JOINED ".toList = true :=
    startsWith_iff.mpr (List.prefix_append _ _)
  unfold App.handleWebsocketMessage
  rw [if_neg (by simp [startsWith]), if_neg (by simp [startsWith]), if_pos starts]
  unfold App.notice
  rw [split]
  rfl

theorem handleWebsocketMessage_left (read : parseU32 uid = some number) :
    (app.handleWebsocketMessage lib ("ROOM_PEER_LEFT ".toList ++ uid)).1 =
      (app.removePeer uid).1 := by
  have split : App.fields "ROOM_PEER_LEFT ".toList ("ROOM_PEER_LEFT ".toList ++ uid) =
      some [uid] := by
    rw [App.fields, slice_append]
    exact congrArg some (splitn_two_word (word_of_parseU32 read).space_not_mem)
  have starts : startsWith ("ROOM_PEER_LEFT ".toList ++ uid) "ROOM_PEER_LEFT ".toList = true :=
    startsWith_iff.mpr (List.prefix_append _ _)
  unfold App.handleWebsocketMessage
  rw [if_neg (by simp [startsWith]), if_neg (by simp [startsWith]), if_neg (by simp [startsWith]),
    if_pos starts]
  unfold App.notice
  rw [split]
  rfl

/-- The list in the reply to `ROOM`. -/
theorem initialPeers_roomOk {uids : List Text} (words : ∀ uid ∈ uids, Word uid) :
    initialPeers lib ("ROOM_OK ".toList ++ joinSpace uids) = .ok uids := by
  have starts : startsWith ("ROOM_OK ".toList ++ joinSpace uids) "ROOM_OK".toList = true :=
    startsWith_iff.mpr ⟨' ' :: joinSpace uids, rfl⟩
  unfold initialPeers
  rw [if_pos starts, slice_append]
  dsimp only
  rw [split_joinSpace fun uid listed => (words uid listed).space_not_mem]
  refine congrArg Except.ok ?_
  split
  · next empty =>
      subst empty
      rfl
  · refine (List.filterMap_congr (g := some) ?_).trans List.filterMap_some
    intro uid listed
    rw [trim_word (words uid listed), if_neg (words uid listed).ne_nil]

end Functions

end GstWebrtc.Multiparty.RustClient
