import GstWebrtc.Base.PeerConnection
import GstWebrtc.Browser.Page

/-!
# Descriptions and candidates as JSON

What `JSON.stringify` makes of the objects of the browser that the pages send,
and how a description is read back.
-/

namespace GstWebrtc.Browser

open GstWebrtc.Base Page

/-- `JSON.stringify` of an `RTCSessionDescription`. -/
def descriptionJson : Description → Json
  | .offer sdp => .object [("type".toList, .string "offer".toList), ("sdp".toList, .string sdp)]
  | .answer sdp => .object [("type".toList, .string "answer".toList), ("sdp".toList, .string sdp)]

/-- The argument of `setRemoteDescription`, with nothing for a `TypeError`. -/
def ofDescriptionJson (sdp : Json) : Option Description :=
  match property sdp "type".toList, property sdp "sdp".toList with
  | some (.string type), some (.string text) =>
      if type = "offer".toList then some (.offer text)
      else if type = "answer".toList then some (.answer text)
      else none
  | _, _ => none

/-- `RTCIceCandidate`, as far as it is sent. -/
structure IceCandidate where
  candidate : Text
  sdpMid : Option Text
  sdpMLineIndex : Option Nat

namespace IceCandidate

def members (ice : IceCandidate) : List (Text × Json) :=
  [("candidate".toList, .string ice.candidate),
    ("sdpMid".toList, (ice.sdpMid.map Json.string).getD .null),
    ("sdpMLineIndex".toList, (ice.sdpMLineIndex.map fun i => Json.number i).getD .null)]

def json (ice : IceCandidate) : Json := .object ice.members

theorem lookup_members (ice : IceCandidate) :
    ice.members.lookup "candidate".toList = some (.string ice.candidate) := rfl

end IceCandidate

end GstWebrtc.Browser
