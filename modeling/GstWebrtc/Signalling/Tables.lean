import GstWebrtc.Base.PySet
import GstWebrtc.Base.PyText
import Mathlib.Logic.Function.Basic

/-!
# The tables of the signalling server

`peers`, `sessions` and `rooms` of `WebRTCSimpleServer`, with the pieces of its
methods that run between two awaits and touch nothing but these tables.  A
dictionary is a partial function; `remote_address` is only ever printed and is
left out of the peer entries.
-/

namespace GstWebrtc.Signalling

open GstWebrtc.Base GstWebrtc.Base.PyText

abbrev Uid := Text
abbrev RoomId := Text
abbrev ConnId := Nat

/-- The status `'session'`; every other status that is not `None` is a room id. -/
def inSession : Text := "session".toList

/-- `[ws, raddr, status]`. -/
structure Peer where
  ws : ConnId
  status : Option Text
  deriving DecidableEq

structure WebRTCSimpleServer where
  peers : Uid → Option Peer
  sessions : Uid → Option Uid
  rooms : RoomId → Option (PySet Uid)

namespace WebRTCSimpleServer

/-- `__init__`. -/
def empty : WebRTCSimpleServer := ⟨fun _ => none, fun _ => none, fun _ => none⟩

def writePeer (srv : WebRTCSimpleServer) (uid : Uid) (peer : Option Peer) : WebRTCSimpleServer :=
  { srv with peers := Function.update srv.peers uid peer }

def writeSession (srv : WebRTCSimpleServer) (uid : Uid) (other : Option Uid) :
    WebRTCSimpleServer :=
  { srv with sessions := Function.update srv.sessions uid other }

def writeRoom (srv : WebRTCSimpleServer) (room : RoomId) (members : PySet Uid) :
    WebRTCSimpleServer :=
  { srv with rooms := Function.update srv.rooms room (some members) }

section Fields

variable (srv : WebRTCSimpleServer) (uid : Uid) (peer : Option Peer) (other : Option Uid)
  (room : RoomId) (members : PySet Uid)

@[simp] theorem peers_writePeer :
    (srv.writePeer uid peer).peers = Function.update srv.peers uid peer := rfl
@[simp] theorem sessions_writePeer : (srv.writePeer uid peer).sessions = srv.sessions := rfl
@[simp] theorem rooms_writePeer : (srv.writePeer uid peer).rooms = srv.rooms := rfl
@[simp] theorem peers_writeSession : (srv.writeSession uid other).peers = srv.peers := rfl
@[simp] theorem sessions_writeSession :
    (srv.writeSession uid other).sessions = Function.update srv.sessions uid other := rfl
@[simp] theorem rooms_writeSession : (srv.writeSession uid other).rooms = srv.rooms := rfl
@[simp] theorem peers_writeRoom : (srv.writeRoom room members).peers = srv.peers := rfl
@[simp] theorem sessions_writeRoom : (srv.writeRoom room members).sessions = srv.sessions := rfl
@[simp] theorem rooms_writeRoom :
    (srv.writeRoom room members).rooms = Function.update srv.rooms room (some members) := rfl

end Fields

/-- The uids in `rooms[room]`, none when there is no such room. -/
def members (srv : WebRTCSimpleServer) (room : RoomId) : Finset Uid :=
  match srv.rooms room with
  | none => ∅
  | some set => set.elems

theorem members_of_rooms {srv : WebRTCSimpleServer} {room : RoomId} {set : PySet Uid}
    (h : srv.rooms room = some set) : srv.members room = set.elems := by
  simp [members, h]

theorem members_congr {srv other : WebRTCSimpleServer} (h : srv.rooms = other.rooms) :
    srv.members = other.members := by
  funext room
  simp [members, h]

@[simp] theorem members_writePeer (srv : WebRTCSimpleServer) (uid : Uid) (peer : Option Peer) :
    (srv.writePeer uid peer).members = srv.members := members_congr rfl

@[simp] theorem members_writeSession (srv : WebRTCSimpleServer) (uid : Uid)
    (other : Option Uid) : (srv.writeSession uid other).members = srv.members := members_congr rfl

theorem members_writeRoom (srv : WebRTCSimpleServer) (room : RoomId) (set : PySet Uid) :
    (srv.writeRoom room set).members = Function.update srv.members room set.elems := by
  funext r
  by_cases same : r = room
  · subst same
    simp [members]
  · simp [members, same]

/-- A new room has no members yet. -/
theorem members_newRoom {srv : WebRTCSimpleServer} {room : RoomId}
    (missing : srv.rooms room = none) : (srv.writeRoom room .empty).members = srv.members := by
  rw [members_writeRoom]
  exact Function.update_eq_self_iff.mpr (by simp [members, missing])

/-- `self.peers[uid] = [ws, raddr, None]`. -/
def register (srv : WebRTCSimpleServer) (ws : ConnId) (uid : Uid) : WebRTCSimpleServer :=
  srv.writePeer uid (some ⟨ws, none⟩)

/-- `self.peers[uid][2] = status`, with `none` for a `KeyError`. -/
def setStatus (srv : WebRTCSimpleServer) (uid : Uid) (status : Text) :
    Option WebRTCSimpleServer :=
  match srv.peers uid with
  | none => none
  | some peer => some (srv.writePeer uid (some { peer with status := some status }))

/--
The part of the `SESSION` branch after `SESSION_OK` was sent.  Both lookups that
can fail come before the first write, so a `KeyError` leaves the tables alone.
-/
def registerSession (srv : WebRTCSimpleServer) (uid callee : Uid) : Option WebRTCSimpleServer :=
  match srv.peers callee with
  | none => none
  | some _ =>
      match srv.setStatus uid inSession with
      | none => none
      | some srv =>
          match (srv.writeSession uid (some callee)).setStatus callee inSession with
          | none => none
          | some srv => some (srv.writeSession callee (some uid))

/--
The part of the `ROOM` branch between `ROOM_OK` and the loop over the members:
the tables, and the set to walk unless one of the lookups failed.
-/
def enterRoom (srv : WebRTCSimpleServer) (uid : Uid) (room : RoomId) :
    WebRTCSimpleServer × Option (PySet Uid) :=
  match srv.setStatus uid room with
  | none => (srv, none)
  | some srv =>
      match srv.rooms room with
      | none => (srv, none)
      | some members => (srv.writeRoom room (members.add uid), some (members.add uid))

/-- `cleanup_session` up to `await wso.close()`, with the socket it closes if any. -/
def cleanupSession (srv : WebRTCSimpleServer) (uid : Uid) :
    WebRTCSimpleServer × Option ConnId :=
  match srv.sessions uid with
  | none => (srv, none)
  | some other =>
      let srv := srv.writeSession uid none
      match srv.sessions other with
      | none => (srv, none)
      | some _ =>
          let srv := srv.writeSession other none
          match srv.peers other with
          | none => (srv, none)
          | some peer => (srv.writePeer other none, some peer.ws)

/-- `status and status != 'session'`. -/
def IsRoom (status : Option Text) (room : RoomId) : Prop :=
  status = some room ∧ room ≠ [] ∧ room ≠ inSession

end WebRTCSimpleServer

end GstWebrtc.Signalling
