import GstWebrtc.Signalling.Replies

/-!
# One connection's handler

`hello_peer`, `connection_handler` and `remove_peer`, cut at their awaits.  A
`Turn` is what a handler does from the moment it is given control until it
suspends again or ends; a `Phase` says where it is suspended, with the local
variables that are still needed there.
-/

namespace GstWebrtc.Signalling

open GstWebrtc.Base GstWebrtc.Base.PyText WebRTCSimpleServer

/-- The exceptions that leave `connection_handler`.  Only `ConnectionClosed` is
caught, and `remove_peer` runs in every case. -/
inductive Exn where
  | valueError
  | keyError
  | nameError
  | assertionError
  | runtimeError
  | connectionClosed

/-- Where the loop of `connection_handler` is suspended. -/
inductive LoopPoint where
  | recv
  | ping
  /-- A send after which the loop goes on. -/
  | sent
  | sessionOk (callee : Uid)
  | roomOk (room : RoomId)
  | joined (room : RoomId) (it : Iter Uid)

/-- Where `remove_peer` is suspended. -/
inductive LeavePoint where
  /-- `await wso.close()` in `cleanup_session`. -/
  | partner
  /-- A `ROOM_PEER_LEFT` send in `cleanup_room`; `ws` is a local of `remove_peer`. -/
  | left (ws : ConnId) (room : RoomId) (it : Iter Uid)
  /-- The last `await ws.close()`. -/
  | close

inductive Phase where
  /-- The connection does not exist yet. -/
  | absent
  | hello
  /-- `await ws.close(code=1002)` in `hello_peer`. -/
  | reject
  /-- `await ws.send('HELLO')`. -/
  | ack (uid : Uid)
  | running (uid : Uid) (roomId : Option RoomId) (point : LoopPoint)
  | leaving (uid : Uid) (point : LeavePoint)
  /-- The handler has ended; `uid` is missing when it ended in `hello_peer`. -/
  | done (uid : Option Uid)

inductive Turn where
  | recv (srv : WebRTCSimpleServer) (phase : Phase)
  | send (srv : WebRTCSimpleServer) (target : ConnId) (reply : Reply) (phase : Phase)
  | ping (srv : WebRTCSimpleServer) (phase : Phase)
  | close (srv : WebRTCSimpleServer) (target : ConnId) (phase : Phase)
  | stop (srv : WebRTCSimpleServer) (uid : Option Uid)

/-- How a stretch of `connection_handler` ends. -/
inductive Body where
  | recv (srv : WebRTCSimpleServer) (roomId : Option RoomId)
  | send (srv : WebRTCSimpleServer) (roomId : Option RoomId) (target : ConnId) (reply : Reply)
      (next : LoopPoint)
  | raise (srv : WebRTCSimpleServer) (exn : Exn)

/-! ## `hello_peer` -/

def helloPeer (srv : WebRTCSimpleServer) (ws : ConnId) (msg : Text) : Turn :=
  match splitMax 1 msg with
  | [hello, uid] =>
      if hello ≠ "HELLO".toList then
        .close srv ws .reject
      else if uid = [] ∨ (srv.peers uid).isSome ∨ split uid ≠ [uid] then
        .close srv ws .reject
      else
        .send srv ws .hello (.ack uid)
  | _ => .stop srv none

/-! ## `remove_peer` -/

/-- `del self.peers[uid]` and `await ws.close()`. -/
def deletePeer (srv : WebRTCSimpleServer) (uid : Uid) (ws : ConnId) : Turn :=
  match srv.peers uid with
  | none => .stop srv (some uid)
  | some _ => .close (srv.writePeer uid none) ws (.leaving uid .close)

/-- The loop of `cleanup_room`, from its next element on. -/
def announceLeft (srv : WebRTCSimpleServer) (uid : Uid) (ws : ConnId) (room : RoomId)
    (it : Iter Uid) (pick : Option Uid) : Option Turn :=
  match srv.rooms room with
  | none => none
  | some members =>
      (it.next members pick).map fun
        | .changedSize => .stop srv (some uid)
        | .stop => deletePeer srv uid ws
        | .yield pid it =>
            match srv.peers pid with
            | none => .stop srv (some uid)
            | some peer => .send srv peer.ws (.peerLeft uid) (.leaving uid (.left ws room it))

def cleanupRoom (srv : WebRTCSimpleServer) (uid : Uid) (ws : ConnId) (room : RoomId)
    (pick : Option Uid) : Option Turn :=
  match srv.rooms room with
  | none => some (.stop srv (some uid))
  | some members =>
      if uid ∉ members.elems then
        some (deletePeer srv uid ws)
      else
        announceLeft (srv.writeRoom room (members.remove uid)) uid ws room
          ((members.remove uid).iter ∅) pick

/-- `remove_peer` from `if uid in self.peers` on. -/
def removeEntry (srv : WebRTCSimpleServer) (uid : Uid) (pick : Option Uid) : Option Turn :=
  match srv.peers uid with
  | none => some (.stop srv (some uid))
  | some peer =>
      match peer.status with
      | none => some (deletePeer srv uid peer.ws)
      | some room =>
          if room ≠ [] ∧ room ≠ inSession then
            cleanupRoom srv uid peer.ws room pick
          else
            some (deletePeer srv uid peer.ws)

def removePeer (srv : WebRTCSimpleServer) (uid : Uid) (pick : Option Uid) : Option Turn :=
  match srv.cleanupSession uid with
  | (srv, none) => removeEntry srv uid pick
  | (srv, some wso) => some (.close srv wso (.leaving uid .partner))

/-! ## `connection_handler` -/

def relayToSession (srv : WebRTCSimpleServer) (uid : Uid) (roomId : Option RoomId) (msg : Text) :
    Body :=
  match srv.sessions uid with
  | none => .raise srv .keyError
  | some other =>
      match srv.peers other with
      | none => .raise srv .keyError
      | some peer =>
          if peer.status = some inSession then
            .send srv roomId peer.ws (.relay msg) .sent
          else
            .raise srv .assertionError

def roomPeerMsg (srv : WebRTCSimpleServer) (ws : ConnId) (uid : Uid) (roomId : Option RoomId)
    (msg : Text) : Body :=
  match splitMax 2 msg with
  | [_, other, payload] =>
      match srv.peers other with
      | none => .send srv roomId ws (.notFound other) .sent
      | some peer =>
          match roomId with
          -- the local `room_id` was never assigned
          | none => .raise srv .nameError
          | some room =>
              if peer.status ≠ some room then
                .send srv roomId ws (.notInRoom other) .sent
              else
                .send srv roomId peer.ws (.peerMsg uid payload) .sent
  | _ => .raise srv .valueError

def roomCommand (srv : WebRTCSimpleServer) (ws : ConnId) (uid : Uid) (roomId : Option RoomId)
    (msg : Text) : Body :=
  if startsWith msg "ROOM_PEER_MSG".toList then
    roomPeerMsg srv ws uid roomId msg
  else if msg = "ROOM_PEER_LIST".toList then
    -- `peer_id` is not a name of `connection_handler`
    .raise srv .nameError
  else
    .send srv roomId ws .alreadyInRoom .sent

def requestSession (srv : WebRTCSimpleServer) (ws : ConnId) (roomId : Option RoomId)
    (peerStatus : Option Text) (msg : Text) : Body :=
  match splitMax 1 msg with
  | [_, callee] =>
      if (srv.peers callee).isNone then
        .send srv roomId ws (.notFound callee) .sent
      -- the status tested here is the caller's own
      else if peerStatus ≠ none then
        .send srv roomId ws (.busy callee) .sent
      else
        .send srv roomId ws .sessionOk (.sessionOk callee)
  | _ => .raise srv .valueError

/-- The member list is walked in `order`, which must be an order of that set. -/
def sendRoomOk (srv : WebRTCSimpleServer) (ws : ConnId) (room : RoomId) (members : PySet Uid)
    (order : List Uid) : Option Body :=
  if members.Lists order then
    some (.send srv (some room) ws (.roomOk room order) (.roomOk room))
  else none

def requestRoom (srv : WebRTCSimpleServer) (ws : ConnId) (uid : Uid) (order : List Uid)
    (msg : Text) : Option Body :=
  match splitMax 1 msg with
  | [_, room] =>
      if room = inSession ∨ split room ≠ [room] then
        some (.send srv (some room) ws (.invalidRoom room) .sent)
      else
        match srv.rooms room with
        | none => sendRoomOk (srv.writeRoom room .empty) ws room .empty order
        | some members =>
            if uid ∈ members.elems then
              some (.raise srv .assertionError)
            else
              sendRoomOk srv ws room members order
  | _ => some (.raise srv .valueError)

/-- One message, from its receipt to the next await. -/
def connectionHandler (srv : WebRTCSimpleServer) (ws : ConnId) (uid : Uid)
    (roomId : Option RoomId) (order : List Uid) (msg : Text) : Option Body :=
  match srv.peers uid with
  | none => some (.raise srv .keyError)
  | some peer =>
      match peer.status with
      | some status =>
          if status = inSession then
            some (relayToSession srv uid roomId msg)
          else if status ≠ [] then
            some (roomCommand srv ws uid roomId msg)
          else
            some (.raise srv .assertionError)
      | none =>
          if startsWith msg "SESSION".toList then
            some (requestSession srv ws roomId peer.status msg)
          else if startsWith msg "ROOM".toList then
            requestRoom srv ws uid order msg
          else
            some (.recv srv roomId)

/-- The `SESSION` branch after `SESSION_OK`. -/
def establishSession (srv : WebRTCSimpleServer) (uid callee : Uid) (roomId : Option RoomId) :
    Body :=
  match srv.registerSession uid callee with
  | none => .raise srv .keyError
  | some srv => .recv srv roomId

/--
The loop over `rooms[room]` that announces `uid`, from its next element on.  The
element `uid` itself is passed over without an await, so it is never picked.
-/
def announceJoined (srv : WebRTCSimpleServer) (uid : Uid) (roomId : Option RoomId)
    (room : RoomId) (it : Iter Uid) (pick : Option Uid) : Option Body :=
  match srv.rooms room with
  | none => none
  | some members =>
      if pick = some uid then none
      else
        (it.next members pick).map fun
          | .changedSize => .raise srv .runtimeError
          | .stop => .recv srv roomId
          | .yield pid it =>
              match srv.peers pid with
              | none => .raise srv .keyError
              | some peer => .send srv roomId peer.ws (.peerJoined uid) (.joined room it)

/-- The `ROOM` branch after `ROOM_OK`. -/
def establishRoom (srv : WebRTCSimpleServer) (uid : Uid) (roomId : Option RoomId)
    (room : RoomId) (pick : Option Uid) : Option Body :=
  match srv.enterRoom uid room with
  | (srv, none) => some (.raise srv .keyError)
  | (srv, some members) => announceJoined srv uid roomId room (members.iter {uid}) pick

/-- An exception ends `connection_handler`, and the `finally` clause takes over. -/
def Body.turn (uid : Uid) (pick : Option Uid) : Body → Option Turn
  | .recv srv roomId => some (.recv srv (.running uid roomId .recv))
  | .send srv roomId target reply next =>
      some (.send srv target reply (.running uid roomId next))
  | .raise srv _ => removePeer srv uid pick

namespace Turn

/-- The tables when the handler gives up control. -/
def server : Turn → WebRTCSimpleServer
  | recv srv _ | send srv _ _ _ | ping srv _ | close srv _ _ | stop srv _ => srv

/-- Where the handler is after the turn. -/
def phase : Turn → Phase
  | recv _ phase | send _ _ _ phase | ping _ phase | close _ _ phase => phase
  | stop _ uid => .done uid

end Turn

end GstWebrtc.Signalling
