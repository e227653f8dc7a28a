import GstWebrtc.Base.Machine
import GstWebrtc.Signalling.Handler

/-!
# All handlers under every interleaving

One handler for each connection, with every await a point where any other
handler may run.  A send puts its text on the recipient's connection before it
suspends; it raises `ConnectionClosed` when the server has closed that socket,
and may raise it when the client's end has gone away.
-/

namespace GstWebrtc.Signalling

open GstWebrtc.Base GstWebrtc.Base.PyText

inductive Socket where
  | open
  /-- The client's end has gone away; the server may not have noticed yet. -/
  | gone
  /-- The server has closed it. -/
  | closed
  deriving DecidableEq

/-- A connection, with the socket its handler awaits and whether that socket was
usable when the send or close was made. -/
structure Conn where
  socket : Socket
  phase : Phase
  target : ConnId
  usable : Bool

structure World where
  server : WebRTCSimpleServer
  conns : ConnId → Conn
  /-- Every text sent so far, with the connection it was put on. -/
  log : List (ConnId × Reply)

/-- What the environment chooses: `order` and `pick` resolve the order of sets. -/
inductive Act where
  | connect (conn : ConnId)
  | lose (conn : ConnId)
  | recv (conn : ConnId) (msg : Text) (order : List Uid) (pick : Option Uid)
  | timeout (conn : ConnId)
  | closed (conn : ConnId) (pick : Option Uid)
  | resume (conn : ConnId) (raises : Bool) (pick : Option Uid)

/-- The connection whose handler acts, or whose client does. -/
def Act.conn : Act → ConnId
  | connect k | lose k | recv k _ _ _ | timeout k | closed k _ | resume k _ _ => k

namespace Phase

/-- The uid of a handler for which `hello_peer` has returned and that has not ended. -/
def past? : Phase → Option Uid
  | running uid _ _ | leaving uid _ => some uid
  | _ => none

/-- The handler is suspended in a send, so a closed recipient can end it. -/
def inSend : Phase → Bool
  | ack _ => true
  | running _ _ .recv => false
  | running _ _ _ => true
  | leaving _ (.left _ _ _) => true
  | _ => false

/-- The handler is suspended in a `close()`. -/
def inClose : Phase → Bool
  | reject => true
  | leaving _ .partner | leaving _ .close => true
  | _ => false

end Phase

namespace World

def empty : World := ⟨.empty, fun _ => ⟨.closed, .absent, 0, true⟩, []⟩

def phase (w : World) (k : ConnId) : Phase := (w.conns k).phase
def socket (w : World) (k : ConnId) : Socket := (w.conns k).socket

/-- The awaited send or close of handler `k` can return. -/
def canReturn (w : World) (k : ConnId) : Bool :=
  (w.phase k).inClose || ((w.phase k).inSend && (w.conns k).usable)

/-- The awaited send or close of handler `k` can raise `ConnectionClosed`. -/
def canRaise (w : World) (k : ConnId) : Bool :=
  ((w.phase k).inClose && !(w.conns k).usable) ||
    ((w.phase k).inSend && (!(w.conns k).usable || w.socket (w.conns k).target != .open))

/-- What the handler of the acting connection does next. -/
def turn (w : World) : Act → Option Turn
  | .connect _ | .lose _ => none
  | .recv k msg order pick =>
      match w.phase k with
      | .hello => some (helloPeer w.server k msg)
      | .running uid roomId .recv =>
          (connectionHandler w.server k uid roomId order msg).bind (Body.turn uid pick)
      | _ => none
  | .timeout k =>
      match w.phase k with
      | .running uid roomId .recv => some (.ping w.server (.running uid roomId .ping))
      | _ => none
  | .closed k pick =>
      if w.socket k = .open then none
      else
        match w.phase k with
        | .hello => some (.stop w.server none)
        | .running uid _ .recv => removePeer w.server uid pick
        | _ => none
  | .resume k true pick =>
      if w.canRaise k then
        match w.phase k with
        | .reject | .ack _ => some (.stop w.server none)
        | .running uid _ _ => removePeer w.server uid pick
        | .leaving uid _ => some (.stop w.server (some uid))
        | _ => none
      else none
  | .resume k false pick =>
      if w.canReturn k then
        match w.phase k with
        | .reject => some (.stop w.server none)
        | .ack uid => some (.recv (w.server.register k uid) (.running uid none .recv))
        | .running uid roomId .ping | .running uid roomId .sent =>
            some (.recv w.server (.running uid roomId .recv))
        | .running uid roomId (.sessionOk callee) =>
            (establishSession w.server uid callee roomId).turn uid pick
        | .running uid roomId (.roomOk room) =>
            (establishRoom w.server uid roomId room pick).bind (Body.turn uid pick)
        | .running uid roomId (.joined room it) =>
            (announceJoined w.server uid roomId room it pick).bind (Body.turn uid pick)
        | .leaving uid .partner => removeEntry w.server uid pick
        | .leaving uid (.left ws room it) => announceLeft w.server uid ws room it pick
        | .leaving uid .close => some (.stop w.server (some uid))
        | _ => none
      else none

/-! ## The effect of a turn -/

def withServer (w : World) (srv : WebRTCSimpleServer) : World := { w with server := srv }

def setConn (w : World) (k : ConnId) (conn : Conn) : World :=
  { w with conns := Function.update w.conns k conn }

def suspend (w : World) (k : ConnId) (phase : Phase) (target : ConnId) (usable : Bool) : World :=
  w.setConn k { w.conns k with phase := phase, target := target, usable := usable }

def closeSocket (w : World) (k : ConnId) : World :=
  w.setConn k { w.conns k with socket := .closed }

def deliver (w : World) (k : ConnId) (reply : Reply) : World :=
  if w.socket k = .closed then w else { w with log := w.log ++ [(k, reply)] }

def apply (w : World) (k : ConnId) : Turn → World
  | .recv srv phase => (w.withServer srv).suspend k phase k true
  | .send srv target reply phase =>
      ((w.withServer srv).deliver target reply).suspend k phase target
        (w.socket target != .closed)
  | .ping srv phase => (w.withServer srv).suspend k phase k (w.socket k != .closed)
  | .close srv target phase =>
      ((w.withServer srv).suspend k phase target (w.socket target == .open)).closeSocket target
  | .stop srv uid => ((w.withServer srv).suspend k (.done uid) k true).closeSocket k

def step (w : World) (act : Act) : Option World :=
  match act with
  | .connect k =>
      match w.phase k with
      | .absent => some (w.setConn k ⟨.open, .hello, k, true⟩)
      | _ => none
  | .lose k =>
      match w.socket k with
      | .open => some (w.setConn k { w.conns k with socket := .gone })
      | _ => none
  | act => (w.turn act).map (w.apply act.conn)

end World

/-- The server with its connections, started with empty tables. -/
def interleaved : Machine World Act := ⟨World.empty, World.step⟩

/-- The socket that a turn of handler `k` closes. -/
def Turn.closes (k : ConnId) : Turn → Option ConnId
  | close _ target _ => some target
  | stop _ _ => some k
  | _ => none

namespace World

variable (w : World) (k : ConnId) (t : Turn)

/-- The texts that a turn puts on connections that are not closed. -/
def delivered : Turn → List (ConnId × Reply)
  | .send _ target reply _ => if w.socket target = .closed then [] else [(target, reply)]
  | _ => []

@[simp] theorem server_setConn (conn : Conn) : (w.setConn k conn).server = w.server := rfl

@[simp] theorem log_setConn (conn : Conn) : (w.setConn k conn).log = w.log := rfl

theorem phase_setConn (conn : Conn) (j : ConnId) :
    (w.setConn k conn).phase j = if j = k then conn.phase else w.phase j := by
  by_cases same : j = k
  · subst same
    simp [phase, setConn]
  · simp [phase, setConn, same]

theorem socket_setConn (conn : Conn) (j : ConnId) :
    (w.setConn k conn).socket j = if j = k then conn.socket else w.socket j := by
  by_cases same : j = k
  · subst same
    simp [socket, setConn]
  · simp [socket, setConn, same]

/-- A client's end that goes away is not noticed by any handler yet. -/
@[simp] theorem phase_lose (j : ConnId) (socket : Socket) :
    (w.setConn k { w.conns k with socket := socket }).phase j = w.phase j := by
  rw [phase_setConn]
  split
  · next same => rw [same, phase]
  · rfl

@[simp] theorem socket_withServer (srv : WebRTCSimpleServer) (j : ConnId) :
    (w.withServer srv).socket j = w.socket j := rfl

@[simp] theorem server_deliver (r : Reply) : (w.deliver k r).server = w.server := by
  unfold deliver
  split <;> rfl

@[simp] theorem conns_deliver (r : Reply) : (w.deliver k r).conns = w.conns := by
  unfold deliver
  split <;> rfl

@[simp] theorem apply_server : (w.apply k t).server = t.server := by
  cases t <;> simp [apply, suspend, closeSocket, setConn, withServer, Turn.server]

@[simp] theorem apply_phase_self : (w.apply k t).phase k = t.phase := by
  cases t with
  | close srv target phase =>
      by_cases same : k = target
      · subst same
        simp [apply, suspend, closeSocket, setConn, World.phase, Turn.phase]
      · simp [apply, suspend, closeSocket, setConn, World.phase, Turn.phase, same]
  | _ => simp [apply, suspend, closeSocket, setConn, World.phase, Turn.phase]

theorem apply_phase_of_ne {j : ConnId} (other : j ≠ k) : (w.apply k t).phase j = w.phase j := by
  cases t with
  | close srv target phase =>
      by_cases same : j = target
      · subst same
        simp [apply, suspend, closeSocket, setConn, World.phase, withServer, other]
      · simp [apply, suspend, closeSocket, setConn, World.phase, withServer, other, same]
  | _ => simp [apply, suspend, closeSocket, setConn, World.phase, withServer, other]

theorem apply_socket (j : ConnId) :
    (w.apply k t).socket j = if t.closes k = some j then .closed else w.socket j := by
  cases t with
  | close srv target phase =>
      by_cases same : j = target
      · subst same
        simp [apply, closeSocket, setConn, World.socket, Turn.closes]
      · have different : ¬ target = j := fun h => same h.symm
        by_cases self : j = k
        · subst self
          simp [apply, suspend, closeSocket, setConn, World.socket, Turn.closes, withServer,
            same, different]
        · simp [apply, suspend, closeSocket, setConn, World.socket, Turn.closes, withServer,
            same, different, self]
  | stop srv uid =>
      by_cases self : j = k
      · subst self
        simp [apply, closeSocket, setConn, World.socket, Turn.closes]
      · have different : ¬ k = j := fun h => self h.symm
        simp [apply, suspend, closeSocket, setConn, World.socket, Turn.closes, withServer,
          self, different]
  | _ =>
      by_cases self : j = k
      · subst self
        simp [apply, suspend, setConn, World.socket, Turn.closes, withServer]
      · simp [apply, suspend, setConn, World.socket, Turn.closes, withServer, self]

theorem apply_usable_of_ne {j : ConnId} (other : j ≠ k) :
    ((w.apply k t).conns j).usable = (w.conns j).usable := by
  cases t with
  | close srv target phase =>
      by_cases same : j = target
      · subst same
        simp [apply, suspend, closeSocket, setConn, withServer, other]
      · simp [apply, suspend, closeSocket, setConn, withServer, other, same]
  | _ => simp [apply, suspend, closeSocket, setConn, withServer, other]

theorem apply_target_of_ne {j : ConnId} (other : j ≠ k) :
    ((w.apply k t).conns j).target = (w.conns j).target := by
  cases t with
  | close srv target phase =>
      by_cases same : j = target
      · subst same
        simp [apply, suspend, closeSocket, setConn, withServer, other]
      · simp [apply, suspend, closeSocket, setConn, withServer, other, same]
  | _ => simp [apply, suspend, closeSocket, setConn, withServer, other]

/-- What a handler awaits on its own open socket can return. -/
theorem apply_usable_self (closes : ∀ j, t.closes k ≠ some j) (opened : w.socket k ≠ .closed)
    (own : ((w.apply k t).conns k).target = k) : ((w.apply k t).conns k).usable = true := by
  cases t with
  | recv srv phase => simp [apply, suspend, setConn]
  | send srv target reply phase =>
      have same : target = k := by simpa [apply, suspend, setConn] using own
      subst same
      simpa [apply, suspend, setConn] using opened
  | ping srv phase => simpa [apply, suspend, setConn] using opened
  | close srv target phase => exact absurd rfl (closes target)
  | stop srv uid => exact absurd rfl (closes k)

/-- A send is usable when the server has not closed the recipient's socket. -/
theorem apply_send_usable (srv : WebRTCSimpleServer) (target : ConnId) (reply : Reply)
    (phase : Phase) :
    ((w.apply k (.send srv target reply phase)).conns k).usable =
      (w.socket target != .closed) := by
  simp [apply, suspend, setConn]

theorem apply_log : (w.apply k t).log = w.log ++ w.delivered t := by
  cases t with
  | send srv target reply phase =>
      change ((w.withServer srv).deliver target reply).log = _
      unfold deliver delivered
      simp only [socket_withServer]
      by_cases shut : w.socket target = .closed
      · simp [shut, withServer]
      · simp [shut, withServer]
  | _ => simp [apply, suspend, closeSocket, setConn, delivered, withServer]

end World

end GstWebrtc.Signalling
