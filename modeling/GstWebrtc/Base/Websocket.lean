import GstWebrtc.Base.Machine

/-!
# Owners of a websocket

A websocket object as libsoup's, of which a program owns one reference through a
pointer.  The program closes it while it is open and drops the reference
otherwise, and counts on the closed signal to come back for the second.  When
this is right, a condition on the state before each callback tells; that it
tells so is shown for a program, and the rest is the same for any.
-/

namespace GstWebrtc.Base

/-- `SoupWebsocketState`. -/
inductive SocketState where
  | opened
  | closing
  | closed
  deriving DecidableEq

structure Socket where
  state : SocketState
  /-- How often the owner has dropped its reference. -/
  drops : Nat
  /-- A function of the library was called with it after the reference was dropped. -/
  stale : Bool
  deriving DecidableEq

namespace Socket

/-- A connection that has just been made. -/
def fresh : Socket := ⟨.opened, 0, false⟩

/-- Any function of the library is called with the object. -/
def call (s : Socket) : Socket := { s with stale := s.stale || 0 < s.drops }

/-- `soup_websocket_connection_close`. -/
def close (s : Socket) : Socket :=
  { s.call with state := if s.state = .opened then .closing else s.state }

/-- `g_object_unref`. -/
def unref (s : Socket) : Socket := { s with drops := s.drops + 1 }

/-- Close the connection when it is open, and else drop the reference. -/
def cleanUp (s : Socket) : Socket :=
  if s.call.state = .opened then s.call.close else s.call.unref

/-- The reference was dropped once at most, and the object was not used later. -/
def Sound (s : Socket) : Prop := s.drops ≤ 1 ∧ s.stale = false

instance (s : Socket) : Decidable s.Sound := inferInstanceAs (Decidable (_ ∧ _))

end Socket

/-- What a callback does with the pointer. -/
inductive Use where
  | idle
  /-- It asks for the state of the connection or sends on it. -/
  | calls
  /-- It ends by closing the connection or dropping the reference. -/
  | cleansUp
  /-- It assigns a new connection, and sends on that. -/
  | connects
  /-- It assigns `NULL`. -/
  | clears
  deriving DecidableEq

def Use.run : Use → Option Socket → Option Socket
  | idle, wsConn => wsConn
  | calls, wsConn => wsConn.map Socket.call
  | cleansUp, wsConn => wsConn.map Socket.cleanUp
  | connects, _ => some Socket.fresh.call
  | clears, _ => none

/-- What may be done with a connection in the given state. -/
def Use.Fits : Use → Option SocketState → Prop
  | cleansUp, some .closing | cleansUp, some .closed | calls, some .closed => False
  | _, _ => True

/-- A program, by what its callbacks do. -/
structure Owner where
  State : Type
  Event : Type
  init : State
  /-- The connection that it begins with. -/
  wsConn : Option Socket
  /-- The callback of an event, when the state of the connection is the given one; with nothing
  when the event does not happen then or ends the process. -/
  callback : State → Option SocketState → Event → Option (State × Use)
  /-- The handler of the closed signal, which cleans up. -/
  onClosed : State → State

namespace Owner

variable (owner : Owner)

structure Holder where
  state : owner.State
  wsConn : Option Socket

inductive Signal where
  | callback (event : owner.Event)
  /-- The other side begins to close the connection. -/
  | closing
  | closed

variable {owner}

def Holder.socketState (h : owner.Holder) : Option SocketState := h.wsConn.map fun s => s.state

/-- The reference of the connection is released once, and last. -/
def Holder.Sound (h : owner.Holder) : Prop := ∀ s, h.wsConn = some s → s.Sound

def Holder.step (h : owner.Holder) : owner.Signal → Option owner.Holder
  | .callback event =>
      (owner.callback h.state h.socketState event).map fun result =>
        ⟨result.1, result.2.run h.wsConn⟩
  | .closing =>
      match h.wsConn with
      | none => none
      | some s =>
          if s.state = .opened then some { h with wsConn := some { s with state := .closing } }
          else none
  | .closed =>
      match h.wsConn with
      | none => none
      | some s =>
          if s.state = .closed then none
          else some ⟨owner.onClosed h.state, some { s with state := .closed }.cleanUp⟩

variable (owner)

def machine : Machine owner.Holder owner.Signal := ⟨⟨owner.init, owner.wsConn⟩, Holder.step⟩

/-- A condition on the state before a callback. -/
abbrev Condition : Type := owner.State → Option SocketState → owner.Event → Prop

variable {owner}

/-- The condition holds of just the callbacks that do what may be done with the connection. -/
def Condition.Exact (mayCome : owner.Condition) : Prop :=
  ∀ state socket event next use, owner.callback state socket event = some (next, use) →
    (mayCome state socket event ↔ use.Fits socket)

/-- The signals of the connection itself come at any time. -/
def Condition.Allows (mayCome : owner.Condition) (h : owner.Holder) : owner.Signal → Prop
  | .callback event => mayCome h.state h.socketState event
  | _ => True

variable {mayCome : owner.Condition}

/-! ## The reference is dropped by the closed signal -/

/-- The reference is dropped exactly when the connection is closed. -/
inductive Kept : Option Socket → Prop where
  | null : Kept none
  | opened : Kept (some ⟨.opened, 0, false⟩)
  | closing : Kept (some ⟨.closing, 0, false⟩)
  | closed : Kept (some ⟨.closed, 1, false⟩)

theorem Kept.sound {h : owner.Holder} (kept : Kept h.wsConn) : h.Sound := by
  obtain ⟨state, wsConn⟩ := h
  intro s held
  cases held
  cases kept <;> decide

theorem Kept.use {wsConn : Option Socket} {use : Use} (kept : Kept wsConn)
    (fits : use.Fits (wsConn.map fun s => s.state)) : Kept (use.run wsConn) := by
  cases use with
  | idle => exact kept
  | connects => exact .opened
  | clears => exact .null
  | calls =>
      cases kept with
      | null => exact .null
      | opened => exact .opened
      | closing => exact .closing
      | closed => exact fits.elim
  | cleansUp =>
      cases kept with
      | null => exact .null
      | opened => exact .closing
      | closing => exact fits.elim
      | closed => exact fits.elim

theorem Kept.step {h next : owner.Holder} {signal : owner.Signal} (exactly : mayCome.Exact)
    (kept : Kept h.wsConn) (allowed : mayCome.Allows h signal) (fires : h.step signal = some next) :
    Kept next.wsConn := by
  obtain ⟨state, wsConn⟩ := h
  cases signal with
  | callback event =>
      obtain ⟨⟨state', use⟩, called, rfl⟩ := Option.map_eq_some_iff.mp fires
      exact kept.use ((exactly _ _ _ _ _ called).mp allowed)
  | closing =>
      cases kept with
      | opened =>
          cases fires
          exact .closing
      | _ => cases fires
  | closed =>
      cases kept with
      | opened =>
          cases fires
          exact .closed
      | closing =>
          cases fires
          exact .closed
      | _ => cases fires

/-- In a run that meets the condition the reference is dropped by the closed signal only. -/
theorem kept_of_reachable {h : owner.Holder} (exactly : mayCome.Exact) (first : Kept owner.wsConn)
    (run : owner.machine.Reachable mayCome.Allows h) : Kept h.wsConn :=
  run.invariant (P := fun h => Kept h.wsConn) first
    fun _ _ _ kept allowed fires => kept.step exactly allowed fires

/-- The first step outside the condition uses a dropped reference, at once or when the
connection is closed. -/
theorem misused_of_not_allowed {h next : owner.Holder} {signal : owner.Signal}
    (exactly : mayCome.Exact) (kept : Kept h.wsConn) (fires : h.step signal = some next)
    (broken : ¬ mayCome.Allows h signal) :
    ¬ next.Sound ∨ ∃ last, next.step .closed = some last ∧ ¬ last.Sound := by
  cases signal with
  | closing => exact absurd True.intro broken
  | closed => exact absurd True.intro broken
  | callback event =>
      obtain ⟨⟨state', use⟩, called, rfl⟩ := Option.map_eq_some_iff.mp fires
      have unfit : ¬ use.Fits h.socketState := fun fits =>
        broken ((exactly _ _ _ _ _ called).mpr fits)
      obtain ⟨state, wsConn⟩ := h
      have late : ∀ s : Socket, s.stale = true →
          ¬ Holder.Sound (⟨state', some s⟩ : owner.Holder) := by
        intro s used sound
        cases used.symm.trans (sound s rfl).2
      cases kept with
      | null => cases use <;> exact absurd True.intro unfit
      | opened => cases use <;> exact absurd True.intro unfit
      | closing =>
          cases use with
          | cleansUp =>
              -- the object is there no more when the closed signal comes
              refine Or.inr ⟨_, rfl, fun sound => ?_⟩
              cases (sound _ rfl).2
          | _ => exact absurd True.intro unfit
      | closed =>
          cases use with
          | cleansUp => exact Or.inl (late _ rfl)
          | calls => exact Or.inl (late _ rfl)
          | _ => exact absurd True.intro unfit

end Owner

end GstWebrtc.Base
