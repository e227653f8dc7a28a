import GstWebrtc.Base.CText
import Mathlib.Data.List.Basic

/-!
# Peer connections

An endpoint of a call, be it a `webrtcbin` or an `RTCPeerConnection`: its
signaling state, its two descriptions, and the operations that it has been given
and does one after the other.  An offer and an answer take each of two endpoints
through a fixed sequence of stages.
-/

namespace GstWebrtc.Base

/-- A session description. -/
inductive Description where
  | offer (sdp : Text)
  | answer (sdp : Text)
  deriving DecidableEq

theorem Description.offer_injective : Function.Injective Description.offer :=
  fun _ _ same => Description.offer.inj same

theorem Description.answer_injective : Function.Injective Description.answer :=
  fun _ _ same => Description.answer.inj same

inductive SignalingState where
  | stable
  | haveLocalOffer
  | haveRemoteOffer
  deriving DecidableEq

inductive Operation where
  | createOffer
  | createAnswer
  | setLocalDescription (description : Description)
  | setRemoteDescription (description : Description)
  deriving DecidableEq

/-- What the promise of an operation is resolved with. -/
inductive Result where
  | created (description : Description)
  | set
  | failed
  deriving DecidableEq

structure PeerConnection where
  signalingState : SignalingState
  localDescription : Option Description
  remoteDescription : Option Description
  /-- What is still to be done, in order. -/
  operations : List Operation
  deriving DecidableEq

namespace PeerConnection

def new : PeerConnection := ⟨.stable, none, none, []⟩

/-- An operation is chained behind those before it. -/
def chain (op : Operation) (pc : PeerConnection) : PeerConnection :=
  { pc with operations := pc.operations ++ [op] }

def setLocal (pc : PeerConnection) : Description → Option PeerConnection
  | .offer sdp =>
      match pc.signalingState with
      | .haveRemoteOffer => none
      | _ =>
          some { pc with
            signalingState := .haveLocalOffer
            localDescription := some (.offer sdp) }
  | .answer sdp =>
      match pc.signalingState with
      | .haveRemoteOffer =>
          some { pc with
            signalingState := .stable
            localDescription := some (.answer sdp) }
      | _ => none

def setRemote (pc : PeerConnection) : Description → Option PeerConnection
  | .offer sdp =>
      match pc.signalingState with
      | .haveLocalOffer => none
      | _ =>
          some { pc with
            signalingState := .haveRemoteOffer
            remoteDescription := some (.offer sdp) }
  | .answer sdp =>
      match pc.signalingState with
      | .haveLocalOffer =>
          some { pc with
            signalingState := .stable
            remoteDescription := some (.answer sdp) }
      | _ => none

/-- The new endpoint, or a failure that leaves it as it is. -/
def resolve (pc : PeerConnection) : Option PeerConnection → Result × PeerConnection
  | some set => (.set, set)
  | none => (.failed, pc)

/-- An operation is done, with the text of a new description. -/
def perform (generated : Text) (pc : PeerConnection) : Operation → Result × PeerConnection
  | .createOffer => (.created (.offer generated), pc)
  | .createAnswer =>
      match pc.signalingState with
      | .haveRemoteOffer => (.created (.answer generated), pc)
      | _ => (.failed, pc)
  | .setLocalDescription description => pc.resolve (pc.setLocal description)
  | .setRemoteDescription description => pc.resolve (pc.setRemote description)

/-- The first operation is done. -/
def advance (generated : Text) (pc : PeerConnection) :
    Option (Operation × Result × PeerConnection) :=
  match pc.operations with
  | [] => none
  | op :: rest => some (op, perform generated { pc with operations := rest } op)

/-- The next operation does not fail. -/
def Sound (pc : PeerConnection) : Prop :=
  ∀ generated op result after, pc.advance generated = some (op, result, after) → result ≠ .failed

end PeerConnection

/-! ## The stages of an offer and its answer -/

/-- How far the endpoint is that makes the offer. -/
inductive Offerer where
  | idle
  | creating
  /-- The offer is being set. -/
  | setting (offer : Text)
  | offered (offer : Text)
  /-- The answer has come before the offer is set. -/
  | overtaken (offer answer : Text)
  | accepting (offer answer : Text)
  | settled (offer answer : Text)

namespace Offerer

def connection : Offerer → PeerConnection
  | idle => .new
  | creating => ⟨.stable, none, none, [.createOffer]⟩
  | setting o => ⟨.stable, none, none, [.setLocalDescription (.offer o)]⟩
  | offered o => ⟨.haveLocalOffer, some (.offer o), none, []⟩
  | overtaken o a =>
      ⟨.stable, none, none,
        [.setLocalDescription (.offer o), .setRemoteDescription (.answer a)]⟩
  | accepting o a =>
      ⟨.haveLocalOffer, some (.offer o), none, [.setRemoteDescription (.answer a)]⟩
  | settled o a => ⟨.stable, some (.offer o), some (.answer a), []⟩

/-- The offer that was sent, which a party may do before it is set. -/
def sent (early : Bool) : Offerer → Option Text
  | idle | creating => none
  | setting o => if early then some o else none
  | offered o | overtaken o _ | accepting o _ | settled o _ => some o

/-- The answer that was received. -/
def received : Offerer → Option Text
  | overtaken _ a | accepting _ a | settled _ a => some a
  | _ => none

/-- A bound on the steps that are left at this end, where sending the offer counts as one. -/
def work : Offerer → Nat
  | idle => 6
  | creating => 5
  | setting _ => 3
  | overtaken _ _ => 2
  | offered _ | accepting _ _ => 1
  | settled _ _ => 0

theorem sound (os : Offerer) : os.connection.Sound := by
  intro generated op result after done
  cases os <;> cases done <;> nofun

end Offerer

/-- How far the endpoint is that answers. -/
inductive Answerer where
  | idle
  | hearing (offer : Text)
  /-- The answer is asked for before the offer is set. -/
  | hasty (offer : Text)
  | heard (offer : Text)
  | creating (offer : Text)
  | setting (offer answer : Text)
  | settled (offer answer : Text)

namespace Answerer

def connection : Answerer → PeerConnection
  | idle => .new
  | hearing o => ⟨.stable, none, none, [.setRemoteDescription (.offer o)]⟩
  | hasty o => ⟨.stable, none, none, [.setRemoteDescription (.offer o), .createAnswer]⟩
  | heard o => ⟨.haveRemoteOffer, none, some (.offer o), []⟩
  | creating o => ⟨.haveRemoteOffer, none, some (.offer o), [.createAnswer]⟩
  | setting o a =>
      ⟨.haveRemoteOffer, none, some (.offer o), [.setLocalDescription (.answer a)]⟩
  | settled o a => ⟨.stable, some (.answer a), some (.offer o), []⟩

/-- The offer that was received. -/
def received : Answerer → Option Text
  | idle => none
  | hearing o | hasty o | heard o | creating o | setting o _ | settled o _ => some o

/-- The answer that was sent. -/
def sent (early : Bool) : Answerer → Option Text
  | setting _ a => if early then some a else none
  | settled _ a => some a
  | _ => none

/-- A bound on the steps that are left at this end, where sending the answer counts as one. -/
def work : Answerer → Nat
  | idle | hearing _ | hasty _ => 6
  | heard _ => 5
  | creating _ => 4
  | setting _ _ => 2
  | settled _ _ => 0

theorem sound (as : Answerer) : as.connection.Sound := by
  intro generated op result after done
  cases as <;> cases done <;> nofun

end Answerer

/-! ## One description under way -/

/-- The descriptions under way are those that were sent and have not been received. -/
def Flows (description : Text → Description) (sent received : Option Text)
    (inFlight : List Description) : Prop :=
  received.toList.map description ++ inFlight = sent.toList.map description

namespace Flows

variable {description : Text → Description} {sent received : Option Text}
  {inFlight : List Description} {d : Description}

theorem unsent (flows : Flows description none received inFlight) :
    received = none ∧ inFlight = [] := by
  obtain ⟨none_received, empty⟩ := List.append_eq_nil_iff.mp flows
  cases received with
  | none => exact ⟨rfl, empty⟩
  | some _ => cases none_received

/-- What is taken was sent and had not been received, and nothing is left. -/
theorem taken (flows : Flows description sent received (d :: inFlight)) :
    ∃ sdp, sent = some sdp ∧ received = none ∧ d = description sdp ∧ inFlight = [] := by
  cases sent with
  | none => cases flows.unsent.2
  | some sdp =>
      cases received with
      | none =>
          obtain ⟨same, rest⟩ := List.cons.inj flows
          exact ⟨sdp, rfl, rfl, same, rest⟩
      | some _ => cases (List.cons.inj flows).2

/-- When nothing is under way everything that was sent has been received. -/
theorem arrived (flows : Flows description sent received [])
    (injective : Function.Injective description) : received = sent := by
  rw [Flows, List.append_nil] at flows
  have same : received.toList = sent.toList := List.map_injective_iff.mpr injective flows
  rw [← Option.head?_toList (o := received), same, Option.head?_toList]

/-- What was received is what was sent, and nothing is under way. -/
theorem same {x y : Text} (flows : Flows description (some x) (some y) inFlight) :
    description y = description x ∧ inFlight = [] := List.cons.inj flows

/-- What was received had been sent. -/
theorem sent_of_received {y : Text} (flows : Flows description sent (some y) inFlight) :
    ∃ x, sent = some x ∧ description y = description x ∧ inFlight = [] := by
  cases sent with
  | none => cases flows
  | some x => exact ⟨x, rfl, flows.same⟩

end Flows

/-! ## Messages under way -/

/-- Messages, of which some stand for an item. -/
inductive Bears {Message Item : Type} (means : Message → Option Item → Prop) :
    List Message → List Item → Prop where
  | nil : Bears means [] []
  | cons {msg item messages items} (meaning : means msg item) (later : Bears means messages items) :
      Bears means (msg :: messages) (item.toList ++ items)

namespace Bears

variable {Message Item : Type} {means : Message → Option Item → Prop} {msg : Message}
  {messages : List Message} {items : List Item} {item : Item}

theorem append {maybe : Option Item} (bears : Bears means messages items)
    (meaning : means msg maybe) : Bears means (messages ++ [msg]) (items ++ maybe.toList) := by
  induction bears with
  | nil => exact (List.append_nil maybe.toList) ▸ Bears.cons meaning .nil
  | cons first _ ih =>
      rw [List.append_assoc]
      exact .cons first ih

theorem send (bears : Bears means messages items) (meaning : means msg (some item)) :
    Bears means (messages ++ [msg]) (items ++ [item]) := bears.append meaning

/-- A message without an item is sent. -/
theorem other (bears : Bears means messages items) (meaning : means msg none) :
    Bears means (messages ++ [msg]) items := by
  have more := bears.append meaning
  rwa [Option.toList_none, List.append_nil] at more

/-- What arrives is the first item, or a message without one. -/
theorem take (bears : Bears means (msg :: messages) items) :
    (means msg none ∧ Bears means messages items) ∨
      ∃ first rest, items = first :: rest ∧ means msg (some first) ∧ Bears means messages rest := by
  cases bears with
  | @cons _ maybe _ rest meaning later =>
      cases maybe with
      | none => exact Or.inl ⟨meaning, later⟩
      | some first => exact Or.inr ⟨first, rest, rfl, meaning, later⟩

end Bears

/-- The messages under way bear the description that was sent, unless it was received. -/
def Conveys {Message : Type} (means : Message → Option Description → Prop)
    (description : Text → Description) (sent received : Option Text) (messages : List Message) :
    Prop :=
  ∃ inFlight, Bears means messages inFlight ∧ Flows description sent received inFlight

namespace Conveys

variable {Message : Type} {means : Message → Option Description → Prop}
  {description : Text → Description} {sent received : Option Text} {msg : Message}
  {messages : List Message}

theorem nothing : Conveys means description none none [] := ⟨[], .nil, rfl⟩

/-- The description is sent. -/
theorem send {sdp : Text} (conveys : Conveys means description none received messages)
    (meaning : means msg (some (description sdp))) :
    Conveys means description (some sdp) received (messages ++ [msg]) := by
  obtain ⟨inFlight, bears, flows⟩ := conveys
  obtain ⟨rfl, rfl⟩ := flows.unsent
  exact ⟨_, bears.send meaning, rfl⟩

/-- Another message is sent. -/
theorem other (conveys : Conveys means description sent received messages)
    (meaning : means msg none) : Conveys means description sent received (messages ++ [msg]) := by
  obtain ⟨inFlight, bears, flows⟩ := conveys
  exact ⟨inFlight, bears.other meaning, flows⟩

/-- What arrives is the description, or another message. -/
theorem take (conveys : Conveys means description sent received (msg :: messages)) :
    (means msg none ∧ Conveys means description sent received messages) ∨
      ∃ sdp, sent = some sdp ∧ received = none ∧ means msg (some (description sdp)) ∧
        Conveys means description sent (some sdp) messages := by
  obtain ⟨inFlight, bears, flows⟩ := conveys
  rcases bears.take with ⟨meaning, later⟩ | ⟨first, rest, rfl, meaning, later⟩
  · exact Or.inl ⟨meaning, inFlight, later, flows⟩
  · obtain ⟨sdp, rfl, rfl, rfl, rfl⟩ := flows.taken
    exact Or.inr ⟨sdp, rfl, rfl, meaning, [], later, rfl⟩

theorem unsent (conveys : Conveys means description none received messages) : received = none := by
  obtain ⟨inFlight, -, flows⟩ := conveys
  exact flows.unsent.1

theorem arrived (conveys : Conveys means description sent received [])
    (injective : Function.Injective description) : received = sent := by
  obtain ⟨inFlight, bears, flows⟩ := conveys
  cases bears
  exact flows.arrived injective

theorem sent_of_received {sdp : Text}
    (conveys : Conveys means description sent (some sdp) messages)
    (injective : Function.Injective description) : sent = some sdp := by
  obtain ⟨inFlight, -, flows⟩ := conveys
  obtain ⟨x, rfl, same, -⟩ := flows.sent_of_received
  rw [injective same]

end Conveys

end GstWebrtc.Base
