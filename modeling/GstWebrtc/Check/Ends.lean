import GstWebrtc.Check.Waits

/-!
# The two ends of a test

What the client and the page tell one another, and how far each of them is: its
peer connection, what is still to be run, and what it has told and been told.
Candidates are sent and received among the rest.
-/

namespace GstWebrtc.Check

open GstWebrtc.Base GstWebrtc.Browser

/-! ## What is told -/

inductive Item where
  | asks (op : Operation)
  | state (state : NegotiationState)
  | description (description : Description)
  | candidate

namespace Item

def toState : Item → Option NegotiationState
  | state s => some s
  | _ => none

def toDescription : Item → Option Description
  | description d => some d
  | _ => none

end Item

/-- The states that were told. -/
def statesOf (items : List Item) : List NegotiationState := items.filterMap Item.toState

/-- The descriptions that were told. -/
def descriptionsOf (items : List Item) : List Description := items.filterMap Item.toDescription

theorem statesOf_append (items : List Item) (item : Item) :
    statesOf (items ++ [item]) = statesOf items ++ item.toState.toList := by
  rw [statesOf, List.filterMap_append, ← statesOf]
  cases item <;> rfl

theorem descriptionsOf_append (items : List Item) (item : Item) :
    descriptionsOf (items ++ [item]) = descriptionsOf items ++ item.toDescription.toList := by
  rw [descriptionsOf, List.filterMap_append, ← descriptionsOf]
  cases item <;> rfl

/-- What the page does with a text. -/
def PageReads (msg : Json) : Option Item → Prop
  | none => ∀ page : TestPage, page.onServerMessage msg = (page, [])
  | some (.asks op) => ∀ page : TestPage, page.onServerMessage msg = page.create op
  | some (.description d) => ∀ page : TestPage, page.onServerMessage msg =
      ({ page with peerConnection := some (page.inCall.chain (.setRemoteDescription d)) }, [])
  | some .candidate => ∀ page : TestPage, page.onServerMessage msg = page.onIncomingICE
  | some (.state _) => False

theorem pageReads_title (title : Text) :
    PageReads (.object [("SET_TITLE".toList, .string title)]) none := fun _ => rfl

theorem pageReads_options (options : List (Text × Json)) :
    PageReads (.object [("OPTIONS".toList, .object options)]) none := fun _ => rfl

theorem pageReads_createOffer :
    PageReads (Test.createMessage "CREATE_OFFER") (some (.asks .createOffer)) := fun _ => rfl

theorem pageReads_createAnswer :
    PageReads (Test.createMessage "CREATE_ANSWER") (some (.asks .createAnswer)) := fun _ => rfl

theorem pageReads_description (d : Description) :
    PageReads (sdpMessage d) (some (.description d)) := by
  intro page
  cases d <;> rfl

theorem pageReads_candidate (ice : List (Text × Json)) :
    PageReads (.object [("ice".toList, .object ice)]) (some .candidate) := fun _ => rfl

/-- What the client does with a text. -/
structure ClientReads (msg : Json) (item : Option Item) : Prop where
  observed : ∀ remote : RemoteWebRTCObserver, ∃ after, remote.onJson msg = (after, none) ∧
    after.stateObserver = (item.bind Item.toState).elim remote.stateObserver
      fun state => remote.stateObserver.update state
  given : haveJson msg = .ok (item.bind Item.toDescription)

theorem clientReads_state (state : NegotiationState) (d : Description) :
    ClientReads (stateMessage state d) (some (.state state)) where
  observed remote := by
    cases state <;> exact ⟨_, rfl, rfl⟩
  given := rfl

theorem clientReads_error : ClientReads errorMessage (some (.state .error)) where
  observed _ := ⟨_, rfl, rfl⟩
  given := rfl

theorem clientReads_description (d : Description) :
    ClientReads (sdpMessage d) (some (.description d)) where
  observed remote := ⟨remote, by cases d <;> rfl, rfl⟩
  given := by cases d <;> rfl

theorem clientReads_candidate (ice : IceCandidate) (tells : ice.sdpMLineIndex.isSome = true) :
    ClientReads (.object [("ice".toList, ice.json)]) none where
  observed remote := ⟨remote, rfl, rfl⟩
  given := by
    obtain ⟨candidate, mid, index⟩ := ice
    obtain ⟨line, rfl⟩ := Option.isSome_iff_exists.mp tells
    rfl

/-! ## What is on its way to the page -/

/-- What was received and what is on its way is what was sent; a candidate comes after a
description. -/
inductive Arrives : List Item → List Item → List Item → Prop where
  | nil (sent) : Arrives sent [] sent
  | candidate {received items sent d} (told : .description d ∈ received)
      (later : Arrives received items sent) : Arrives received (.candidate :: items) sent
  | item {received items sent} (item) (plain : item ≠ .candidate)
      (later : Arrives (received ++ [item]) items sent) :
      Arrives received (item :: items) sent

/-- What follows a prefix stands at its length. -/
theorem next_of_beginning {α : Type} {before whole : List α} {x : α}
    (next : before ++ [x] <+: whole) : whole[before.length]? = some x := by
  obtain ⟨later, rfl⟩ := next
  rw [List.append_assoc, List.getElem?_append_right (Nat.le_refl _), Nat.sub_self]
  rfl

namespace Arrives

variable {received items sent : List Item} {item : Item} {d : Description}

theorem send (arrives : Arrives received items sent) (plain : item ≠ .candidate) :
    Arrives received (items ++ [item]) (sent ++ [item]) := by
  induction arrives with
  | nil sent => exact .item item plain (.nil _)
  | candidate told _ ih => exact .candidate told ih
  | item first other _ ih => exact .item first other ih

theorem sendCandidate (arrives : Arrives received items sent) (told : .description d ∈ sent) :
    Arrives received (items ++ [.candidate]) sent := by
  induction arrives with
  | nil sent => exact .candidate told (.nil _)
  | candidate earlier _ ih => exact .candidate earlier (ih told)
  | item first other _ ih => exact .item first other (ih told)

theorem arrived (arrives : Arrives received [] sent) : received = sent := by
  cases arrives
  rfl

theorem isPrefix (arrives : Arrives received items sent) : received <+: sent := by
  induction arrives with
  | nil sent => exact List.prefix_rfl
  | candidate _ _ ih => exact ih
  | item first _ _ ih => exact (List.prefix_append _ _).trans ih

end Arrives

/-! ## How far the ends are -/

/-- The client, and what it has told the page and been told. -/
structure ClientView where
  connection : PeerConnection
  callback : List Statement
  /-- Its own negotiation states. -/
  history : List NegotiationState
  commands : List Item
  received : List Description

namespace ClientView

def new : ClientView := ⟨.new, [], [], [], []⟩

def run (c : ClientView) : Statement → ClientView
  | .updateNegotiationState state => { c with history := c.history ++ [state] }
  | .setLocalDescription d => { c with connection := c.connection.chain (.setLocalDescription d) }
  | .fireCreated d => { c with commands := c.commands ++ [.description d] }

def pcThread (generated : Text) (c : ClientView) : Option ClientView :=
  match c.callback with
  | statement :: rest => some ({ c with callback := rest }.run statement)
  | [] =>
      (c.connection.advance generated).map fun (op, result, pc) =>
        { c with connection := pc, callback := changeFunc op result }

/-- The page sends a description. -/
def hear (d : Description) (c : ClientView) : ClientView :=
  { c with
    connection := c.connection.chain (.setRemoteDescription d)
    received := c.received ++ [d] }

/-- The scenario asks one of the ends for a description. -/
def ask (op : Operation) (c : ClientView) : Which → ClientView
  | .local => { c with connection := c.connection.chain op }
  | .remote => { c with commands := c.commands ++ [.asks op] }

theorem history_prefix {generated : Text} {c c' : ClientView}
    (runs : c.pcThread generated = some c') : c.history <+: c'.history := by
  rw [pcThread] at runs
  split at runs
  · next statement rest _ =>
      cases runs
      cases statement with
      | updateNegotiationState state => exact List.prefix_append _ _
      | setLocalDescription d => exact List.prefix_rfl
      | fireCreated d => exact List.prefix_rfl
  · obtain ⟨_, _, rfl⟩ := Option.map_eq_some_iff.mp runs
    exact List.prefix_rfl

end ClientView

/-- The page, and what it has been told and has reported. -/
structure PageView where
  connection : Option PeerConnection
  waiting : List Operation
  received : List Item
  reports : List Item

/-- What `settled` tells the client. -/
def reported : Operation → Result → List Item
  | .createOffer, .created d | .createAnswer, .created d => [.state (stateCreated d)]
  | .createOffer, _ | .createAnswer, _ => [.state .error]
  | .setLocalDescription d, .set => [.state (stateSet d), .description d]
  | .setLocalDescription _, _ => []
  | .setRemoteDescription d, .set => [.state (stateSet d)]
  | .setRemoteDescription _, _ => [.state .error]

namespace PageView

def load : PageView := ⟨none, [], [], []⟩

/-- The page is told something other than a candidate. -/
def take (p : PageView) (item : Item) : PageView :=
  let pc := p.connection.getD .new
  match item with
  | .asks op =>
      { p with
        connection := some pc
        waiting := p.waiting ++ [op]
        received := p.received ++ [item] }
  | .description d =>
      { p with
        connection := some (pc.chain (.setRemoteDescription d))
        received := p.received ++ [item] }
  | _ => { p with received := p.received ++ [item] }

/-- The stream is there. -/
def runWaiting (p : PageView) : Option PageView :=
  match p.connection, p.waiting with
  | some pc, op :: rest => some { p with connection := some (pc.chain op), waiting := rest }
  | _, _ => none

def operate (generated : Text) (p : PageView) : Option PageView :=
  match p.connection with
  | none => none
  | some pc =>
      (pc.advance generated).map fun (op, result, pc) =>
        { p with
          connection := some (TestPage.settled pc op result).1
          reports := p.reports ++ reported op result }

theorem reports_take (p : PageView) (item : Item) : p.reports <+: (p.take item).reports := by
  cases item <;> exact List.prefix_rfl

theorem reports_runWaiting {p p' : PageView} (runs : p.runWaiting = some p') :
    p.reports <+: p'.reports := by
  rw [runWaiting] at runs
  split at runs
  · cases runs
    exact List.prefix_rfl
  · cases runs

theorem reports_operate {generated : Text} {p p' : PageView}
    (operates : p.operate generated = some p') : p.reports <+: p'.reports := by
  rw [operate] at operates
  split at operates
  · cases operates
  · obtain ⟨_, _, rfl⟩ := Option.map_eq_some_iff.mp operates
    exact List.prefix_append _ _

end PageView

theorem length_settled (pc : PeerConnection) (op : Operation) (result : Result) :
    (TestPage.settled pc op result).2.length = (reported op result).length := by
  cases op <;> cases result <;> rfl

/-- What `settled` sends is what it tells. -/
theorem bears_settled {messages : List Json} {items : List Item}
    (bears : Bears ClientReads messages items) (pc : PeerConnection) (op : Operation)
    (result : Result) :
    Bears ClientReads (messages ++ (TestPage.settled pc op result).2)
      (items ++ reported op result) := by
  have one {msg : Json} {item : Item} (reads : ClientReads msg (some item)) :
      Bears ClientReads (messages ++ [msg]) (items ++ [item]) := bears.send reads
  cases op with
  | createOffer | createAnswer =>
      cases result with
      | created d => exact one (clientReads_state _ d)
      | set | failed => exact one clientReads_error
  | setLocalDescription d =>
      cases result with
      | set =>
          have both := (one (clientReads_state (stateSet d) d)).send (clientReads_description d)
          rwa [List.append_assoc, List.append_assoc] at both
      | created _ | failed =>
          rw [reported, TestPage.settled, List.append_nil, List.append_nil]
          · exact bears
          all_goals simp
  | setRemoteDescription d =>
      cases result with
      | set => exact one (clientReads_state _ d)
      | created _ | failed => exact one clientReads_error

end GstWebrtc.Check
