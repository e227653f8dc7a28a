import GstWebrtc.Base.Machine
import GstWebrtc.Base.PyJson
import GstWebrtc.Check.DataChannels

/-!
# Data channels of the test page

The page reports its data channels by texts that name a channel by its label, and
`on_json` keeps an observer for each channel that was announced.  A report goes
to the first observer whose ident is the label.  The observer of the page has the
channels that the waits of a `WebRTCObserver` are about.
-/

namespace GstWebrtc.Check

open GstWebrtc.Base

/-! ## The observers -/

/-- `Enum(value)`: the member that has the value. -/
def enumMember {Member : Type} (members : List Member) (value : Member → Text) (v : Json) :
    Except PyError Member :=
  match members.find? fun member => v.isText (value member) with
  | some member => .ok member
  | none => .error .valueError

inductive NegotiationState where
  | new
  | error
  | offerCreated
  | answerCreated
  | offerSet
  | answerSet
  deriving DecidableEq

namespace NegotiationState

def value : NegotiationState → Text
  | new => "new".toList
  | error => "error".toList
  | offerCreated => "offer-created".toList
  | answerCreated => "answer-created".toList
  | offerSet => "offer-set".toList
  | answerSet => "answer-set".toList

def ofValue (v : Json) : Except PyError NegotiationState :=
  enumMember [new, error, offerCreated, answerCreated, offerSet, answerSet] value v

end NegotiationState

inductive DataChannelState where
  | new
  | open
  | closed
  | error
  deriving DecidableEq

namespace DataChannelState

def value : DataChannelState → Text
  | new => "new".toList
  | .open => "open".toList
  | closed => "closed".toList
  | error => "error".toList

def ofValue (v : Json) : Except PyError DataChannelState :=
  enumMember [new, .open, closed, error] value v

end DataChannelState

structure RemoteDataChannelObserver where
  ident : Json
  location : Json
  stateObserver : StateObserver DataChannelState
  messageObserver : StateObserver Json

namespace RemoteDataChannelObserver

def new (ident location : Json) : RemoteDataChannelObserver where
  ident := ident
  location := location
  stateObserver := ⟨some .new, []⟩
  messageObserver := ⟨none, []⟩

def updateState (newState : DataChannelState) (self : RemoteDataChannelObserver) :
    RemoteDataChannelObserver :=
  { self with stateObserver := self.stateObserver.update newState }

def gotMessage (msg : Json) (self : RemoteDataChannelObserver) : RemoteDataChannelObserver :=
  { self with messageObserver := self.messageObserver.update msg }

/-- `self.ident == ident`, for idents that are strings. -/
def hasIdent (ident : Json) (self : RemoteDataChannelObserver) : Bool :=
  match ident with
  | .string text => self.ident.isText text
  | _ => false

end RemoteDataChannelObserver

/-- A signal of a `RemoteWebRTCObserver` that was fired. -/
inductive Fired where
  /-- `on_offer_created` and its siblings. -/
  | description (state : NegotiationState) (description : Json)
  | dataChannel (position : Nat)

structure RemoteWebRTCObserver where
  stateObserver : StateObserver NegotiationState
  dataChannels : List RemoteDataChannelObserver
  dataChannelsObserver : StateObserver Json
  fired : List Fired

namespace RemoteWebRTCObserver

def new : RemoteWebRTCObserver := ⟨⟨some .new, []⟩, [], ⟨none, []⟩, []⟩

/-- `find_channel`, with the position of the observer that it returns. -/
def findChannel (ident : Json) (self : RemoteWebRTCObserver) : Option Nat :=
  self.dataChannels.findIdx? (RemoteDataChannelObserver.hasIdent ident)

def addChannel (channel : RemoteDataChannelObserver) (self : RemoteWebRTCObserver) :
    RemoteWebRTCObserver :=
  { self with
    dataChannels := self.dataChannels ++ [channel]
    dataChannelsObserver := self.dataChannelsObserver.update channel.ident
    fired := self.fired ++ [.dataChannel self.dataChannels.length] }

def updateChannel (position : Nat)
    (f : RemoteDataChannelObserver → RemoteDataChannelObserver) (self : RemoteWebRTCObserver) :
    RemoteWebRTCObserver :=
  { self with dataChannels := self.dataChannels.modify position f }

/-- The branch `'STATE' in msg`, with the exception that it raises, if any. -/
def onState (msg : Json) (self : RemoteWebRTCObserver) : RemoteWebRTCObserver × Option PyError :=
  match msg.getItem "STATE".toList >>= NegotiationState.ofValue with
  | .error exn => (self, some exn)
  | .ok state =>
      let self := { self with stateObserver := self.stateObserver.update state }
      match state with
      | .new | .error => (self, none)
      | _ =>
          match msg.getItem "description".toList with
          | .error exn => (self, some exn)
          | .ok description =>
              ({ self with fired := self.fired ++ [.description state description] }, none)

def onDataNew (msg : Json) (self : RemoteWebRTCObserver) : Except PyError RemoteWebRTCObserver := do
  let new ← msg.getItem "DATA-NEW".toList
  let ident ← new.getItem "id".toList
  let location ← new.getItem "location".toList
  return self.addChannel (.new ident location)

def onDataState (msg : Json) (self : RemoteWebRTCObserver) :
    Except PyError RemoteWebRTCObserver := do
  let ident ← msg.getItem "id".toList
  match self.findChannel ident with
  -- `None` has no `_update_state`
  | none => .error .attributeError
  | some position =>
      let state ← DataChannelState.ofValue (← msg.getItem "DATA-STATE".toList)
      return self.updateChannel position (RemoteDataChannelObserver.updateState state)

def onDataMsg (msg : Json) (self : RemoteWebRTCObserver) : Except PyError RemoteWebRTCObserver := do
  let ident ← msg.getItem "id".toList
  match self.findChannel ident with
  | none => .error .attributeError
  | some position =>
      let data ← msg.getItem "DATA-MSG".toList
      return self.updateChannel position (RemoteDataChannelObserver.gotMessage data)

/-- What the branches do that raise before they change anything. -/
def onDataChannel (msg : Json) (self : RemoteWebRTCObserver) :
    Except PyError RemoteWebRTCObserver := do
  if ← msg.contains "DATA-NEW".toList then self.onDataNew msg
  else if ← msg.contains "DATA-STATE".toList then self.onDataState msg
  else if ← msg.contains "DATA-MSG".toList then self.onDataMsg msg
  else return self

/-- `on_json`, with the exception that it raises, if any. -/
def onJson (msg : Json) (self : RemoteWebRTCObserver) : RemoteWebRTCObserver × Option PyError :=
  match msg.contains "STATE".toList with
  | .error exn => (self, some exn)
  | .ok true => self.onState msg
  | .ok false =>
      match self.onDataChannel msg with
      | .error exn => (self, some exn)
      | .ok after => (after, none)

end RemoteWebRTCObserver

/-! ## The page -/

/-- The `data` of a message event. -/
inductive Payload where
  | text (text : Text)
  /-- A `Blob` or an `ArrayBuffer`. -/
  | binary (bytes : List UInt8)

/-- What `JSON.stringify` makes of the data: binary data has no members of its own. -/
def Payload.toJson : Payload → Json
  | .text data => .string data
  | .binary _ => .object []

/-- An event of a data channel, and of an error event its own members. -/
inductive ChannelEvent where
  | open
  | message (data : Payload)
  | error (members : List (Text × Json))
  | close

section Handlers

variable (label : Text)

def dataNew (location : Text) : Json :=
  .object [("DATA-NEW".toList,
    .object [("id".toList, .string label), ("location".toList, .string location)])]

def dataState (state : Json) : Json :=
  .object [("DATA-STATE".toList, state), ("id".toList, .string label)]

def handleDataChannelMessageReceived (data : Payload) : Json :=
  .object [("DATA-MSG".toList, data.toJson), ("id".toList, .string label)]

def handleDataChannelOpen : Json := dataState label (.string "open".toList)

/-- The state is the event itself; `event` is the current event of the window. -/
def handleDataChannelError (members : List (Text × Json)) : Json :=
  dataState label (.object members)

def handleDataChannelClose : Json := dataState label (.string "closed".toList)

/-- The text that the handler of an event sends. -/
def ChannelEvent.handle : ChannelEvent → Json
  | .open => handleDataChannelOpen label
  | message data => handleDataChannelMessageReceived label data
  | error members => handleDataChannelError label members
  | close => handleDataChannelClose label

end Handlers

/-- What happens on the page; a channel is known by the position of its creation. -/
inductive PageEvent where
  | addDataChannel (label : Text)
  | onDataChannel (label : Text)
  | fires (channel : Nat) (event : ChannelEvent)

/-- The labels of `channels`. -/
structure Page where
  channels : List Text

/-- The text that is sent at an event, if there is such a channel. -/
def Page.step (page : Page) : PageEvent → Option (Page × Json)
  | .addDataChannel label => some (⟨page.channels ++ [label]⟩, dataNew label "local".toList)
  | .onDataChannel label => some (⟨page.channels ++ [label]⟩, dataNew label "remote".toList)
  | .fires channel event => page.channels[channel]?.map fun label => (page, event.handle label)

/-! ## What is documented -/

/-- What happened to one channel. -/
structure Record where
  label : Text
  location : Text
  states : List DataChannelState
  messages : List Payload

def Record.push (event : ChannelEvent) (record : Record) : Record :=
  match event with
  | .open => { record with states := record.states ++ [.open] }
  | .message data => { record with messages := record.messages ++ [data] }
  | .error _ => { record with states := record.states ++ [.error] }
  | .close => { record with states := record.states ++ [.closed] }

def PageEvent.record (records : List Record) : PageEvent → List Record
  | addDataChannel label => records ++ [⟨label, "local".toList, [], []⟩]
  | onDataChannel label => records ++ [⟨label, "remote".toList, [], []⟩]
  | fires channel event => records.modify channel (Record.push event)

/-- The JSON value that is the data unchanged; there is none for binary data. -/
def Payload.unchanged : Payload → Option Json
  | .text data => some (.string data)
  | .binary _ => none

/-- The observer has recorded what happened to the channel. -/
structure Observed (record : Record) (channel : RemoteDataChannelObserver) : Prop where
  ident : channel.ident = .string record.label
  location : channel.location = .string record.location
  state : channel.stateObserver.targetAttr = some (record.states.getLast?.getD .new)
  states : channel.stateObserver.previousStates = record.states
  messages : channel.messageObserver.previousStates.map some =
    record.messages.map Payload.unchanged

/-- The page, the observers of its texts, and the history of each channel. -/
structure Link where
  page : Page
  remote : RemoteWebRTCObserver
  /-- The exception that has ended the loop of the signalling client. -/
  raised : Option PyError
  records : List Record

namespace Link

def receive (link : Link) (msg : Json) : RemoteWebRTCObserver × Option PyError :=
  match link.raised with
  | some exn => (link.remote, some exn)
  | none => link.remote.onJson msg

/-- The texts are delivered in order: the page does not depend on when that is. -/
def step (link : Link) (event : PageEvent) : Option Link :=
  (link.page.step event).map fun sent =>
    ⟨sent.1, (link.receive sent.2).1, (link.receive sent.2).2, event.record link.records⟩

end Link

def link : Machine Link PageEvent := ⟨⟨⟨[]⟩, .new, none, []⟩, Link.step⟩

/-- Every text was accepted, and each observer has recorded what happened to its own channel. -/
structure Recorded (w : Link) : Prop where
  accepted : w.raised = none
  count : w.remote.dataChannels.length = w.records.length
  each : ∀ (i : Nat) (record : Record) (channel : RemoteDataChannelObserver),
    w.records[i]? = some record → w.remote.dataChannels[i]? = some channel →
      Observed record channel

/-- An event that `on_json` can record: no error and no binary message. -/
def ChannelEvent.Recordable : ChannelEvent → Prop
  | message (.binary _) | error _ => False
  | _ => True

/-- The event can be recorded, and no earlier channel has the label of its channel. -/
def Addressed (w : Link) : PageEvent → Prop
  | .fires channel event => ∀ label, w.page.channels[channel]? = some label →
      event.Recordable ∧ label ∉ w.page.channels.take channel
  | _ => True

/-! ## What `on_json` does with the texts -/

/-- What the observer of the channel is made to do by the text of an event. -/
def ChannelEvent.update : ChannelEvent → RemoteDataChannelObserver → RemoteDataChannelObserver
  | .open => RemoteDataChannelObserver.updateState .open
  | message data => RemoteDataChannelObserver.gotMessage data.toJson
  | error _ => id
  | close => RemoteDataChannelObserver.updateState .closed

section Texts

variable (self : RemoteWebRTCObserver) (label : Text)

theorem onJson_dataNew (location : Text) :
    self.onJson (dataNew label location) =
      (self.addChannel (.new (.string label) (.string location)), none) := rfl

theorem onDataChannel_dataState (state : Json) :
    self.onDataChannel (dataState label state) = self.onDataState (dataState label state) := rfl

theorem onDataState_eq {position : Nat} (found : self.findChannel (.string label) = some position)
    (state : Json) : self.onDataState (dataState label state) =
      (DataChannelState.ofValue state).map fun newState =>
        self.updateChannel position (RemoteDataChannelObserver.updateState newState) := by
  have ident : (dataState label state).getItem "id".toList = .ok (.string label) := rfl
  have value : (dataState label state).getItem "DATA-STATE".toList = .ok state := rfl
  simp only [RemoteWebRTCObserver.onDataState, ident, value, bind, Except.bind, found]
  rfl

theorem onJson_dataState {position : Nat} (found : self.findChannel (.string label) = some position)
    {state : Json} {newState : DataChannelState}
    (known : DataChannelState.ofValue state = .ok newState) :
    self.onJson (dataState label state) =
      (self.updateChannel position (RemoteDataChannelObserver.updateState newState), none) := by
  have handled := onDataState_eq self label found state
  rw [known] at handled
  have outside : (dataState label state).contains "STATE".toList = .ok false := rfl
  simp only [RemoteWebRTCObserver.onJson, outside, onDataChannel_dataState, handled]
  rfl

/-- A value that is no string is no state. -/
theorem onJson_error {position : Nat} (found : self.findChannel (.string label) = some position)
    (members : List (Text × Json)) :
    self.onJson (handleDataChannelError label members) = (self, some .valueError) := by
  have handled := onDataState_eq self label found (.object members)
  have outside : (dataState label (.object members)).contains "STATE".toList = .ok false := rfl
  simp only [handleDataChannelError, RemoteWebRTCObserver.onJson, outside,
    onDataChannel_dataState, handled]
  rfl

theorem onJson_message {position : Nat} (found : self.findChannel (.string label) = some position)
    (data : Payload) : self.onJson (handleDataChannelMessageReceived label data) =
      (self.updateChannel position (RemoteDataChannelObserver.gotMessage data.toJson), none) := by
  have ident : (handleDataChannelMessageReceived label data).getItem "id".toList =
      .ok (.string label) := rfl
  have value : (handleDataChannelMessageReceived label data).getItem "DATA-MSG".toList =
      .ok data.toJson := rfl
  have handled : self.onDataMsg (handleDataChannelMessageReceived label data) =
      .ok (self.updateChannel position (RemoteDataChannelObserver.gotMessage data.toJson)) := by
    simp only [RemoteWebRTCObserver.onDataMsg, ident, value, bind, Except.bind, found]
    rfl
  have outside : (handleDataChannelMessageReceived label data).contains "STATE".toList =
      .ok false := rfl
  have branch : self.onDataChannel (handleDataChannelMessageReceived label data) =
      self.onDataMsg (handleDataChannelMessageReceived label data) := rfl
  simp only [RemoteWebRTCObserver.onJson, outside, branch, handled]

/-- A report for a channel that was not announced finds no observer. -/
theorem onJson_unknown (unknown : self.findChannel (.string label) = none)
    (event : ChannelEvent) : self.onJson (event.handle label) = (self, some .attributeError) := by
  have state (value : Json) : self.onJson (dataState label value) =
      (self, some .attributeError) := by
    have ident : (dataState label value).getItem "id".toList = .ok (.string label) := rfl
    have outside : (dataState label value).contains "STATE".toList = .ok false := rfl
    simp only [RemoteWebRTCObserver.onJson, outside, onDataChannel_dataState,
      RemoteWebRTCObserver.onDataState, ident, bind, Except.bind, unknown]
  cases event with
  | «open» => exact state _
  | message data =>
      have ident : (handleDataChannelMessageReceived label data).getItem "id".toList =
          .ok (.string label) := rfl
      have outside : (handleDataChannelMessageReceived label data).contains "STATE".toList =
          .ok false := rfl
      have branch : self.onDataChannel (handleDataChannelMessageReceived label data) =
          self.onDataMsg (handleDataChannelMessageReceived label data) := rfl
      simp only [ChannelEvent.handle, RemoteWebRTCObserver.onJson, outside, branch,
        RemoteWebRTCObserver.onDataMsg, ident, bind, Except.bind, unknown]
  | error members => exact state _
  | close => exact state _

end Texts

/-! ## Which observer is updated -/

section Lists

variable {α β : Type} {R : α → β → Prop} {l : List α} {m : List β} {f : α → α} {g : β → β}
  {i j : Nat}

/--
Two related lists, each with one element changed, stay related exactly when the
changed elements are at one position and are related.
-/
theorem modify_related_iff (related : ∀ (k : Nat) (x : α) (y : β), l[k]? = some x →
      m[k]? = some y → R x y) (changes : ∀ x y, R x y → ¬ R (f x) y) {x : α} {y : β}
    (here : l[i]? = some x) (there : m[i]? = some y) :
    (∀ (k : Nat) (x : α) (y : β), (l.modify i f)[k]? = some x → (m.modify j g)[k]? = some y →
      R x y) ↔ i = j ∧ R (f x) (g y) := by
  constructor
  · intro still
    have changed : (l.modify i f)[i]? = some (f x) := by
      rw [List.getElem?_modify_eq, here]
      rfl
    by_cases same : i = j
    · subst same
      refine ⟨rfl, still i (f x) (g y) changed ?_⟩
      rw [List.getElem?_modify_eq, there]
      rfl
    · refine absurd (still i (f x) y changed ?_) (changes x y (related i x y here there))
      rw [List.getElem?_modify_ne _ _ (Ne.symm same), there]
  · rintro ⟨rfl, result⟩ k x' y' first second
    by_cases self : i = k
    · subst self
      rw [List.getElem?_modify_eq, here] at first
      rw [List.getElem?_modify_eq, there] at second
      cases first
      cases second
      exact result
    · rw [List.getElem?_modify_ne _ _ self] at first second
      exact related k x' y' first second

/-- Two related lists of one length stay related when related elements are added. -/
theorem concat_related (related : ∀ (k : Nat) (x : α) (y : β), l[k]? = some x →
      m[k]? = some y → R x y) (count : m.length = l.length) {x : α} {y : β} (added : R x y) :
    ∀ (k : Nat) (x' : α) (y' : β), (l ++ [x])[k]? = some x' → (m ++ [y])[k]? = some y' →
      R x' y' := by
  intro k x' y' first second
  rcases Nat.lt_trichotomy k l.length with before | here | after
  · rw [List.getElem?_append_left before] at first
    rw [List.getElem?_append_left (count ▸ before)] at second
    exact related k x' y' first second
  · subst here
    rw [List.getElem?_concat_length] at first
    rw [← count, List.getElem?_concat_length] at second
    cases first
    cases second
    exact added
  · rw [List.getElem?_eq_none_iff.mpr (by rw [List.length_append]; exact after)] at first
    cases first

/-- A text that is in a list has a first position there. -/
theorem exists_first {labels : List Text} {label : Text} (here : labels[i]? = some label) :
    ∃ position, labels.findIdx? (fun other => decide (other = label)) = some position ∧
      (i = position ↔ label ∉ labels.take i) := by
  induction labels generalizing i with
  | nil => cases here
  | cons first rest ih =>
      rw [List.findIdx?_cons]
      by_cases same : first = label
      · rw [decide_eq_true same, if_pos rfl]
        refine ⟨0, rfl, ?_⟩
        cases i with
        | zero => exact iff_of_true rfl List.not_mem_nil
        | succ i =>
            refine iff_of_false (Nat.succ_ne_zero i) (fun apart => apart ?_)
            rw [same]
            exact List.mem_cons_self
      · rw [decide_eq_false same, if_neg Bool.false_ne_true]
        cases i with
        | zero => exact absurd (Option.some.inj here) same
        | succ i =>
            obtain ⟨position, found, first⟩ := ih here
            refine ⟨position + 1, by rw [found]; rfl, ?_⟩
            rw [Nat.add_right_cancel_iff, first, List.take_succ_cons, List.mem_cons, not_or]
            exact (and_iff_right (Ne.symm same)).symm

end Lists

section Step

variable {w w' : Link} {event : PageEvent}

/-- The page and the histories know the same channels. -/
def Labelled (w : Link) : Prop := w.page.channels = w.records.map Record.label

theorem Record.label_push (event : ChannelEvent) (record : Record) :
    (record.push event).label = record.label := by
  cases event <;> rfl

theorem Labelled.step (labelled : Labelled w) (fires : link.step w event = some w') :
    Labelled w' := by
  obtain ⟨⟨page, msg⟩, sent, rfl⟩ := Option.map_eq_some_iff.mp fires
  rw [Labelled] at labelled ⊢
  cases event with
  | addDataChannel label =>
      cases sent
      simp only [PageEvent.record, List.map_append, labelled]
      rfl
  | onDataChannel label =>
      cases sent
      simp only [PageEvent.record, List.map_append, labelled]
      rfl
  | fires channel event =>
      obtain ⟨label, -, same⟩ := Option.map_eq_some_iff.mp sent
      cases same
      rw [labelled]
      refine List.ext_getElem? fun i => ?_
      rw [PageEvent.record, List.getElem?_map, List.getElem?_map, List.getElem?_modify]
      cases w.records[i]? with
      | none => split <;> rfl
      | some record =>
          split
          · exact congrArg some (record.label_push event).symm
          · rfl

theorem Recorded.exists_channel (recorded : Recorded w) {i : Nat} {record : Record}
    (here : w.records[i]? = some record) :
    ∃ channel, w.remote.dataChannels[i]? = some channel ∧ Observed record channel := by
  have inside := (List.getElem?_eq_some_iff.mp here).1
  have found := w.remote.dataChannels.getElem?_eq_getElem (recorded.count ▸ inside)
  exact ⟨_, found, recorded.each i record _ here found⟩

/-- The observer that `find_channel` returns is the first one with the label. -/
theorem Recorded.findChannel (recorded : Recorded w) (label : Text) :
    w.remote.findChannel (.string label) =
      (w.records.map Record.label).findIdx? fun other => decide (other = label) := by
  have idents : w.remote.dataChannels.map RemoteDataChannelObserver.ident =
      (w.records.map Record.label).map Json.string := by
    refine List.ext_getElem? fun i => ?_
    rw [List.getElem?_map, List.getElem?_map, List.getElem?_map]
    cases record : w.records[i]? with
    | none =>
        have short := List.getElem?_eq_none_iff.mp record
        rw [List.getElem?_eq_none_iff.mpr (recorded.count ▸ short)]
        rfl
    | some r =>
        obtain ⟨channel, found, observed⟩ := recorded.exists_channel record
        rw [found]
        exact congrArg some observed.ident
  have byIdent : w.remote.findChannel (.string label) =
      (w.remote.dataChannels.map RemoteDataChannelObserver.ident).findIdx?
        fun ident => ident.isText label := by
    rw [List.findIdx?_map]
    rfl
  rw [byIdent, idents, List.findIdx?_map]
  rfl

/-- An announcement is recorded by a new observer. -/
theorem Recorded.announce (recorded : Recorded w) (page : Page) (label location : Text) :
    Recorded ⟨page, (w.receive (dataNew label location)).1, (w.receive (dataNew label location)).2,
      w.records ++ [⟨label, location, [], []⟩]⟩ := by
  have accepted : w.receive (dataNew label location) =
      (w.remote.addChannel (.new (.string label) (.string location)), none) := by
    rw [Link.receive, recorded.accepted]
    exact onJson_dataNew w.remote label location
  rw [accepted]
  refine ⟨rfl, ?_, concat_related recorded.each recorded.count ⟨rfl, rfl, rfl, rfl, rfl⟩⟩
  rw [RemoteWebRTCObserver.addChannel, List.length_append, List.length_append, recorded.count]
  rfl

/-- What a channel reports makes a difference to its record. -/
theorem Observed.not_push {record : Record} {channel : RemoteDataChannelObserver}
    (observed : Observed record channel) (event : ChannelEvent) :
    ¬ Observed (record.push event) channel := by
  intro still
  have states := congrArg List.length (observed.states.symm.trans still.states)
  have messages := congrArg List.length (observed.messages.symm.trans still.messages)
  cases event <;> simp [Record.push] at states messages

theorem Observed.updateState {record : Record} {channel : RemoteDataChannelObserver}
    (observed : Observed record channel) (state : DataChannelState) :
    Observed { record with states := record.states ++ [state] } (channel.updateState state) where
  ident := observed.ident
  location := observed.location
  state := by
    rw [List.getLast?_concat]
    rfl
  states := congrArg (· ++ [state]) observed.states
  messages := observed.messages

/-- A report is recorded by the observer of its own channel, exactly when it can be recorded. -/
theorem Observed.push_iff {record : Record} {channel : RemoteDataChannelObserver}
    (observed : Observed record channel) (event : ChannelEvent) :
    Observed (record.push event) (event.update channel) ↔ event.Recordable := by
  cases event with
  | «open» => exact iff_of_true (observed.updateState .open) True.intro
  | message data =>
      have kept : (channel.messageObserver.previousStates ++ [data.toJson]).map some =
            (record.messages ++ [data]).map Payload.unchanged ↔
          some data.toJson = data.unchanged := by
        rw [List.map_append, List.map_append, observed.messages, List.append_cancel_left_eq]
        simp only [List.map_cons, List.map_nil, List.cons.injEq, and_true]
      cases data with
      | text data =>
          have ⟨ident, location, state, states, _⟩ := observed
          exact iff_of_true ⟨ident, location, state, states, kept.mpr rfl⟩ True.intro
      | binary bytes =>
          refine iff_of_false (fun after => ?_) id
          cases kept.mp after.messages
  | error members => exact iff_of_false (observed.not_push _) id
  | close => exact iff_of_true (observed.updateState .closed) True.intro

/-- A report that `on_json` accepts is recorded exactly when it goes to its own observer. -/
theorem Recorded.report_iff (recorded : Recorded w) {channel position : Nat} {label : Text}
    (here : (w.records.map Record.label)[channel]? = some label) (page : Page)
    (event : ChannelEvent) :
    Recorded ⟨page, w.remote.updateChannel position event.update, none,
        w.records.modify channel (Record.push event)⟩ ↔
      event.Recordable ∧ channel = position := by
  rw [List.getElem?_map] at here
  obtain ⟨record, atRecord, -⟩ := Option.map_eq_some_iff.mp here
  obtain ⟨own, atChannel, observed⟩ := recorded.exists_channel atRecord
  have result := observed.push_iff event
  have moved : _ ↔ channel = position ∧ Observed (record.push event) (event.update own) :=
    modify_related_iff recorded.each (fun _ _ observed => observed.not_push event)
      atRecord atChannel
  constructor
  · intro after
    obtain ⟨same, observed⟩ := moved.mp after.each
    exact ⟨result.mp observed, same⟩
  · rintro ⟨recordable, same⟩
    refine ⟨rfl, ?_, moved.mpr ⟨same, result.mpr recordable⟩⟩
    rw [RemoteWebRTCObserver.updateChannel, List.length_modify, List.length_modify]
    exact recorded.count

/-- Every text but that of an error is accepted by the observer that is found. -/
theorem ChannelEvent.accepted_or_error (event : ChannelEvent) (label : Text) :
    (∀ (self : RemoteWebRTCObserver) (position : Nat),
      self.findChannel (.string label) = some position →
        self.onJson (event.handle label) = (self.updateChannel position event.update, none)) ∨
    (∃ members, event = .error members) := by
  cases event with
  | «open» => exact .inl fun self _ found => onJson_dataState self label found rfl
  | message data => exact .inl fun self _ found => onJson_message self label found data
  | error members => exact .inr ⟨members, rfl⟩
  | close => exact .inl fun self _ found => onJson_dataState self label found rfl

/-- One event keeps the records exactly when it can be recorded and its channel can be found. -/
theorem Recorded.step_iff (labelled : Labelled w) (recorded : Recorded w)
    (fires : link.step w event = some w') : Recorded w' ↔ Addressed w event := by
  obtain ⟨⟨page, msg⟩, sent, rfl⟩ := Option.map_eq_some_iff.mp fires
  cases event with
  | addDataChannel label =>
      cases sent
      exact iff_of_true (recorded.announce _ label _) True.intro
  | onDataChannel label =>
      cases sent
      exact iff_of_true (recorded.announce _ label _) True.intro
  | fires channel event =>
      obtain ⟨label, here, same⟩ := Option.map_eq_some_iff.mp sent
      cases same
      have addressed : Addressed w (.fires channel event) ↔
          event.Recordable ∧ label ∉ w.page.channels.take channel := by
        simp only [Addressed, here, Option.some.injEq, forall_eq']
      obtain ⟨position, first, isFirst⟩ := exists_first here
      rw [addressed, ← isFirst]
      rw [labelled] at first here
      have found := (recorded.findChannel label).trans first
      have received : w.receive (event.handle label) = w.remote.onJson (event.handle label) := by
        rw [Link.receive, recorded.accepted]
      rw [received]
      rcases event.accepted_or_error label with accepts | ⟨members, rfl⟩
      · rw [accepts w.remote position found]
        exact recorded.report_iff here w.page event
      · refine iff_of_false (fun after => ?_) fun addressed => addressed.1
        have rejected := congrArg Prod.snd (onJson_error w.remote label found members)
        cases rejected.symm.trans after.accepted

end Step

theorem recorded_init : Recorded link.init :=
  ⟨rfl, rfl, fun _ _ _ none => by cases none⟩

/--
In every history of the page, the texts are accepted and recorded by the
observers of their own channels as long as every event is addressed, and not
after the first one that is not.
-/
theorem reports_recorded_iff (events : List PageEvent) :
    link.Throughout Recorded link.init events ↔ link.Along Addressed link.init events := by
  refine Machine.throughout_iff_along Labelled (fun _ _ _ => Labelled.step)
    (fun _ _ _ labelled recorded => recorded.step_iff labelled) ?_ events rfl recorded_init
  intro w event disabled
  cases event with
  | addDataChannel label => cases disabled
  | onDataChannel label => cases disabled
  | fires channel event =>
      intro label here
      have none := Option.map_eq_none_iff.mp (Option.map_eq_none_iff.mp disabled)
      cases here.symm.trans none

/-- The error of a channel is reported by the event instead of the word, and is not accepted. -/
theorem error_not_recorded : ¬ link.Throughout Recorded link.init
    [.addDataChannel "chat".toList, .fires 0 (.error [("isTrusted".toList, .boolean true)])] := by
  intro throughout
  have announced := throughout.2 _ rfl
  have failed : Recorded _ := announced.2 _ rfl
  have raised : (none : Option PyError) = some .valueError := failed.accepted.symm
  cases raised

/-! ## The channels that a wait looks for -/

/-- A `WebRTCObserver` with the same channels, and the same idents for its waits. -/
structure Shows (remote : RemoteWebRTCObserver) (base : WebRTCObserver) : Prop where
  listed : remote.dataChannels.map (fun c => (c.ident, c.location)) =
    base.dataChannels.map fun c => (.string c.ident, .string c.location)
  kept : remote.dataChannelsObserver.previousStates =
    base.dataChannelsObserver.previousStates.map .string

namespace Shows

variable {remote : RemoteWebRTCObserver} {base : WebRTCObserver}

theorem addChannel (same : Shows remote base) (label location : Text) :
    Shows (remote.addChannel (.new (.string label) (.string location)))
      (base.addChannel ⟨label, location⟩) where
  listed := by
    simp only [RemoteWebRTCObserver.addChannel, WebRTCObserver.addChannel, List.map_append,
      same.listed]
    rfl
  kept := by
    simp only [RemoteWebRTCObserver.addChannel, WebRTCObserver.addChannel, StateObserver.update,
      List.map_append, same.kept]
    rfl

theorem updateChannel (same : Shows remote base) (position : Nat) (event : ChannelEvent) :
    Shows (remote.updateChannel position event.update) base where
  listed := by
    have unchanged : ∀ c : RemoteDataChannelObserver,
        ((event.update c).ident, (event.update c).location) = (c.ident, c.location) := by
      intro c
      cases event <;> rfl
    rw [← same.listed]
    refine List.ext_getElem? fun i => ?_
    rw [RemoteWebRTCObserver.updateChannel, List.getElem?_map, List.getElem?_map,
      List.getElem?_modify]
    cases remote.dataChannels[i]? with
    | none => split <;> rfl
    | some c =>
        split
        · exact congrArg some (unchanged c)
        · rfl
  kept := same.kept

/-- A report adds no channel, whether it is accepted or not. -/
theorem report (same : Shows remote base) (event : ChannelEvent) (label : Text) :
    Shows (remote.onJson (event.handle label)).1 base := by
  cases found : remote.findChannel (.string label) with
  | none =>
      rw [onJson_unknown remote label found]
      exact same
  | some position =>
      rcases event.accepted_or_error label with accepts | ⟨members, rfl⟩
      · rw [accepts remote position found]
        exact same.updateChannel position event
      · rw [ChannelEvent.handle, onJson_error remote label found]
        exact same

/-- `find_channel` finds the same channel. -/
theorem findChannel (same : Shows remote base) (label : Text) :
    base.findChannel label =
      (remote.findChannel (.string label)).bind fun position => base.dataChannels[position]? := by
  have byPair : remote.findChannel (.string label) =
      (remote.dataChannels.map fun c => (c.ident, c.location)).findIdx?
        fun pair => pair.1.isText label := by
    rw [List.findIdx?_map]
    rfl
  rw [byPair, same.listed, List.findIdx?_map]
  exact List.find?_eq_bind_findIdx?_getElem?

end Shows

/-- The observer after a call of `add_channel` for each channel of the log. -/
def afterAdding (log : List DataChannel) : WebRTCObserver :=
  log.foldl (fun base channel => channels.perform channel base) channels.start

theorem Shows.step {w w' : Link} {event : PageEvent} {log : List DataChannel}
    (same : Shows w.remote (afterAdding log)) (fires : link.step w event = some w') :
    ∃ log, Shows w'.remote (afterAdding log) := by
  obtain ⟨⟨page, msg⟩, sent, rfl⟩ := Option.map_eq_some_iff.mp fires
  simp only [Link.receive]
  cases raised : w.raised with
  | some exn => exact ⟨log, same⟩
  | none =>
      have announced (label location : Text) :
          Shows (w.remote.onJson (dataNew label location)).1
            (afterAdding (log ++ [(⟨label, location⟩ : DataChannel)])) := by
        rw [onJson_dataNew, afterAdding, List.foldl_concat]
        exact same.addChannel label location
      cases event with
      | addDataChannel label =>
          cases sent
          exact ⟨_, announced label _⟩
      | onDataChannel label =>
          cases sent
          exact ⟨_, announced label _⟩
      | fires channel event =>
          obtain ⟨label, -, sent⟩ := Option.map_eq_some_iff.mp sent
          cases sent
          exact ⟨log, same.report event label⟩

/-- The observer of the page is one that the waits for channels are about. -/
theorem link_shows {w : Link} (run : link.Reachable Machine.anyAction w) :
    ∃ log, Shows w.remote (afterAdding log) := by
  induction run with
  | refl => exact ⟨[], rfl, rfl⟩
  | step before permitted fires ih =>
      obtain ⟨log, same⟩ := ih
      exact same.step fires

end GstWebrtc.Check
