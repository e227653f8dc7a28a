import GstWebrtc.Base.PyJson

/-!
# The Python client

`WebRTCClient` of `webrtc_sendrecv.py` from the moment it is connected.  A
method gives the client after it or the exception that it raises; none of them
changes anything before it raises.  `json.loads` is a parameter.
-/

namespace GstWebrtc.Sendrecv.PyClient

open GstWebrtc.Base GstWebrtc.Base.PyText

inductive GstState where
  | null
  | playing
  deriving DecidableEq

/-- A signal that is emitted on `webrtcbin`. -/
inductive Signal where
  | setRemoteDescription (answer : Text)
  | addIceCandidate (sdpMLineIndex candidate : Json)

/-- The websocket connection. -/
inductive Conn where
  | opened
  | closed
  deriving DecidableEq

structure WebRTCClient where
  peerId : Text
  conn : Option Conn
  /-- The pipeline, by its number among those that were launched. -/
  pipe : Option Nat
  /-- The element `sendrecv` of a pipeline, by the number of the pipeline. -/
  webrtc : Option Nat
  pipelines : List GstState
  emitted : List (Nat × Signal)
  sent : List Text

namespace WebRTCClient

/-- `await self.conn.send(...)`. -/
def send (self : WebRTCClient) (text : Text) : Except PyError WebRTCClient :=
  match self.conn with
  | some .opened => .ok { self with sent := self.sent ++ [text] }
  | some .closed => .error .connectionClosed
  | none => .error .attributeError

def setupCall (self : WebRTCClient) : Except PyError WebRTCClient :=
  self.send ("SESSION ".toList ++ self.peerId)

def startPipeline (self : WebRTCClient) : WebRTCClient :=
  { self with
    pipe := some self.pipelines.length
    webrtc := some self.pipelines.length
    pipelines := self.pipelines ++ [.playing] }

def emit (self : WebRTCClient) (element : Nat) (signal : Signal) : WebRTCClient :=
  { self with emitted := self.emitted ++ [(element, signal)] }

def handleSdp (loads : Text → Except PyError Json) (self : WebRTCClient) (message : Text) :
    Except PyError WebRTCClient :=
  match self.webrtc with
  | none => .error .assertionError
  | some element => do
      let msg ← loads message
      if ← msg.contains "sdp".toList then
        let sdp ← msg.getItem "sdp".toList
        let type ← sdp.getItem "type".toList
        if type.isText "answer".toList then
          let text ← (← sdp.getItem "sdp".toList).encode
          return self.emit element (.setRemoteDescription text)
        else
          throw .assertionError
      else if ← msg.contains "ice".toList then
        let ice ← msg.getItem "ice".toList
        let candidate ← ice.getItem "candidate".toList
        let sdpMLineIndex ← ice.getItem "sdpMLineIndex".toList
        return self.emit element (.addIceCandidate sdpMLineIndex candidate)
      else
        return self

def closePipeline (self : WebRTCClient) : Except PyError WebRTCClient :=
  match self.pipe with
  | none => .error .attributeError
  | some pipe => .ok { self with
      pipelines := self.pipelines.set pipe .null
      pipe := none
      webrtc := none }

end WebRTCClient

/-- What happens while `loop` waits. -/
inductive Event where
  | message (text : Text)
  /-- The connection is closed; what was received before is still handled. -/
  | closes
  /-- `stop` gives up the connection. -/
  | stops

/-- The client and what a call returned, unless it raised. -/
abbrev Ended := WebRTCClient × Except PyError Nat

/-- `self.close_pipeline()` and `return`. -/
def closeAndReturn (self : WebRTCClient) (code : Nat) : Ended :=
  match self.closePipeline with
  | .ok closed => (closed, .ok code)
  | .error error => (self, .error error)

/-- `async for message in self.conn` and what follows it. -/
def messages (loads : Text → Except PyError Json) (self : WebRTCClient) : List Event → Ended
  | [] => closeAndReturn self 0
  | .closes :: rest => messages loads { self with conn := self.conn.map fun _ => .closed } rest
  | .stops :: rest => messages loads { self with conn := none } rest
  | .message text :: rest =>
      if text = "HELLO".toList then
        match self.setupCall with
        | .ok next => messages loads next rest
        | .error error => (self, .error error)
      else if text = "SESSION_OK".toList then
        messages loads self.startPipeline rest
      else if startsWith text "ERROR".toList then
        closeAndReturn self 1
      else
        match self.handleSdp loads text with
        | .ok next => messages loads next rest
        | .error error => (self, .error error)

def loop (loads : Text → Except PyError Json) (self : WebRTCClient) (events : List Event) : Ended :=
  match self.conn with
  | none => (self, .error .assertionError)
  | some _ => messages loads self events

/-- The client after `connect`. -/
def connected (peerId : Text) : WebRTCClient :=
  ⟨peerId, some .opened, none, none, [], [], []⟩

/-! ## What the server sends to a caller -/

section Texts

variable (loads : Text → Except PyError Json)

/-- The text is none of the server's own. -/
def IsRelayed (text : Text) : Prop :=
  text ≠ "HELLO".toList ∧ text ≠ "SESSION_OK".toList ∧ ¬ "ERROR".toList <+: text

def IsAnswer (text : Text) : Prop :=
  IsRelayed text ∧ ∃ members sdp answer, loads text = .ok (.object members) ∧
    members.lookup "sdp".toList = some (.object sdp) ∧
    sdp.lookup "type".toList = some (.string "answer".toList) ∧
    sdp.lookup "sdp".toList = some (.string answer)

def IsIce (text : Text) : Prop :=
  IsRelayed text ∧ ∃ members ice candidate index, loads text = .ok (.object members) ∧
    members.lookup "sdp".toList = none ∧
    members.lookup "ice".toList = some (.object ice) ∧
    ice.lookup "candidate".toList = some candidate ∧
    ice.lookup "sdpMLineIndex".toList = some index

/-- How far the caller has got. -/
inductive Stage where
  | greeting
  | calling
  | inCall

/-- What a caller can be sent from a stage on, and whether it can still send itself. -/
inductive FromServer : Stage → Bool → List Event → Prop where
  | ends {stage opened} : FromServer stage opened []
  | closes {stage opened rest} (next : FromServer stage false rest) :
      FromServer stage opened (.closes :: rest)
  | stops {stage opened rest} (next : FromServer stage false rest) :
      FromServer stage opened (.stops :: rest)
  | hello {rest} (next : FromServer .calling true rest) :
      FromServer .greeting true (.message "HELLO".toList :: rest)
  /-- The `SESSION` command does not reach the server. -/
  | late {rest} (next : .message "SESSION_OK".toList ∉ rest) :
      FromServer .greeting false (.message "HELLO".toList :: rest)
  | sessionOk {opened rest} (next : FromServer .inCall opened rest) :
      FromServer .calling opened (.message "SESSION_OK".toList :: rest)
  | peer {opened text rest} (relayed : IsAnswer loads text ∨ IsIce loads text)
      (next : FromServer .inCall opened rest) :
      FromServer .inCall opened (.message text :: rest)
  | error {stage opened text} {rest : List Event} (reports : "ERROR".toList <+: text) :
      FromServer stage opened (.message text :: rest)

end Texts

/-! ## How the loop ends -/

/-- The event is a text that reports an error. -/
def Event.isError : Event → Bool
  | .message text => startsWith text "ERROR".toList
  | _ => false

/-- Return code 1 for a reported error and 0 otherwise, and no pipeline is left. -/
structure EndsCleanly (events : List Event) (ended : Ended) : Prop where
  returns : ended.2 = .ok (if events.any Event.isError then 1 else 0)
  stopped : ∀ state ∈ ended.1.pipelines, state = .null
  reset : ended.1.pipe = none ∧ ended.1.webrtc = none

/-- The session is confirmed before an error is reported. -/
def Confirmed (events : List Event) : Prop :=
  .message "SESSION_OK".toList ∈ events.takeWhile fun event => !event.isError

/-- No pipeline was started. -/
def Unstarted (c : WebRTCClient) : Prop := c.pipe = none ∧ c.webrtc = none ∧ c.pipelines = []

/-- The client as it is in each stage. -/
def Stage.Holds (opened : Bool) (c : WebRTCClient) : Stage → Prop
  | greeting => Unstarted c ∧ (c.conn = some .opened ↔ opened = true)
  | calling => Unstarted c
  | inCall => c.pipe = some 0 ∧ c.webrtc = some 0 ∧ c.pipelines = [.playing]

section Loop

variable {loads : Text → Except PyError Json} {c : WebRTCClient} {events rest : List Event}
  {text : Text}

theorem IsAnswer.handleSdp (answer : IsAnswer loads text) {element : Nat}
    (live : c.webrtc = some element) :
    ∃ sdp, c.handleSdp loads text = .ok (c.emit element (.setRemoteDescription sdp)) := by
  obtain ⟨-, members, sdp, description, parsed, hasSdp, type, value⟩ := answer
  refine ⟨description, ?_⟩
  simp only [WebRTCClient.handleSdp, live, parsed, bind, Except.bind,
    Json.contains_of_lookup hasSdp, Json.getItem_of_lookup hasSdp, Json.getItem_of_lookup type,
    Json.getItem_of_lookup value, Json.isText_string, Json.encode_string, if_true]
  rfl

theorem IsIce.handleSdp (ice : IsIce loads text) {element : Nat}
    (live : c.webrtc = some element) :
    ∃ index candidate,
      c.handleSdp loads text = .ok (c.emit element (.addIceCandidate index candidate)) := by
  obtain ⟨-, members, ice, candidate, index, parsed, noSdp, hasIce, value, line⟩ := ice
  refine ⟨index, candidate, ?_⟩
  simp only [WebRTCClient.handleSdp, live, parsed, bind, Except.bind,
    Json.contains_of_absent noSdp, Json.contains_of_lookup hasIce, Json.getItem_of_lookup hasIce,
    Json.getItem_of_lookup value, Json.getItem_of_lookup line, if_true]
  rfl

theorem endsCleanly_cons {event : Event} (plain : event.isError = false) {ended : Ended} :
    EndsCleanly (event :: rest) ended ↔ EndsCleanly rest ended := by
  have same : (event :: rest).any Event.isError = rest.any Event.isError := by
    rw [List.any_cons, plain, Bool.false_or]
  constructor
  · rintro ⟨returns, stopped, reset⟩
    exact ⟨same ▸ returns, stopped, reset⟩
  · rintro ⟨returns, stopped, reset⟩
    exact ⟨same ▸ returns, stopped, reset⟩

theorem confirmed_cons {event : Event} (plain : event.isError = false) :
    Confirmed (event :: rest) ↔ event = .message "SESSION_OK".toList ∨ Confirmed rest := by
  rw [Confirmed, List.takeWhile_cons, plain, Bool.not_false, if_pos rfl, List.mem_cons, eq_comm]
  rfl

theorem not_confirmed_error {event : Event} (error : event.isError = true) :
    ¬ Confirmed (event :: rest) := by
  rw [Confirmed, List.takeWhile_cons, error, Bool.not_true, if_neg (by decide)]
  exact List.not_mem_nil

/-- A call that raises is no clean end. -/
theorem not_endsCleanly_error {error : PyError} : ¬ EndsCleanly events (c, .error error) := by
  rintro ⟨⟨⟩, -, -⟩

/-- The exits of the loop fail without a pipeline and stop the one that there is. -/
theorem endsCleanly_close {stage : Stage} {opened : Bool} (holds : stage.Holds opened c)
    {code : Nat} (codes : code = if events.any Event.isError then 1 else 0) :
    EndsCleanly events (closeAndReturn c code) ↔ stage = .inCall := by
  have unstarted : Unstarted c → ¬ EndsCleanly events (closeAndReturn c code) := by
    rintro ⟨noPipe, -⟩
    simp only [closeAndReturn, WebRTCClient.closePipeline, noPipe]
    exact not_endsCleanly_error
  cases stage with
  | greeting => exact iff_of_false (unstarted holds.1) (by rintro ⟨⟩)
  | calling => exact iff_of_false (unstarted holds) (by rintro ⟨⟩)
  | inCall =>
      obtain ⟨pipe, -, pipelines⟩ := holds
      refine iff_of_true ?_ rfl
      simp only [closeAndReturn, WebRTCClient.closePipeline, pipe, pipelines]
      refine ⟨congrArg Except.ok codes, ?_, rfl, rfl⟩
      simp

/-- A connection that cannot be used any more changes nothing else. -/
theorem Stage.Holds.lost {stage : Stage} {opened : Bool} (holds : stage.Holds opened c)
    {conn : Option Conn} (unusable : conn ≠ some .opened) :
    stage.Holds false { c with conn := conn } := by
  cases stage with
  | greeting => exact ⟨holds.1, by simp [unusable]⟩
  | calling => exact holds
  | inCall => exact holds

theorem setupCall_raises (unusable : c.conn ≠ some .opened) :
    ∃ error, c.setupCall = .error error := by
  unfold WebRTCClient.setupCall WebRTCClient.send
  split
  · next opened => exact absurd opened unusable
  · exact ⟨_, rfl⟩
  · exact ⟨_, rfl⟩

/-- An answer or a candidate of the peer leaves the pipeline alone. -/
theorem handleSdp_relayed (relayed : IsAnswer loads text ∨ IsIce loads text) {element : Nat}
    (live : c.webrtc = some element) :
    ∃ next, c.handleSdp loads text = .ok next ∧ next.pipe = c.pipe ∧ next.webrtc = c.webrtc ∧
      next.pipelines = c.pipelines := by
  rcases relayed with answer | ice
  · obtain ⟨sdp, done⟩ := answer.handleSdp live
    exact ⟨_, done, rfl, rfl, rfl⟩
  · obtain ⟨index, candidate, done⟩ := ice.handleSdp live
    exact ⟨_, done, rfl, rfl, rfl⟩

theorem FromServer.endsCleanly_iff {stage : Stage} {opened : Bool}
    (sends : FromServer loads stage opened events) : ∀ c, stage.Holds opened c →
      (EndsCleanly events (messages loads c events) ↔ stage = .inCall ∨ Confirmed events) := by
  induction sends with
  | ends =>
      intro c holds
      have never : ¬ Confirmed [] := List.not_mem_nil
      have zero : 0 = if ([] : List Event).any Event.isError then 1 else 0 := rfl
      rw [messages, endsCleanly_close holds zero, or_iff_left never]
  | @closes stage opened rest next ih =>
      intro c holds
      have still : stage.Holds false { c with conn := c.conn.map fun _ => .closed } :=
        holds.lost (by cases c.conn <;> simp)
      rw [messages, endsCleanly_cons rfl, ih _ still, confirmed_cons rfl]
      simp
  | @stops stage opened rest next ih =>
      intro c holds
      have still : stage.Holds false { c with conn := none } := holds.lost (by simp)
      rw [messages, endsCleanly_cons rfl, ih _ still, confirmed_cons rfl]
      simp
  | hello next ih =>
      rintro c ⟨unstarted, conn⟩
      have called : c.setupCall =
          .ok { c with sent := c.sent ++ ["SESSION ".toList ++ c.peerId] } := by
        rw [WebRTCClient.setupCall, WebRTCClient.send, conn.mpr rfl]
      rw [messages, if_pos rfl, called, endsCleanly_cons (by decide), confirmed_cons (by decide)]
      simpa using ih { c with sent := c.sent ++ ["SESSION ".toList ++ c.peerId] } unstarted
  | @late rest next =>
      rintro c ⟨unstarted, conn⟩
      have unusable : c.conn ≠ some .opened := fun opened => by cases conn.mp opened
      obtain ⟨error, raised⟩ := setupCall_raises unusable
      rw [messages, if_pos rfl, raised]
      refine iff_of_false not_endsCleanly_error ?_
      rw [confirmed_cons (by decide)]
      rintro (⟨⟨⟩⟩ | same | confirmed)
      · exact absurd (Event.message.inj same) (by decide)
      · exact next (List.takeWhile_subset _ confirmed)
  | @sessionOk opened rest next ih =>
      intro c holds
      obtain ⟨-, -, none⟩ : Unstarted c := holds
      have started : Stage.inCall.Holds opened c.startPipeline := by
        simp [Stage.Holds, WebRTCClient.startPipeline, none]
      rw [messages, if_neg (by decide), if_pos rfl, endsCleanly_cons (by decide), ih _ started,
        confirmed_cons (by decide)]
      simp
  | @peer opened text rest relayed next ih =>
      rintro c ⟨pipe, live, pipelines⟩
      have plain : IsRelayed text := relayed.elim And.left And.left
      have notError : ¬ startsWith text "ERROR".toList = true := mt startsWith_iff.mp plain.2.2
      have plainEvent : (Event.message text).isError = false := Bool.eq_false_iff.mpr notError
      obtain ⟨after, done, samePipe, sameWebrtc, samePipelines⟩ := handleSdp_relayed relayed live
      rw [messages, if_neg plain.1, if_neg plain.2.1, if_neg notError, done,
        endsCleanly_cons plainEvent, ih _ ⟨samePipe.trans pipe, sameWebrtc.trans live,
          samePipelines.trans pipelines⟩]
      simp
  | @error stage opened text rest reports =>
      intro c holds
      have isError : (Event.message text).isError = true := startsWith_iff.mpr reports
      have notHello : text ≠ "HELLO".toList := by
        rintro rfl
        exact absurd reports (by decide)
      have notOk : text ≠ "SESSION_OK".toList := by
        rintro rfl
        exact absurd reports (by decide)
      have codes : (1 : Nat) =
          if (Event.message text :: rest).any Event.isError then 1 else 0 := by
        simp [isError]
      rw [messages, if_neg notHello, if_neg notOk, if_pos (startsWith_iff.mpr reports),
        endsCleanly_close holds codes, or_iff_left (not_confirmed_error isError)]

end Loop

/--
A caller's loop ends with the documented code and without a pipeline exactly
when the session was confirmed before an error or the end of the connection.
-/
theorem loop_ends_cleanly_iff {loads : Text → Except PyError Json} {events : List Event}
    (sends : FromServer loads .greeting true events) (peerId : Text) :
    EndsCleanly events (loop loads (connected peerId) events) ↔ Confirmed events := by
  have holds : Stage.greeting.Holds true (connected peerId) := by
    simp [Stage.Holds, Unstarted, connected]
  have entered : loop loads (connected peerId) events =
      messages loads (connected peerId) events := rfl
  rw [entered, sends.endsCleanly_iff _ holds]
  simp

/-- The call is answered, and the connection is closed. -/
theorem loop_ends_cleanly_answered :
    ∃ loads events, EndsCleanly events (loop loads (connected "1".toList) events) := by
  let answer : Text := "\x7b\"sdp\": \x7b\"type\": \"answer\", \"sdp\": \"v=0\"\x7d\x7d".toList
  let tree : Json := .object [("sdp".toList, .object [("type".toList, .string "answer".toList),
    ("sdp".toList, .string "v=0".toList)])]
  let loads : Text → Except PyError Json :=
    fun text => if text = answer then .ok tree else .error .valueError
  let events : List Event :=
    [.message "HELLO".toList, .message "SESSION_OK".toList, .message answer, .closes]
  have parsed : loads answer = .ok tree := if_pos rfl
  have isAnswer : IsAnswer loads answer :=
    ⟨⟨by decide, by decide, by decide⟩, _, _, _, parsed, rfl, rfl, rfl⟩
  have sends : FromServer loads .greeting true events :=
    .hello (.sessionOk (.peer (Or.inl isAnswer) (.closes .ends)))
  have confirmed : Confirmed events := List.mem_cons_of_mem _ List.mem_cons_self
  exact ⟨loads, events, (loop_ends_cleanly_iff sends "1".toList).mpr confirmed⟩

/-- The peer is not there, and there is no pipeline to close. -/
theorem refused_call_raises :
    ¬ ∀ loads peerId events, FromServer loads .greeting true events →
      EndsCleanly events (loop loads (connected peerId) events) := by
  intro clean
  have sends : FromServer (fun _ => .error .valueError) .greeting true
      [.message "HELLO".toList, .message "ERROR peer '1' not found".toList] :=
    .hello (.error (by decide))
  obtain ⟨returns, -, -⟩ := clean _ "1".toList _ sends
  cases returns

end GstWebrtc.Sendrecv.PyClient
