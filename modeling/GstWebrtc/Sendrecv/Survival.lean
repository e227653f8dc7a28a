import GstWebrtc.Base.Roster
import GstWebrtc.Sendrecv.Client

/-!
# What the peer relays

The frames of the server and the peer, in any order among the callbacks of the
pipeline, and the orders and contents with which no assertion fails and no
missing member is read as a string.
-/

namespace GstWebrtc.Sendrecv

open GstWebrtc.Base GstWebrtc.Base.CText

/-- Which branch of `on_server_message` takes a frame. -/
inductive Content where
  /-- `HELLO`, `SESSION_OK` or an error. -/
  | keyword
  | sdp (child : JsonObject)
  | ice (child : JsonObject)
  | other

section Frames

variable (parse : Text → Option Json)

def content (data : Text) : Content :=
  let text := ofData data
  if text = "HELLO".toList then .keyword
  else if text = "SESSION_OK".toList then .keyword
  else if hasPrefix text "ERROR".toList then .keyword
  else
    match parse text with
    | some (.object members) =>
        let object : JsonObject := some members
        if object.hasMember "sdp".toList then .sdp (object.getObjectMember "sdp".toList)
        else if object.hasMember "ice".toList then .ice (object.getObjectMember "ice".toList)
        else .other
    | _ => .other

/-- The description is an answer, or names no type. -/
def settles (child : JsonObject) : Bool :=
  child.hasMember "type".toList = false || child.getStringMember "type".toList = some "answer".toList

theorem settles_iff {child : JsonObject} : settles child = true ↔
    child.hasMember "type".toList = false ∨
      child.getStringMember "type".toList = some "answer".toList :=
  (Bool.or_eq_true_iff ..).trans (or_congr decide_eq_true_iff decide_eq_true_iff)

/-- Whether an event begins the negotiation, or leaves it. -/
def Event.moves : Event → Option Bool
  | textMessage _ data =>
      match content parse data with
      | .keyword => some false
      | .sdp child => if settles child then some false else none
      | _ => none
  | negotiationNeeded => some true
  | closed => some false
  | _ => none

/-- The last of these events began the negotiation. -/
def negotiating (events : List Event) : Bool :=
  events.foldl (fun last e => (e.moves parse).getD last) false

/-- The strings that are read from a frame are there. -/
def Readable : Content → Prop
  | .sdp child => child.hasMember "type".toList = true →
      (child.getStringMember "sdp".toList).isSome ∧ (child.getStringMember "type".toList).isSome
  | .ice child => (child.getStringMember "candidate".toList).isSome
  | _ => True

/-- A description is exchanged while the negotiation lasts, and what is read is there. -/
def InTurn (before : List Event) : Event → Prop
  | .textMessage _ data =>
      Readable (content parse data) ∧
        ∀ child, content parse data = .sdp child → negotiating parse before = true
  | .offerCreated reply | .answerCreated reply =>
      negotiating parse before = true ∧ reply.isSome
  | _ => True

end Frames

/-- Something is asked for, a message is printed, or the call is ended. -/
def Outcome.Definite : Outcome → Prop
  | acted requests => requests ≠ []
  | _ => True

/-! ## One frame -/

section Message

variable {prog : Program} {parse : Text → Option Json} {answers : Answers} {state : AppState}
  {data : Text}

theorem onHello_spec : (onHello prog answers state).1 ≠ .peerCallNegotiating ∧
    (onHello prog answers state).2.Definite := by
  unfold onHello setupCall
  split
  · exact ⟨by rintro ⟨⟩, True.intro⟩
  · split
    · exact ⟨by rintro ⟨⟩, True.intro⟩
    · next calling some =>
        split at some
        · split at some
          · cases some
          · cases some
            exact ⟨by rintro ⟨⟩, by rintro ⟨⟩⟩
        · cases some

theorem onSessionOk_spec : (onSessionOk answers state).1 ≠ .peerCallNegotiating ∧
    (onSessionOk answers state).2.Definite := by
  unfold onSessionOk
  split
  · exact ⟨by rintro ⟨⟩, True.intro⟩
  · split
    · exact ⟨by rintro ⟨⟩, by rintro ⟨⟩⟩
    · exact ⟨by rintro ⟨⟩, True.intro⟩

theorem onError_spec (state : AppState) (text : Text) : (onError state text).1 ≠ .peerCallNegotiating ∧
    (onError state text).2.Definite := by
  refine ⟨?_, True.intro⟩
  cases state <;> rintro ⟨⟩

/-- What a frame with the given content comes to. -/
inductive Handles (state : AppState) : Content → Except Fault (AppState × Outcome) → Prop where
  | keyword {next outcome} (left : next ≠ .peerCallNegotiating) (definite : outcome.Definite) :
      Handles state .keyword (.ok (next, outcome))
  | sdp (object : JsonObject) :
      Handles state (.sdp (object.getObjectMember "sdp".toList)) (onSdp state object)
  | ice (object : JsonObject) :
      Handles state (.ice (object.getObjectMember "ice".toList)) (onIce state object)
  | other (message : Text) : Handles state .other (.ok (state, .ignored message))

theorem onServerMessage_handles :
    Handles state (content parse data) (onServerMessage prog parse answers state data) := by
  unfold content onServerMessage
  dsimp only
  split
  · exact .keyword onHello_spec.1 onHello_spec.2
  · split
    · exact .keyword onSessionOk_spec.1 onSessionOk_spec.2
    · split
      · obtain ⟨left, definite⟩ := onError_spec state (ofData data)
        exact .keyword left definite
      · cases parse (ofData data) with
        | none => exact .other _
        | some root =>
            cases root with
            | object members =>
                dsimp only
                split
                · exact .sdp (some members)
                · split
                  · exact .ice (some members)
                  · exact .other _
            | _ => exact .other _

/-- A description is refused in another state, or when what is read is missing. -/
theorem onSdp_ok_iff {object : JsonObject} :
    (∃ result, onSdp state object = .ok result) ↔
      state = .peerCallNegotiating ∧ Readable (.sdp (object.getObjectMember "sdp".toList)) := by
  unfold onSdp Readable
  dsimp only
  split
  · next other => exact iff_of_false (by rintro ⟨result, ⟨⟩⟩) fun h => other h.1
  · next negotiating =>
      have here : state = .peerCallNegotiating := Decidable.not_not.mp negotiating
      split
      · next typeless =>
          refine iff_of_true ⟨_, rfl⟩ ⟨here, fun typed => ?_⟩
          cases typeless.symm.trans typed
      · next typed =>
          have typed' : (object.getObjectMember "sdp".toList).hasMember "type".toList = true :=
            Bool.eq_true_of_not_eq_false typed
          split
          · next missing =>
              refine iff_of_false (by rintro ⟨result, ⟨⟩⟩) fun h => ?_
              have there := (h.2 typed').1
              rw [missing] at there
              cases there
          · next text =>
              split
              · next missing =>
                  refine iff_of_false (by rintro ⟨result, ⟨⟩⟩) fun h => ?_
                  have there := (h.2 typed').2
                  rw [missing] at there
                  cases there
              · next sdptype =>
                  refine iff_of_true ?_ ⟨here, fun _ => ⟨by rw [text]; rfl, by rw [sdptype]; rfl⟩⟩
                  split
                  · exact ⟨_, rfl⟩
                  · exact ⟨_, rfl⟩

theorem onSdp_ok {object : JsonObject} {next : AppState} {outcome : Outcome}
    (h : onSdp state object = .ok (next, outcome)) :
    (next = .peerCallNegotiating ↔ ¬ settles (object.getObjectMember "sdp".toList) = true) ∧
      outcome.Definite := by
  rw [settles_iff]
  unfold onSdp at h
  dsimp only at h
  split at h
  · cases h
  · next negotiating =>
      split at h
      · next typeless =>
          cases h
          exact ⟨iff_of_false (by rintro ⟨⟩) fun lasts => lasts (Or.inl typeless), True.intro⟩
      · next typed =>
          split at h
          · cases h
          · next text =>
              split at h
              · cases h
              · next sdptype =>
                  split at h
                  · next answer =>
                      cases h
                      subst answer
                      exact ⟨iff_of_false (by rintro ⟨⟩) fun lasts => lasts (Or.inr sdptype),
                        by rintro ⟨⟩⟩
                  · next notAnswer =>
                      cases h
                      refine ⟨iff_of_true (Decidable.not_not.mp negotiating) ?_, by rintro ⟨⟩⟩
                      rintro (typeless | answer)
                      · exact typed typeless
                      · exact notAnswer (Option.some.inj (sdptype.symm.trans answer))

theorem onIce_ok_iff {object : JsonObject} :
    (∃ result, onIce state object = .ok result) ↔
      Readable (.ice (object.getObjectMember "ice".toList)) := by
  unfold onIce Readable
  dsimp only
  split
  · next missing =>
      rw [missing]
      exact iff_of_false (by rintro ⟨result, ⟨⟩⟩) (by rintro ⟨⟩)
  · next candidate =>
      rw [candidate]
      exact iff_of_true ⟨_, rfl⟩ rfl

theorem onIce_ok {object : JsonObject} {next : AppState} {outcome : Outcome}
    (h : onIce state object = .ok (next, outcome)) : next = state ∧ outcome.Definite := by
  unfold onIce at h
  dsimp only at h
  split at h
  · cases h
  · cases h
    exact ⟨rfl, by rintro ⟨⟩⟩

end Message

/-! ## A run -/

section Play

variable (prog : Program) (parse : Text → Option Json)

/-- A run that goes on with an event. -/
def playEvent (run : AppState × List Outcome) (e : Event) :
    Except Fault (AppState × List Outcome) :=
  match perform prog parse run.1 e with
  | .error fault => .error fault
  | .ok (state, outcome) => .ok (state, run.2 ++ [outcome])

/-- One event after the other, up to the first fault, with the outcome of each. -/
def play (start : AppState) (events : List Event) : Except Fault (AppState × List Outcome) :=
  events.foldlM (playEvent prog parse) (start, [])

variable {prog parse} {start state next : AppState} {before events : List Event} {e : Event}
  {outcomes : List Outcome} {outcome : Outcome}

theorem play_snoc (e : Event) :
    play prog parse start (before ++ [e]) =
      (play prog parse start before).bind fun run => playEvent prog parse run e := by
  unfold play
  rw [List.foldlM_append]
  cases before.foldlM (playEvent prog parse) (start, []) with
  | error fault => rfl
  | ok run =>
      change (playEvent prog parse run e).bind pure = playEvent prog parse run e
      cases playEvent prog parse run e <;> rfl

theorem negotiating_snoc : negotiating parse (before ++ [e]) =
    (e.moves parse).getD (negotiating parse before) := by
  unfold negotiating
  rw [List.foldl_append]
  rfl

/-- The application state tells whether the negotiation lasts. -/
def Shows (parse : Text → Option Json) (before : List Event) (state : AppState) : Prop :=
  state = .peerCallNegotiating ↔ negotiating parse before = true

theorem Shows.keep (shows : Shows parse before state) (still : e.moves parse = none)
    (same : next = state) : Shows parse (before ++ [e]) next := by
  unfold Shows
  rw [same, negotiating_snoc, still]
  exact shows

theorem Shows.leave (left : next ≠ .peerCallNegotiating) (moves : e.moves parse = some false) :
    Shows parse (before ++ [e]) next := by
  unfold Shows
  rw [negotiating_snoc, moves]
  exact iff_of_false left (by rintro ⟨⟩)

/-- The callback of a promise passes its assertions while the negotiation lasts. -/
theorem onOfferCreated_ok_iff {reply : Option Text} :
    (∃ result, onOfferCreated state reply = .ok result) ↔
      state = .peerCallNegotiating ∧ reply.isSome := by
  unfold onOfferCreated
  split
  · next other => exact iff_of_false (by rintro ⟨result, ⟨⟩⟩) fun h => other h.1
  · next negotiating =>
      have here : state = .peerCallNegotiating := Decidable.not_not.mp negotiating
      cases reply with
      | none => exact iff_of_false (by rintro ⟨result, ⟨⟩⟩) (by rintro ⟨-, ⟨⟩⟩)
      | some offer => exact iff_of_true ⟨_, rfl⟩ ⟨here, rfl⟩

theorem onAnswerCreated_ok_iff {reply : Option Text} :
    (∃ result, onAnswerCreated state reply = .ok result) ↔
      state = .peerCallNegotiating ∧ reply.isSome := by
  unfold onAnswerCreated
  split
  · next other => exact iff_of_false (by rintro ⟨result, ⟨⟩⟩) fun h => other h.1
  · next negotiating =>
      have here : state = .peerCallNegotiating := Decidable.not_not.mp negotiating
      cases reply with
      | none => exact iff_of_false (by rintro ⟨result, ⟨⟩⟩) (by rintro ⟨-, ⟨⟩⟩)
      | some offer => exact iff_of_true ⟨_, rfl⟩ ⟨here, rfl⟩

theorem onOfferCreated_ok {reply : Option Text}
    (h : onOfferCreated state reply = .ok (next, outcome)) :
    next = state ∧ outcome.Definite := by
  unfold onOfferCreated at h
  split at h
  · cases h
  · next negotiating =>
      cases Decidable.not_not.mp negotiating
      cases reply with
      | none => cases h
      | some offer =>
          cases h
          exact ⟨rfl, by rintro ⟨⟩⟩

theorem onAnswerCreated_ok {reply : Option Text}
    (h : onAnswerCreated state reply = .ok (next, outcome)) :
    next = state ∧ outcome.Definite := by
  unfold onAnswerCreated at h
  split at h
  · cases h
  · next negotiating =>
      cases Decidable.not_not.mp negotiating
      cases reply with
      | none => cases h
      | some answer =>
          cases h
          exact ⟨rfl, by rintro ⟨⟩⟩

/-- An event is handled without a fault exactly when it is in turn. -/
theorem perform_ok_iff (shows : Shows parse before state) :
    (∃ result, perform prog parse state e = .ok result) ↔ InTurn parse before e := by
  cases e with
  | textMessage answers data =>
      have handled : Handles state (content parse data)
          (onServerMessage prog parse answers state data) := onServerMessage_handles
      unfold perform InTurn
      dsimp only
      generalize content parse data = found at handled ⊢
      generalize onServerMessage prog parse answers state data = result at handled ⊢
      cases handled with
      | keyword left definite => exact iff_of_true ⟨_, rfl⟩ ⟨True.intro, by rintro child ⟨⟩⟩
      | sdp object =>
          rw [onSdp_ok_iff, and_comm]
          refine and_congr_right fun readable => shows.trans ⟨?_, fun lasts => lasts _ rfl⟩
          rintro lasts child ⟨⟩
          exact lasts
      | ice object =>
          rw [onIce_ok_iff]
          exact (and_iff_left (by rintro child ⟨⟩)).symm
      | other message => exact iff_of_true ⟨_, rfl⟩ ⟨True.intro, by rintro child ⟨⟩⟩
  | offerCreated reply => exact onOfferCreated_ok_iff.trans (and_congr_left' shows)
  | answerCreated reply => exact onAnswerCreated_ok_iff.trans (and_congr_left' shows)
  | _ => exact iff_of_true ⟨_, rfl⟩ True.intro

theorem perform_ok (shows : Shows parse before state)
    (h : perform prog parse state e = .ok (next, outcome)) :
    Shows parse (before ++ [e]) next ∧ outcome.Definite := by
  cases e with
  | textMessage answers data =>
      have handled : Handles state (content parse data)
          (onServerMessage prog parse answers state data) := onServerMessage_handles
      have moves : Event.moves parse (.textMessage answers data) =
          match content parse data with
          | .keyword => some false
          | .sdp child => if settles child then some false else none
          | _ => none := rfl
      unfold perform at h
      dsimp only at h
      generalize content parse data = found at handled moves
      generalize onServerMessage prog parse answers state data = result at handled h
      cases handled with
      | keyword left definite =>
          cases h
          exact ⟨.leave left moves, definite⟩
      | sdp object =>
          obtain ⟨lasts, definite⟩ := onSdp_ok h
          obtain ⟨here, -⟩ := onSdp_ok_iff.mp ⟨_, h⟩
          refine ⟨?_, definite⟩
          by_cases settled : settles (object.getObjectMember "sdp".toList) = true
          · exact .leave (fun stays => lasts.mp stays settled) (moves.trans (if_pos settled))
          · exact shows.keep (moves.trans (if_neg settled)) ((lasts.mpr settled).trans here.symm)
      | ice object =>
          obtain ⟨same, definite⟩ := onIce_ok h
          exact ⟨shows.keep moves same, definite⟩
      | other message =>
          cases h
          exact ⟨shows.keep moves rfl, True.intro⟩
  | binaryMessage =>
      cases h
      exact ⟨shows.keep rfl rfl, True.intro⟩
  | negotiationNeeded =>
      have begun : negotiating parse (before ++ [.negotiationNeeded]) = true := negotiating_snoc
      have result : onNegotiationNeeded prog = (next, outcome) := Except.ok.inj h
      unfold onNegotiationNeeded at result
      split at result
      · cases result
        exact ⟨iff_of_true rfl begun, by rintro ⟨⟩⟩
      · cases result
        exact ⟨iff_of_true rfl begun, by rintro ⟨⟩⟩
  | offerCreated reply =>
      obtain ⟨same, definite⟩ := onOfferCreated_ok h
      exact ⟨shows.keep rfl same, definite⟩
  | offerSet =>
      cases h
      exact ⟨shows.keep rfl rfl, by rintro ⟨⟩⟩
  | answerCreated reply =>
      obtain ⟨same, definite⟩ := onAnswerCreated_ok h
      exact ⟨shows.keep rfl same, definite⟩
  | iceCandidate mlineindex candidate =>
      have result : sendIceCandidateMessage state mlineindex candidate = (next, outcome) :=
        Except.ok.inj h
      unfold sendIceCandidateMessage at result
      split at result
      · next early =>
          cases result
          refine ⟨?_, True.intro⟩
          unfold Shows
          rw [negotiating_snoc]
          refine (iff_of_false (by rintro ⟨⟩) ?_).trans shows
          rintro rfl
          exact Nat.lt_irrefl _ early
      · cases result
        exact ⟨shows.keep rfl rfl, by rintro ⟨⟩⟩
  | dataChannelError =>
      cases h
      exact ⟨shows.keep rfl rfl, True.intro⟩
  | dataChannelClosed =>
      cases h
      exact ⟨shows.keep rfl rfl, True.intro⟩
  | closed =>
      cases h
      exact ⟨.leave (by rintro ⟨⟩) rfl, True.intro⟩

theorem playEvent_ok {run after : AppState × List Outcome}
    (h : playEvent prog parse run e = .ok after) :
    ∃ outcome, perform prog parse run.1 e = .ok (after.1, outcome) ∧
      after.2 = run.2 ++ [outcome] := by
  unfold playEvent at h
  split at h
  · cases h
  · next performed =>
      cases h
      exact ⟨_, performed, rfl⟩

/-- A whole run goes without a fault exactly when each event is in turn. -/
theorem play_ok_iff (first : Shows parse [] start) (events : List Event) :
    ((∃ run, play prog parse start events = .ok run) ↔ Grown (InTurn parse) events) ∧
      ∀ run, play prog parse start events = .ok run → Shows parse events run.1 ∧
        run.2.length = events.length ∧ ∀ outcome ∈ run.2, outcome.Definite := by
  induction events using List.reverseRecOn with
  | nil =>
      refine ⟨iff_of_true ⟨_, rfl⟩ .nil, ?_⟩
      rintro run ⟨⟩
      exact ⟨first, rfl, by rintro outcome ⟨⟩⟩
  | append_singleton before e ih =>
      obtain ⟨same, spec⟩ := ih
      rw [play_snoc]
      cases earlier : play prog parse start before with
      | error fault =>
          refine ⟨iff_of_false (by rintro ⟨run, ⟨⟩⟩) fun grown => ?_, by rintro run ⟨⟩⟩
          obtain ⟨run, result⟩ := same.mpr grown.of_snoc.1
          cases earlier.symm.trans result
      | ok run =>
          obtain ⟨shows, length, definite⟩ := spec run earlier
          have turn : (∃ result, perform prog parse run.1 e = .ok result) ↔ InTurn parse before e :=
            perform_ok_iff shows
          change ((∃ after, playEvent prog parse run e = .ok after) ↔ _) ∧
            ∀ after, playEvent prog parse run e = .ok after → _
          refine ⟨⟨?_, fun grown => ?_⟩, fun after h => ?_⟩
          · rintro ⟨after, h⟩
            obtain ⟨outcome, performed, -⟩ := playEvent_ok h
            exact .snoc (same.mp ⟨run, earlier⟩) (turn.mp ⟨_, performed⟩)
          · obtain ⟨⟨next, outcome⟩, performed⟩ := turn.mpr grown.of_snoc.2
            refine ⟨(next, run.2 ++ [outcome]), ?_⟩
            unfold playEvent
            rw [performed]
          · obtain ⟨outcome, performed, grown⟩ := playEvent_ok h
            obtain ⟨shows', one⟩ := perform_ok shows performed
            refine ⟨shows', ?_, ?_⟩
            · rw [grown, List.length_append, length, List.length_append]
              rfl
            · rw [grown]
              intro other inside
              rcases List.mem_append.mp inside with old | new
              · exact definite other old
              · cases List.mem_singleton.mp new
                exact one

end Play

theorem onServerConnected_state (answers : Answers) (ourId : Nat) :
    (onServerConnected answers ourId).1 ≠ .peerCallNegotiating := by
  unfold onServerConnected registerWithServer
  cases answers.opened <;> rintro ⟨⟩

/--
From the connection on, whatever the server and the peer send and whenever the
callbacks run, every event is acted on, ignored with a message or ends the call,
exactly when descriptions are exchanged during the negotiation and the strings
that are read are there.
-/
theorem survives_iff (prog : Program) (parse : Text → Option Json) (answers : Answers)
    (ourId : Nat) (events : List Event) :
    (∃ state outcomes,
      play prog parse (onServerConnected answers ourId).1 events = .ok (state, outcomes) ∧
        outcomes.length = events.length ∧ ∀ outcome ∈ outcomes, outcome.Definite) ↔
      Grown (InTurn parse) events := by
  have first : Shows parse [] (onServerConnected answers ourId).1 :=
    iff_of_false (onServerConnected_state answers ourId) (by rintro ⟨⟩)
  obtain ⟨same, spec⟩ := play_ok_iff first events
  refine Iff.trans ⟨?_, ?_⟩ same
  · rintro ⟨state, outcomes, result, -⟩
    exact ⟨_, result⟩
  · rintro ⟨⟨state, outcomes⟩, result⟩
    exact ⟨state, outcomes, result, (spec _ result).2⟩

/-! ## An answer that comes twice -/

def answerText : Text :=
  "\x7b\"sdp\":\x7b\"type\":\"answer\",\"sdp\":\"v=0\"\x7d\x7d".toList

/-- What json-glib makes of that text. -/
def answerParse (text : Text) : Option Json :=
  if text = answerText then
    some (.object [("sdp".toList, .object [("type".toList, .string "answer".toList),
      ("sdp".toList, .string "v=0".toList)])])
  else none

def caller : Program := ⟨some ⟨"callee".toList, by decide⟩, false⟩

def allWell : Answers := ⟨true, true⟩

/-- A call whose answer is repeated. -/
def twiceAnswered : List Event :=
  [.textMessage allWell "HELLO".toList, .textMessage allWell "SESSION_OK".toList,
    .negotiationNeeded, .offerCreated (some "v=0".toList), .textMessage allWell answerText,
    .textMessage allWell answerText]

theorem twiceAnswered_faults :
    play caller answerParse (onServerConnected allWell 10).1 twiceAnswered =
      .error .assertion := rfl

theorem relayed_text_aborts :
    ¬ ∀ (prog : Program) (parse : Text → Option Json) (answers : Answers) (ourId : Nat)
      (events : List Event), ∃ state outcomes,
      play prog parse (onServerConnected answers ourId).1 events = .ok (state, outcomes) := by
  intro survives
  obtain ⟨state, outcomes, result⟩ := survives caller answerParse allWell 10 twiceAnswered
  cases twiceAnswered_faults.symm.trans result

end GstWebrtc.Sendrecv
