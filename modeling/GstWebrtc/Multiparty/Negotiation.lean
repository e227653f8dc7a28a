import GstWebrtc.Multiparty.Departure

/-!
# One application state for all negotiations

What happens to a client after `ROOM_OK`, as a list of events, and the order of
events in which no assertion on the global `app_state` fails.
-/

namespace GstWebrtc.Multiparty

open GstWebrtc.Base GstWebrtc.Base.CText GstWebrtc.Base.PyText GstWebrtc.Signalling Client

/-- Everything that GStreamer is asked for succeeds. -/
def Gst.good : Gst := ⟨true, true⟩

/-- What a well-formed message of a peer brings. -/
inductive PeerMessage where
  | offer (sdp : Text)
  | answer (sdp : Text)
  | ice (candidate : Text)

namespace PeerMessage

/-- A session description has its type and its text, and a candidate has its text. -/
def ofObject (object : JsonObject) : Option PeerMessage :=
  if object.hasMember "sdp".toList then
    let child := object.getObjectMember "sdp".toList
    match child.getStringMember "type".toList, child.getStringMember "sdp".toList with
    | some sdpType, some sdp =>
        if sdpType = "offer".toList then some (.offer sdp)
        else if sdpType = "answer".toList then some (.answer sdp)
        else none
    | _, _ => none
  else if object.hasMember "ice".toList then
    ((object.getObjectMember "ice".toList).getStringMember "candidate".toList).map .ice
  else none

def read (parse : Text → Option Json) (text : Text) : Option PeerMessage :=
  match parse text with
  | some (.object members) => ofObject (some members)
  | _ => none

def isOffer : PeerMessage → Bool
  | offer _ => true
  | _ => false

def isAnswer : PeerMessage → Bool
  | answer _ => true
  | _ => false

variable {cl : Client} {object : JsonObject} {message : PeerMessage}

/-- A session description that has its type and its text. -/
theorem handlePeerSdp_described {sdpType sdp : Text}
    (type : (object.getObjectMember "sdp".toList).getStringMember "type".toList = some sdpType)
    (text : (object.getObjectMember "sdp".toList).getStringMember "sdp".toList = some sdp)
    (joined : AppState.roomJoined.code ≤ cl.appState.code) :
    handlePeerSdp .good cl object =
      if sdpType = "offer".toList then .ok { cl with appState := .roomCallAnswering }
      else if sdpType = "answer".toList then
        if cl.appState.code < AppState.roomCallOffering.code then .error .assertion
        else .ok { cl with appState := .roomCallStarted }
      else .ok (cl.cleanupAndQuitLoop .roomCallError) := by
  have typed := JsonObject.hasMember_of_getStringMember type
  have untyped : ¬ (object.getObjectMember "sdp".toList).hasMember "type".toList = false := by
    rw [typed]
    exact Bool.true_eq_false_eq_False
  unfold handlePeerSdp
  dsimp only
  rw [if_neg (Nat.not_lt.mpr joined), if_neg untyped, type, text]
  simp only [Option.some.injEq]
  split
  · rfl
  · split
    · split
      · rfl
      · next call =>
          unfold handleSdpAnswer
          rw [if_neg call]
          rfl
    · rfl

/-- What a good pipeline makes the client do with a well-formed message. -/
def applied (cl : Client) : PeerMessage → Client
  | offer _ => { cl with appState := .roomCallAnswering }
  | answer _ => { cl with appState := .roomCallStarted }
  | ice _ => cl

theorem applied_of_ofObject (reads : ofObject object = some message)
    (joined : AppState.roomJoined.code ≤ cl.appState.code)
    (inCall : message.isAnswer = true → AppState.roomCallOffering.code ≤ cl.appState.code) :
    (if object.hasMember "sdp".toList then handlePeerSdp .good cl object
      else if object.hasMember "ice".toList then handlePeerIce .good cl object
      else .ok cl) = .ok (message.applied cl) := by
  unfold ofObject at reads
  dsimp only at reads
  split at reads
  · next hasSdp =>
      rw [if_pos hasSdp]
      split at reads
      · next sdpType sdp type text =>
          rw [handlePeerSdp_described type text joined]
          split at reads
          · next offers =>
              cases reads
              exact if_pos offers
          · next notOffer =>
              rw [if_neg notOffer]
              split at reads
              · next answers =>
                  cases reads
                  rw [if_pos answers, if_neg (Nat.not_lt.mpr (inCall rfl))]
                  rfl
              · cases reads
      · cases reads
  · next noSdp =>
      rw [if_neg noSdp]
      split at reads
      · next hasIce =>
          rw [if_pos hasIce]
          obtain ⟨candidate, found, rfl⟩ := Option.map_eq_some_iff.mp reads
          unfold handlePeerIce
          dsimp only
          rw [found]
          rfl
      · cases reads

/-- A well-formed message fails no assertion while the client is in a call. -/
theorem handlePeerMessage_applied {parse : Text → Option Json} {text : Text}
    (reads : read parse text = some message)
    (joined : AppState.roomJoined.code ≤ cl.appState.code)
    (inCall : message.isAnswer = true → AppState.roomCallOffering.code ≤ cl.appState.code) :
    handlePeerMessage parse .good cl (some text) = .ok (message.applied cl) := by
  unfold read at reads
  unfold handlePeerMessage
  split at reads
  · next members parsed =>
      dsimp only
      rw [parsed]
      exact applied_of_ofObject reads joined inCall
  · cases reads

end PeerMessage

inductive Happening where
  | negotiationNeeded (peer : Text)
  | offerCreated (peer body : Text)
  | answerCreated (peer body : Text)
  | message (peer : Text) (payload : CString)
  | joined (peer : Text)

namespace Happening

variable (parse : Text → Option Json) (peer : Text)

def needsOffer : Happening → Bool
  | negotiationNeeded p => p = peer
  | _ => false

def createsOffer : Happening → Bool
  | offerCreated p _ => p = peer
  | _ => false

def createsAnswer : Happening → Bool
  | answerCreated p _ => p = peer
  | _ => false

/-- A message of the given kind arrives from the peer. -/
def sends (kind : PeerMessage → Bool) : Happening → Bool
  | message p payload => p = peer && (PeerMessage.read parse payload.text).any kind
  | _ => false

def announces : Happening → Bool
  | joined p => p = peer
  | _ => false

end Happening

section Events

variable (parse : Text → Option Json) (called : List Text)

/-- Listed in `ROOM_OK`, or announced since. -/
def Known (before : List Happening) (peer : Text) : Prop :=
  peer ∈ called ∨ before.any (Happening.announces peer) = true

/-- What may happen after `before`: callbacks answer requests, and a peer sends one offer, or
one answer to an offer, and candidates. -/
def Behaved (before : List Happening) : Happening → Prop
  | .negotiationNeeded peer => peer ∈ called
  | .offerCreated peer _ =>
      before.countP (Happening.createsOffer peer) < before.countP (Happening.needsOffer peer)
  | .answerCreated peer _ =>
      before.countP (Happening.createsAnswer peer) <
        before.countP (Happening.sends parse peer PeerMessage.isOffer)
  | .message peer payload =>
      Known called before peer ∧
      match PeerMessage.read parse payload.text with
      | some (.ice _) => True
      | some (.offer _) =>
          peer ∉ called ∧ before.any (Happening.sends parse peer PeerMessage.isOffer) = false
      | some (.answer _) =>
          before.any (Happening.createsOffer peer) = true ∧
            before.any (Happening.sends parse peer PeerMessage.isAnswer) = false
      | none => False
  | .joined peer => Clean peer ∧ ¬ Known called before peer

/-- Where the last negotiation that moved has got to. -/
inductive Moved where
  | needed
  | offered
  | settled
  deriving DecidableEq

def Happening.moves : Happening → Option Moved
  | .negotiationNeeded _ => some .needed
  | .answerCreated _ _ => some .settled
  | .message _ payload =>
      match PeerMessage.read parse payload.text with
      | some (.offer _) => some .offered
      | some (.answer _) => some .settled
      | _ => none
  | _ => none

/-- The last move of any peer's negotiation. -/
def lastMove (events : List Happening) : Option Moved :=
  events.foldl (fun last e => (e.moves parse).or last) none

/-- The callback of an offer or answer runs before another negotiation moves on. -/
def InTurn (before : List Happening) : Happening → Prop
  | .offerCreated _ _ => lastMove parse before = some .needed
  | .answerCreated _ _ => lastMove parse before = some .offered
  | _ => True

end Events

/-! ## The client -/

section Play

variable (prog : Program) (parse : Text → Option Json)

/-- The callback that an event runs. -/
def perform (cl : Client) : Happening → Except Fault Client
  | .negotiationNeeded peer => (cl.onEvent .good (.negotiationNeeded peer)).map Prod.fst
  | .offerCreated peer body => (cl.onEvent .good (.offerCreated peer body)).map Prod.fst
  | .answerCreated peer body => (cl.onEvent .good (.answerCreated peer body)).map Prod.fst
  | .message peer payload =>
      (cl.onServerMessage prog parse .good
        ("ROOM_PEER_MSG ".toList ++ peer ++ ' ' :: payload.text)).map Prod.fst
  | .joined peer =>
      (cl.onServerMessage prog parse .good ("ROOM_PEER_JOINED ".toList ++ peer)).map Prod.fst

/-- One event after the other, up to the first fault. -/
def play (start : Client) (events : List Happening) : Except Fault Client :=
  events.foldlM (perform prog parse) start

variable {prog parse} {cl cl' start : Client} {peer : Text} {before : List Happening}

theorem play_snoc (e : Happening) :
    play prog parse start (before ++ [e]) = (play prog parse start before).bind fun cl =>
      perform prog parse cl e := by
  unfold play
  rw [List.foldlM_append]
  cases before.foldlM (perform prog parse) start with
  | error fault => rfl
  | ok cl =>
      change (perform prog parse cl e).bind pure = perform prog parse cl e
      cases perform prog parse cl e <;> rfl

theorem perform_offerCreated (body : Text) :
    perform prog parse cl (.offerCreated peer body) =
      if cl.appState = .roomCallOffering then .ok cl else .error .assertion := by
  simp only [perform, onEvent, Gst.good, and_true]
  split <;> rfl

theorem perform_answerCreated (body : Text) :
    perform prog parse cl (.answerCreated peer body) =
      if cl.appState = .roomCallAnswering then .ok { cl with appState := .roomCallStarted }
      else .error .assertion := by
  simp only [perform, onEvent, Gst.good, and_true]
  split <;> rfl

/-- A message of a peer in the list is handled as such. -/
theorem perform_message (payload : CString) (clean : Clean peer) (listed : peer ∈ cl.peers) :
    perform prog parse cl (.message peer payload) =
      handlePeerMessage parse .good cl (some payload.text) := by
  obtain ⟨p, found⟩ : ∃ p, cl.findPeerFromList (some peer) = .ok p :=
    findPeerFromList_of_mem ⟨peer, listed, rfl⟩
  unfold perform
  dsimp only
  rw [onServerMessage_message clean payload.noNul, found]
  change ((handlePeerMessage parse .good cl (some payload.text)).map _).map Prod.fst = _
  cases handlePeerMessage parse .good cl (some payload.text) <;> rfl

theorem perform_joined (clean : Clean peer) :
    perform prog parse cl (.joined peer) = .ok { cl with peers := peer :: cl.peers } := by
  have literal : "ROOM_PEER_JOINED ".toList = "ROOM_PEER_JOINED".toList ++ [' '] := by decide
  have data : ofData ("ROOM_PEER_JOINED ".toList ++ peer) =
      "ROOM_PEER_JOINED".toList ++ ' ' :: peer := by
    rw [ofData_spaced literal (by decide), ofData_eq_self clean.2]
  have starts : hasPrefix ("ROOM_PEER_JOINED".toList ++ ' ' :: peer)
      "ROOM_PEER_JOINED".toList = true := hasPrefix_iff.mpr (List.prefix_append _ _)
  have room : hasPrefix (ofData ("ROOM_PEER_JOINED ".toList ++ peer)) "ROOM_PEER".toList = true := by
    rw [data]
    exact hasPrefix_shorter starts (by decide)
  have handled : onRoomPeer parse .good cl ("ROOM_PEER_JOINED".toList ++ ' ' :: peer) =
      .ok { cl with peers := peer :: cl.peers } := by
    unfold onRoomPeer
    rw [if_neg (hasPrefix_apart starts (by decide) (by decide)), if_pos starts,
      strsplit_two (by decide)]
    rfl
  unfold perform
  dsimp only
  rw [onServerMessage_peer room, data, handled]
  rfl

end Play

/-! ## The invariant -/

/-- The state of a client whose negotiations have last moved so. -/
def Shows (last : Option Moved) (state : AppState) : Prop :=
  match last with
  | none => state = .roomJoined ∨ state = .roomCallOffering
  | some .needed => state = .roomCallOffering
  | some .offered => state = .roomCallAnswering
  | some .settled => state = .roomCallStarted

structure Carries (parse : Text → Option Json) (called : List Text) (before : List Happening)
    (cl : Client) : Prop where
  known : ∀ peer, Known called before peer → Clean peer ∧ peer ∈ cl.peers
  state : Shows (lastMove parse before) cl.appState
  begun : ∀ peer, before.any (Happening.needsOffer peer) = true → lastMove parse before ≠ none
  created : ∀ peer, before.any (Happening.createsOffer peer) = true →
    before.any (Happening.needsOffer peer) = true

namespace Carries

variable {prog : Program} {parse : Text → Option Json} {called : List Text}
  {before : List Happening} {cl cl' : Client} {e : Happening}

theorem lastMove_snoc :
    lastMove parse (before ++ [e]) = (e.moves parse).or (lastMove parse before) := by
  unfold lastMove
  rw [List.foldl_append]
  rfl

theorem state_code (inv : Carries parse called before cl) :
    AppState.roomJoined.code ≤ cl.appState.code := by
  have shows := inv.state
  unfold Shows at shows
  split at shows
  · rcases shows with state | state
    · rw [state]
    · rw [state]
      decide
  · rw [shows]
    decide
  · rw [shows]
    decide
  · rw [shows]
    decide

/-- Once a negotiation has moved, the client is in a call. -/
theorem state_call (inv : Carries parse called before cl) (begun : lastMove parse before ≠ none) :
    AppState.roomCallOffering.code ≤ cl.appState.code := by
  have shows := inv.state
  unfold Shows at shows
  split at shows
  · next none => exact absurd none begun
  · rw [shows]
  · rw [shows]
    decide
  · rw [shows]
    decide

/-- What an event must do to the client. -/
theorem snoc (inv : Carries parse called before cl)
    (announces : ∀ peer, e.announces peer = true → Clean peer ∧ peer ∈ cl'.peers)
    (keeps : ∀ peer ∈ cl.peers, peer ∈ cl'.peers)
    (state : Shows ((e.moves parse).or (lastMove parse before)) cl'.appState)
    (needs : ∀ peer, e.needsOffer peer = true → e.moves parse ≠ none)
    (creates : ∀ peer, e.createsOffer peer = true → before.any (Happening.needsOffer peer) = true) :
    Carries parse called (before ++ [e]) cl' := by
  have later : ∀ {p : Happening → Bool}, (before ++ [e]).any p = true →
      before.any p = true ∨ p e = true := by
    intro p holds
    simpa only [List.any_append, List.any_cons, List.any_nil, Bool.or_false,
      Bool.or_eq_true] using holds
  refine ⟨?_, ?_, ?_, ?_⟩
  · intro peer known
    have earlier : Known called before peer → Clean peer ∧ peer ∈ cl'.peers :=
      fun known => ⟨(inv.known peer known).1, keeps peer (inv.known peer known).2⟩
    rcases known with listed | announced
    · exact earlier (Or.inl listed)
    · rcases later announced with before | now
      · exact earlier (Or.inr before)
      · exact announces peer now
  · rw [lastMove_snoc]
    exact state
  · intro peer needed
    rw [lastMove_snoc]
    rcases later needed with earlier | now
    · simp [inv.begun peer earlier]
    · simp [needs peer now]
  · intro peer created
    rw [List.any_append, Bool.or_eq_true]
    rcases later created with earlier | now
    · exact Or.inl (inv.created peer earlier)
    · exact Or.inl (creates peer now)

theorem any_of_countP_lt {p q : Happening → Bool} (h : before.countP p < before.countP q) :
    before.any q = true := by
  have some : 0 < before.countP q := Nat.zero_lt_of_lt h
  obtain ⟨e, inside, holds⟩ := List.countP_pos_iff.mp some
  exact List.any_eq_true.mpr ⟨e, inside, holds⟩

/-- A callback of an offer passes its assertion when a negotiation was needed last. -/
theorem offering_iff (inv : Carries parse called before cl)
    (begun : lastMove parse before ≠ none) :
    cl.appState = .roomCallOffering ↔ lastMove parse before = some .needed := by
  have shows := inv.state
  unfold Shows at shows
  split at shows
  · next none => exact absurd none begun
  · next last => simp [shows, last]
  · next last => simp [shows, last]
  · next last => simp [shows, last]

theorem answering_iff (inv : Carries parse called before cl) :
    cl.appState = .roomCallAnswering ↔ lastMove parse before = some .offered := by
  have shows := inv.state
  unfold Shows at shows
  split at shows
  · next last => rcases shows with state | state <;> simp [state, last]
  · next last => simp [shows, last]
  · next last => simp [shows, last]
  · next last => simp [shows, last]

/-- A message of a well-behaved peer fails no assertion, and moves as its type says. -/
theorem message (inv : Carries parse called before cl) {peer : Text} {payload : CString}
    (behaved : Behaved parse called before (.message peer payload)) :
    ∃ cl', perform prog parse cl (.message peer payload) = .ok cl' ∧
      Carries parse called (before ++ [.message peer payload]) cl' := by
  obtain ⟨known, fits⟩ := behaved
  obtain ⟨clean, listed⟩ := inv.known peer known
  rw [perform_message payload clean listed]
  have moves : (Happening.message peer payload).moves parse =
      match PeerMessage.read parse payload.text with
      | some (.offer _) => some .offered
      | some (.answer _) => some .settled
      | _ => none := rfl
  have goesOn : ∀ {cl' : Client}, (∀ peer ∈ cl.peers, peer ∈ cl'.peers) →
      Shows (((Happening.message peer payload).moves parse).or (lastMove parse before)) cl'.appState →
      Carries parse called (before ++ [.message peer payload]) cl' := fun keeps state =>
    inv.snoc (by rintro p ⟨⟩) keeps state (by simp [Happening.needsOffer])
      (by simp [Happening.createsOffer])
  cases reads : PeerMessage.read parse payload.text with
  | none =>
      rw [reads] at fits
      exact fits.elim
  | some message =>
      rw [reads] at fits moves
      cases message with
      | ice candidate =>
          refine ⟨_, PeerMessage.handlePeerMessage_applied reads inv.state_code (by rintro ⟨⟩),
            goesOn (fun _ inside => inside) ?_⟩
          rw [moves]
          exact inv.state
      | offer sdp =>
          refine ⟨_, PeerMessage.handlePeerMessage_applied reads inv.state_code (by rintro ⟨⟩),
            goesOn (fun _ inside => inside) ?_⟩
          rw [moves]
          rfl
      | answer sdp =>
          have call := inv.state_call (inv.begun peer (inv.created peer fits.1))
          refine ⟨_, PeerMessage.handlePeerMessage_applied reads inv.state_code fun _ => call,
            goesOn (fun _ inside => inside) ?_⟩
          rw [moves]
          rfl

/-- An event is performed without a fault exactly when it is in turn. -/
theorem perform_iff (inv : Carries parse called before cl)
    (behaved : Behaved parse called before e) :
    (InTurn parse before e → ∃ cl', perform prog parse cl e = .ok cl') ∧
    ∀ cl', perform prog parse cl e = .ok cl' →
      InTurn parse before e ∧ Carries parse called (before ++ [e]) cl' := by
  cases e with
  | negotiationNeeded peer =>
      refine ⟨fun _ => ⟨_, rfl⟩, ?_⟩
      rintro cl' ⟨⟩
      exact ⟨True.intro, inv.snoc (by rintro p ⟨⟩) (fun _ inside => inside) rfl
        (by simp [Happening.moves]) (by simp [Happening.createsOffer])⟩
  | offerCreated peer body =>
      have needed := any_of_countP_lt behaved
      have turn := inv.offering_iff (inv.begun peer needed)
      rw [perform_offerCreated]
      refine ⟨fun allowed => ⟨cl, if_pos (turn.mpr allowed)⟩, ?_⟩
      · intro cl' result
        split at result
        · next passes =>
            cases result
            refine ⟨turn.mp passes, inv.snoc (by rintro p ⟨⟩) (fun _ inside => inside) inv.state
              (by simp [Happening.needsOffer]) ?_⟩
            intro p created
            cases of_decide_eq_true created
            exact needed
        · cases result
  | answerCreated peer body =>
      have turn := inv.answering_iff
      rw [perform_answerCreated]
      refine ⟨fun allowed => ⟨_, if_pos (turn.mpr allowed)⟩, ?_⟩
      intro cl' result
      split at result
      · next passes =>
          cases result
          exact ⟨turn.mp passes, inv.snoc (by rintro p ⟨⟩) (fun _ inside => inside) rfl
            (by simp [Happening.moves]) (by simp [Happening.createsOffer])⟩
      · cases result
  | message peer payload =>
      have handled : ∃ cl', perform prog parse cl (.message peer payload) = .ok cl' ∧
          Carries parse called (before ++ [.message peer payload]) cl' := inv.message behaved
      obtain ⟨cl', result, after⟩ := handled
      refine ⟨fun _ => ⟨cl', result⟩, ?_⟩
      intro cl'' again
      cases result.symm.trans again
      exact ⟨True.intro, after⟩
  | joined peer =>
      obtain ⟨clean, fresh⟩ := behaved
      rw [perform_joined clean]
      refine ⟨fun _ => ⟨_, rfl⟩, ?_⟩
      rintro cl' ⟨⟩
      refine ⟨True.intro, inv.snoc ?_ (fun _ inside => List.mem_cons_of_mem _ inside) inv.state
        (by rintro p ⟨⟩) (by rintro p ⟨⟩)⟩
      intro p now
      cases of_decide_eq_true now
      exact ⟨clean, List.mem_cons_self⟩

/-- The client when it has handled its `ROOM_OK`. -/
theorem start {joining start : Client} {sent : List Text} (clean : ∀ peer ∈ called, Clean peer)
    (waits : joining.appState = .roomJoining) (looping : joining.looping = true)
    (roomOk : joining.onServerMessage prog parse .good ("ROOM_OK ".toList ++ joinSpace called) =
      .ok (start, sent)) : Carries parse called [] start := by
  have data : ofData ("ROOM_OK ".toList ++ joinSpace called) =
      "ROOM_OK ".toList ++ joinSpace called := by
    rw [ofData_append (by decide), ofData_eq_self (noNul_joinSpace clean)]
  have starts : hasPrefix ("ROOM_OK ".toList ++ joinSpace called) "ROOM_OK ".toList = true :=
    hasPrefix_iff.mpr (List.prefix_append _ _)
  have joins : doJoinRoom .good joining ("ROOM_OK ".toList ++ joinSpace called) = .ok start := by
    have handled := roomOk
    unfold onServerMessage at handled
    dsimp only at handled
    rw [data, if_neg (by rintro ⟨⟩), if_pos (hasPrefix_shorter starts (by decide)),
      if_pos starts] at handled
    exact (ok_of_map handled).1
  obtain ⟨goesOn, state⟩ := doJoinRoom_joined joins waits rfl
  have peers : start.peers = (Reply.notices [.roomOk [] called]).foldl Notice.keep joining.peers := by
    rw [onServerMessage_peers roomOk (goesOn.trans looping)]
    have folded : peersAfter joining.peers ((Reply.roomOk [] called).text id) =
        (Reply.notices [.roomOk [] called]).foldl Notice.keep joining.peers :=
      peersAfter_text clean (by simp)
    exact folded
  refine ⟨?_, state, by rintro peer ⟨⟩, by rintro peer ⟨⟩⟩
  intro peer known
  have listed : peer ∈ called := known.resolve_right (by simp)
  refine ⟨clean peer listed, ?_⟩
  rw [peers]
  change peer ∈ called.foldl (fun list member => member :: list) joining.peers
  rw [List.foldl_flip_cons_eq_append', List.mem_append, List.mem_reverse]
  exact Or.inl listed

/-- A whole run goes without a fault exactly when each event is in turn. -/
theorem play_iff {start : Client} {events : List Happening} (first : Carries parse called [] start)
    (behaved : Grown (Behaved parse called) events) :
    ((∃ cl, play prog parse start events = .ok cl) ↔ Grown (InTurn parse) events) ∧
      ∀ cl, play prog parse start events = .ok cl → Carries parse called events cl := by
  induction behaved with
  | nil =>
      refine ⟨iff_of_true ⟨start, rfl⟩ .nil, ?_⟩
      rintro cl ⟨⟩
      exact first
  | @snoc before e grown fits ih =>
      obtain ⟨same, carries⟩ := ih
      rw [play_snoc]
      refine ⟨⟨?_, ?_⟩, ?_⟩
      · rintro ⟨cl', result⟩
        cases earlier : play prog parse start before with
        | error fault =>
            rw [earlier] at result
            cases result
        | ok cl =>
            rw [earlier] at result
            exact .snoc (same.mp ⟨cl, earlier⟩)
              (((carries cl earlier).perform_iff fits).2 cl' result).1
      · intro inTurn
        obtain ⟨grown, turn⟩ := inTurn.of_snoc
        obtain ⟨cl, earlier⟩ := same.mpr grown
        rw [earlier]
        exact ((carries cl earlier).perform_iff fits).1 turn
      · intro cl' result
        cases earlier : play prog parse start before with
        | error fault =>
            rw [earlier] at result
            cases result
        | ok cl =>
            rw [earlier] at result
            exact (((carries cl earlier).perform_iff fits).2 cl' result).2

end Carries

/--
After `ROOM_OK` no assertion on the application state fails, whatever the peers
and the pipeline do, exactly when the callback of each offer and each answer
runs before another negotiation moves on.
-/
theorem no_assertion_iff {prog : Program} {parse : Text → Option Json} {called : List Text}
    {joining start : Client} {sent : List Text} {events : List Happening}
    (clean : ∀ peer ∈ called, Clean peer) (waits : joining.appState = .roomJoining)
    (looping : joining.looping = true)
    (roomOk : joining.onServerMessage prog parse .good ("ROOM_OK ".toList ++ joinSpace called) =
      .ok (start, sent))
    (behaved : Grown (Behaved parse called) events) :
    (∃ cl, play prog parse start events = .ok cl) ↔ Grown (InTurn parse) events :=
  (Carries.play_iff (Carries.start clean waits looping roomOk) behaved).1

/-! ## Two peers that are called at once -/

/-- A peer's answer. -/
def answerText : CString :=
  ⟨"\x7b\"sdp\":\x7b\"type\":\"answer\",\"sdp\":\"v=0\"\x7d\x7d".toList, by decide⟩

/-- The JSON text of an offer, without its first brace. -/
def offerBody : Text :=
  "\"sdp\":\x7b\"type\":\"offer\",\"sdp\":\"v=0\"\x7d\x7d".toList

/-- What json-glib makes of that answer. -/
def answerParse (text : Text) : Option Json :=
  if text = answerText.text then
    some (.object [("sdp".toList, .object [("type".toList, .string "answer".toList),
      ("sdp".toList, .string "v=0".toList)])])
  else none

/-- The client when it waits for `ROOM_OK`. -/
def waiting : Client := ⟨.roomJoining, [], true, true⟩

/-- The client in a room with `a` and `b`. -/
def inCall : Client := ⟨.roomCallOffering, ["b".toList, "a".toList], true, true⟩

theorem clean_pair : ∀ peer ∈ ["a".toList, "b".toList], Clean peer := by
  intro peer listed
  rcases List.mem_pair.mp listed with rfl | rfl
  · exact ⟨by decide, by decide⟩
  · exact ⟨by decide, by decide⟩

theorem waiting_roomOk : waiting.onServerMessage programX answerParse .good
    ("ROOM_OK ".toList ++ joinSpace ["a".toList, "b".toList]) = .ok (inCall, []) := rfl

/-- The offer for `a` is created and answered while the one for `b` is needed. -/
def overlap : List Happening :=
  [.negotiationNeeded "a".toList, .negotiationNeeded "b".toList, .offerCreated "a".toList offerBody,
    .message "a".toList answerText, .offerCreated "b".toList offerBody]

theorem overlap_behaved : Grown (Behaved answerParse ["a".toList, "b".toList]) overlap := by
  have a : "a".toList ∈ ["a".toList, "b".toList] := by decide
  have b : "b".toList ∈ ["a".toList, "b".toList] := by decide
  have grown : Grown (Behaved answerParse ["a".toList, "b".toList])
      ([] ++ [.negotiationNeeded "a".toList] ++ [.negotiationNeeded "b".toList] ++
        [.offerCreated "a".toList offerBody] ++ [.message "a".toList answerText] ++
        [.offerCreated "b".toList offerBody]) := by
    refine .snoc (.snoc (.snoc (.snoc (.snoc .nil a) b) ?_) ?_) ?_
    · exact Nat.zero_lt_one
    · exact ⟨Or.inl a, rfl, rfl⟩
    · exact Nat.zero_lt_one
  exact grown

theorem overlap_faults : play programX answerParse inCall overlap = .error .assertion := rfl

theorem no_assertion_in_turn :
    ∃ cl, play programX answerParse inCall (overlap.take 4) = .ok cl := by
  have behaved : Grown (Behaved answerParse ["a".toList, "b".toList]) (overlap.take 4) := by
    have whole := overlap_behaved
    rw [← List.take_append_drop 4 overlap] at whole
    exact whole.of_append
  have turns : Grown (InTurn answerParse)
      ([] ++ [.negotiationNeeded "a".toList] ++ [.negotiationNeeded "b".toList] ++
        [.offerCreated "a".toList offerBody] ++ [.message "a".toList answerText]) :=
    .snoc (.snoc (.snoc (.snoc .nil True.intro) True.intro) rfl) True.intro
  exact (no_assertion_iff clean_pair rfl rfl waiting_roomOk behaved).mpr turns

theorem assertion_fails :
    ¬ ∀ (prog : Program) (parse : Text → Option Json) (called : List Text)
      (joining start : Client) (sent : List Text) (events : List Happening),
      (∀ peer ∈ called, Clean peer) → joining.appState = .roomJoining → joining.looping = true →
      joining.onServerMessage prog parse .good ("ROOM_OK ".toList ++ joinSpace called) =
        .ok (start, sent) →
      Grown (Behaved parse called) events → ∃ cl, play prog parse start events = .ok cl := by
  intro safe
  obtain ⟨cl, result⟩ := safe programX answerParse ["a".toList, "b".toList] waiting inCall []
    overlap clean_pair rfl rfl waiting_roomOk overlap_behaved
  cases overlap_faults.symm.trans result

end GstWebrtc.Multiparty
