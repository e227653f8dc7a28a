import GstWebrtc.Sendrecv.PageCall

/-!
# The steps of a call

What a callback of the program and a promise of the page do while a call is
negotiated.
-/

namespace GstWebrtc.Sendrecv

open GstWebrtc.Base GstWebrtc.Browser

/-! ## What is under way -/

def sdpFrame (description : Description) : Frame :=
  .json (.object [("sdp".toList, descriptionJson description)])

def iceFrame (members : List (Text × Json)) : Frame :=
  .json (.object [("ice".toList, .object members)])

/-- Texts that the parties send, with the descriptions among them. -/
inductive Says : List Frame → List Description → Prop where
  | nil : Says [] []
  | sdp {frames descriptions} (description : Description) (later : Says frames descriptions) :
      Says (sdpFrame description :: frames) (description :: descriptions)
  | ice {frames descriptions members} {candidate : Text}
      (holds : members.lookup "candidate".toList = some (.string candidate))
      (later : Says frames descriptions) : Says (iceFrame members :: frames) descriptions

namespace Says

variable {frames later : List Frame} {descriptions others : List Description}

theorem append (spoken : Says frames descriptions) (more : Says later others) :
    Says (frames ++ later) (descriptions ++ others) := by
  induction spoken with
  | nil => exact more
  | sdp description _ ih => exact .sdp description ih
  | ice holds _ ih => exact .ice holds ih

theorem single (description : Description) : Says [sdpFrame description] [description] :=
  .sdp description .nil

theorem append_ice {members : List (Text × Json)} {candidate : Text}
    (spoken : Says frames descriptions)
    (holds : members.lookup "candidate".toList = some (.string candidate)) :
    Says (frames ++ [iceFrame members]) descriptions := by
  have both := spoken.append (.ice holds .nil)
  rwa [List.append_nil] at both

end Says

theorem programCandidate_holds (mlineindex : Nat) (candidate : Text) :
    [("candidate".toList, Json.string candidate),
      ("sdpMLineIndex".toList, .number mlineindex)].lookup "candidate".toList =
        some (.string candidate) := rfl

/-! ## The callbacks -/

section Callbacks

variable {prog : Program} {w : Call}

theorem callback_acted {frame : Frame} {event : Event} {state : AppState}
    {requests : List Request} (running : w.halted = none)
    (acted : perform prog frame.parse w.state event = .ok (state, .acted requests)) :
    w.callback prog frame event = some (requests.foldl Call.request { w with state := state }) := by
  simp only [Call.callback, running, acted]

/-- As long as the program runs, it handles what happens. -/
theorem callback_ne_none (running : w.halted = none) (frame : Frame) (event : Event) :
    w.callback prog frame event ≠ none := by
  simp only [Call.callback, running]
  split <;> nofun

theorem programReceives_ne_none (running : w.halted = none) (waiting : w.toProgram ≠ []) :
    w.step prog .programReceives ≠ none := by
  obtain ⟨frame, rest, same⟩ := List.exists_cons_of_ne_nil waiting
  have others : ({ w with toProgram := rest } : Call).halted = none := running
  rw [Call.step, same]
  exact callback_ne_none others _ _

theorem negotiationNeeded_ne_none (running : w.halted = none) (needed : w.unnegotiated = true) :
    w.step prog .negotiationNeeded ≠ none := by
  have others : ({ w with unnegotiated := false } : Call).halted = none := running
  rw [Call.step, if_pos needed]
  exact callback_ne_none others _ _

theorem callback_ice (running : w.halted = none) {members : List (Text × Json)} {candidate : Text}
    (holds : members.lookup "candidate".toList = some (.string candidate)) :
    w.callback prog (iceFrame members) (.textMessage ⟨true, true⟩ (iceFrame members).data) =
      some w := by
  have child : JsonObject.getObjectMember
      (some [("ice".toList, Json.object members)]) "ice".toList = some members := rfl
  have ice : onIce w.state (some [("ice".toList, Json.object members)]) =
      .ok (w.state, .acted [.addIceCandidate
        ((JsonObject.getIntMember (some members) "sdpMLineIndex".toList).bmod 0x100000000)
        candidate]) := by
    simp only [onIce, child, JsonObject.getStringMember, JsonObject.getMember, Option.bind_some,
      holds]
  have performed : perform prog (iceFrame members).parse w.state
      (.textMessage ⟨true, true⟩ (iceFrame members).data) = _ := ice
  exact callback_acted running performed

/-- A description is taken while the negotiation is going on. -/
theorem callback_answer (running : w.halted = none) (negotiating : w.state = .peerCallNegotiating)
    (sdp : Text) :
    w.callback prog (sdpFrame (.answer sdp)) (.textMessage ⟨true, true⟩
      (sdpFrame (.answer sdp)).data) =
      some { w with
        state := .peerCallStarted
        webrtc1 := w.webrtc1.chain (.setRemoteDescription (.answer sdp)) } := by
  have acted : perform prog (sdpFrame (.answer sdp)).parse .peerCallNegotiating
      (.textMessage ⟨true, true⟩ (sdpFrame (.answer sdp)).data) =
        .ok (.peerCallStarted, .acted [.setRemoteDescription .answer sdp]) := rfl
  rw [← negotiating] at acted
  exact callback_acted running acted

theorem callback_offer (running : w.halted = none) (negotiating : w.state = .peerCallNegotiating)
    (sdp : Text) :
    w.callback prog (sdpFrame (.offer sdp)) (.textMessage ⟨true, true⟩
      (sdpFrame (.offer sdp)).data) =
      some { w with webrtc1 := w.webrtc1.chain (.setRemoteDescription (.offer sdp)) } := by
  have acted : perform prog (sdpFrame (.offer sdp)).parse .peerCallNegotiating
      (.textMessage ⟨true, true⟩ (sdpFrame (.offer sdp)).data) =
        .ok (.peerCallNegotiating, .acted [.setRemoteDescription .offer sdp]) := rfl
  rw [← negotiating] at acted
  exact callback_acted running acted

/-- In a call the candidates are sent as they are gathered. -/
theorem callback_iceCandidate (running : w.halted = none)
    (inCall : AppState.peerCallNegotiating.code ≤ w.state.code) (mlineindex : Nat)
    (candidate : Text) :
    w.callback prog Call.noFrame (.iceCandidate mlineindex candidate) =
      some { w with toPage := w.toPage ++ [iceFrame [("candidate".toList, .string candidate),
        ("sdpMLineIndex".toList, .number mlineindex)]] } := by
  have sent : perform prog Call.noFrame.parse w.state (.iceCandidate mlineindex candidate) =
      .ok (sendIceCandidateMessage w.state mlineindex candidate) := rfl
  rw [sendIceCandidateMessage, if_neg (Nat.not_lt.mpr inCall)] at sent
  exact callback_acted running sent

end Callbacks

/-! ## The page in a call -/

/-- The pending callback of `getUserMedia`, or what it has come to. -/
def mediaTasks : Option Bool → List Task
  | none => [.userMedia 0]
  | some _ => []

def mediaStreams : Option Bool → List (Nat × Bool)
  | none => []
  | some ok => [(0, ok)]

def inCall (peerId : Text) (media : Option Bool) (tasks : List Task) (log : List Effect) : Page :=
  { registered peerId with
    connectAttempts := 0
    calls := [0]
    peerConnection := some 0
    localStreamPromise := some 0
    streams := mediaStreams media
    tasks := mediaTasks media ++ tasks
    log := log }

section Page

variable {peerId : Text} {w : Call}

/-- Before the page has a connection it makes one for the first message of a peer. -/
inductive Called (peerId : Text) : Page → Option Bool → List Task → List Effect → Prop where
  | waiting : Called peerId (registered peerId) none [] []
  | called (media tasks log) : Called peerId (inCall peerId media tasks log) media tasks log

theorem pageReceives_ice {media : Option Bool} {tasks : List Task} {log : List Effect}
    (called : Called peerId w.page media tasks log) (members : List (Text × Json)) :
    w.pageReceives (iceFrame members) =
      some { w with page := inCall peerId media tasks log } := by
  obtain ⟨_, _, _, _, page, _⟩ := w
  cases called with
  | waiting => rfl
  | called => rfl

theorem pageReceives_offer {media : Option Bool} {tasks : List Task} {log : List Effect}
    (called : Called peerId w.page media tasks log) (sdp : Text) :
    w.pageReceives (sdpFrame (.offer sdp)) =
      some { w with
        page := inCall peerId media (tasks ++ [.remoteSet 0 true]) log
        peerConnection := w.peerConnection.chain (.setRemoteDescription (.offer sdp)) } := by
  obtain ⟨_, _, _, _, page, _⟩ := w
  cases called with
  | waiting => rfl
  | called =>
      rw [inCall, ← List.append_assoc]
      rfl

theorem pageReceives_answer {media : Option Bool} {tasks : List Task} {log : List Effect}
    (called : Called peerId w.page media tasks log) (sdp : Text) :
    w.pageReceives (sdpFrame (.answer sdp)) =
      some { w with
        page := inCall peerId media (tasks ++ [.remoteSet 0 false]) log
        peerConnection := w.peerConnection.chain (.setRemoteDescription (.answer sdp)) } := by
  obtain ⟨_, _, _, _, page, _⟩ := w
  cases called with
  | waiting => rfl
  | called =>
      rw [inCall, ← List.append_assoc]
      rfl

/-! ### Its promises -/

/-- An operation is done and its callback runs. -/
theorem operation_eq {prog : Program} {generated : Text} {op : Operation} {result : Result}
    {pc : PeerConnection} {index : Nat} {page : Page} (effects : List Effect)
    (done : w.peerConnection.advance generated = some (op, result, pc))
    (found : w.page.tasks.findIdx? Call.chained = some index)
    (settles : w.page.step ⟨none, Call.noFrame.parse⟩ (.settles index (result ≠ .failed)) = some page)
    (logged : page.log = w.page.log ++ effects) :
    w.step prog (.operation generated) =
      some { w with
        page := page
        peerConnection :=
          { pc with operations := pc.operations ++ effects.filterMap (Call.asks result) }
        toProgram := w.toProgram ++ effects.filterMap (Call.sends pc) } := by
  simp only [Call.step, done, found, settles, Option.map_some, Call.pageRan, logged, List.drop_left]

/-- A callback runs that waits for no operation. -/
theorem promise_eq {prog : Program} {index : Nat} {ok : Bool} {task : Task} {page : Page}
    (effects : List Effect) (found : w.page.tasks[index]? = some task)
    (free : Call.chained task = false)
    (settles : w.page.step ⟨none, Call.noFrame.parse⟩ (.settles index ok) = some page)
    (logged : page.log = w.page.log ++ effects) :
    w.step prog (.promise index ok) =
      some { w with
        page := page
        peerConnection :=
          { w.peerConnection with
            operations := w.peerConnection.operations ++ effects.filterMap (Call.asks .set) }
        toProgram := w.toProgram ++ effects.filterMap (Call.sends w.peerConnection) } := by
  simp only [Call.step, found, free, if_neg Bool.false_ne_true, settles, Option.map_some,
    Call.pageRan, logged, List.drop_left]

section Stages

variable {prog : Program} {media : Option Bool} {ok : Bool} {log : List Effect}
  {tasks : List Task} {o a : Text}

/-- The effects of `getUserMedia`. -/
def mediaEffects : Bool → List Effect
  | true => [.addStream 0 0]
  | false => []

theorem promise_userMedia (page : w.page = inCall peerId none tasks log) (ok : Bool) :
    w.step prog (.promise 0 ok) =
      some { w with page := inCall peerId (some ok) tasks (log ++ mediaEffects ok) } := by
  obtain ⟨_, _, _, _, _, pc, toProgram, _⟩ := w
  cases page
  have settles : (inCall peerId none tasks log).step ⟨none, Call.noFrame.parse⟩ (.settles 0 ok) =
      some (inCall peerId (some ok) tasks (log ++ mediaEffects ok)) := by
    cases ok with
    | true => rfl
    | false => rw [mediaEffects, List.append_nil]; rfl
  have free : (mediaEffects ok).filterMap (Call.asks .set) = [] ∧
      (mediaEffects ok).filterMap (Call.sends pc) = [] := by cases ok <;> exact ⟨rfl, rfl⟩
  rw [promise_eq (mediaEffects ok) rfl rfl settles rfl, free.1, free.2, List.append_nil,
    List.append_nil]

/-- The callback of a page waits for an operation or for the local stream. -/
def Waits (task : Task) : Prop := Call.chained task = true ∨ task.waitsFor = some 0

/-- `getUserMedia` is settled, or the one callback runs that waits for it. -/
theorem promise_cases {w' : Call} {index : Nat} {task : Option Task}
    (called : Called peerId w.page media tasks log) (one : tasks = task.toList)
    (waits : ∀ t ∈ task, Waits t)
    (fires : w.step prog (.promise index ok) = some w') :
    (media = none ∧
      w' = { w with page := inCall peerId (some ok) tasks (log ++ mediaEffects ok) }) ∨
    (index = 0 ∧ ∃ b t, media = some b ∧ task = some t ∧ Call.chained t = false) := by
  obtain ⟨_, _, _, _, page, pc, toProgram, _⟩ := w
  cases called with
  | waiting => cases fires
  | called =>
      subst one
      cases media with
      | none =>
          cases index with
          | zero =>
              rw [promise_userMedia rfl] at fires
              exact Or.inl ⟨rfl, (Option.some.inj fires).symm⟩
          | succ i =>
              cases task with
              | none => cases fires
              | some t =>
                  cases i with
                  | succ i => cases fires
                  | zero =>
                      rcases waits t rfl with chained | stream
                      · simp [Call.step, mediaTasks, chained] at fires
                      · simp [Call.step, mediaTasks, Page.step, Page.ready, stream,
                          mediaStreams] at fires
      | some b =>
          cases task with
          | none => cases fires
          | some t =>
              cases index with
              | succ i => cases fires
              | zero =>
                  refine Or.inr ⟨rfl, b, t, rfl, rfl, ?_⟩
                  by_contra chained
                  simp [Call.step, mediaTasks, chained] at fires

theorem promise_answer (page : w.page = inCall peerId (some ok) [.answer 0 0] log) (i : Bool) :
    w.step prog (.promise 0 i) =
      some { w with
        page := inCall peerId (some ok) [.created 0] (log ++ [.createAnswer 0 0])
        peerConnection := w.peerConnection.chain .createAnswer } := by
  obtain ⟨_, _, _, _, _, pc, toProgram, _⟩ := w
  cases page
  have settles : (inCall peerId (some ok) [.answer 0 0] log).step ⟨none, Call.noFrame.parse⟩
      (.settles 0 i) =
        some (inCall peerId (some ok) [.created 0] (log ++ [.createAnswer 0 0])) := rfl
  rw [promise_eq [.createAnswer 0 0] rfl rfl settles rfl]
  simp [Call.asks, Call.sends, PeerConnection.chain]

theorem promise_generateOffer (page : w.page = inCall peerId (some ok) [.generateOffer 0] log)
    (i : Bool) :
    w.step prog (.promise 0 i) =
      some { w with
        page := inCall peerId (some ok) [.created 0] (log ++ [.createOffer 0 0])
        peerConnection := w.peerConnection.chain .createOffer } := by
  obtain ⟨_, _, _, _, _, pc, toProgram, _⟩ := w
  cases page
  have settles : (inCall peerId (some ok) [.generateOffer 0] log).step ⟨none, Call.noFrame.parse⟩
      (.settles 0 i) =
        some (inCall peerId (some ok) [.created 0] (log ++ [.createOffer 0 0])) := rfl
  rw [promise_eq [.createOffer 0 0] rfl rfl settles rfl]
  simp [Call.asks, Call.sends, PeerConnection.chain]

theorem operation_remoteSet {generated : Text} {description : Description} {offer : Bool}
    {pc : PeerConnection} (page : w.page = inCall peerId media [.remoteSet 0 offer] log)
    (done : w.peerConnection.advance generated =
      some (.setRemoteDescription description, .set, pc)) :
    w.step prog (.operation generated) =
      some { w with
        page := inCall peerId media (if offer then [.answer 0 0] else []) log
        peerConnection := pc } := by
  obtain ⟨_, _, _, _, _, _, toProgram, _⟩ := w
  cases page
  have found : (inCall peerId media [.remoteSet 0 offer] log).tasks.findIdx? Call.chained =
      some (mediaTasks media).length := by cases media <;> rfl
  have settles : (inCall peerId media [.remoteSet 0 offer] log).step ⟨none, Call.noFrame.parse⟩
      (.settles (mediaTasks media).length true) =
        some (inCall peerId media (if offer then [.answer 0 0] else []) log) := by
    cases media <;> cases offer <;> rfl
  rw [operation_eq [] done found settles (List.append_nil _).symm]
  simp

theorem operation_created {generated : Text} {op : Operation} {description : Description}
    {pc : PeerConnection} (page : w.page = inCall peerId (some ok) [.created 0] log)
    (done : w.peerConnection.advance generated = some (op, .created description, pc)) :
    w.step prog (.operation generated) =
      some { w with
        page := inCall peerId (some ok) [.localSet 0] (log ++ [.setLocalDescription 0 0])
        peerConnection := pc.chain (.setLocalDescription description) } := by
  obtain ⟨_, _, _, _, _, _, toProgram, _⟩ := w
  cases page
  have settles : (inCall peerId (some ok) [.created 0] log).step ⟨none, Call.noFrame.parse⟩
      (.settles 0 true) =
        some (inCall peerId (some ok) [.localSet 0] (log ++ [.setLocalDescription 0 0])) := rfl
  rw [operation_eq [.setLocalDescription 0 0] done rfl settles rfl]
  simp [Call.asks, Call.sends, PeerConnection.chain]

theorem operation_localSet {generated : Text} {op : Operation} {description : Description}
    {pc : PeerConnection} (page : w.page = inCall peerId (some ok) [.localSet 0] log)
    (done : w.peerConnection.advance generated = some (op, .set, pc))
    (set : pc.localDescription = some description) :
    w.step prog (.operation generated) =
      some { w with
        page := inCall peerId (some ok) [] (log ++ [.sendSdp 0 0 0])
        peerConnection := pc
        toProgram := w.toProgram ++ [sdpFrame description] } := by
  obtain ⟨_, _, _, _, _, _, toProgram, _⟩ := w
  cases page
  have settles : (inCall peerId (some ok) [.localSet 0] log).step ⟨none, Call.noFrame.parse⟩
      (.settles 0 true) =
        some (inCall peerId (some ok) [] (log ++ [.sendSdp 0 0 0])) := rfl
  have nothing : [Effect.sendSdp 0 0 0].filterMap (Call.asks .set) = [] := rfl
  have frame : [Effect.sendSdp 0 0 0].filterMap (Call.sends pc) = [sdpFrame description] := by
    simp [Call.sends, set, sdpFrame]
  rw [operation_eq [.sendSdp 0 0 0] done rfl settles rfl, nothing, frame, List.append_nil]

end Stages

end Page

end GstWebrtc.Sendrecv
