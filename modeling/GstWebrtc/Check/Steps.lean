import GstWebrtc.Check.Ends
import Mathlib.Algebra.GroupWithZero.Nat

/-!
# The steps of a test

Each step of a test moves one of the two ends, or the thread of the scenario, and
changes what is on its way between them.
-/

namespace GstWebrtc.Check

open GstWebrtc.Base GstWebrtc.Browser

/-- The states that an end has gone through. -/
def story (c : ClientView) (p : PageView) : Which → List NegotiationState
  | .local => c.history
  | .remote => statesOf p.reports

/-- Each end has been told a part of what the other one has told it. -/
structure Told (c : ClientView) (p : PageView) : Prop where
  commands : p.received <+: c.commands
  reports : c.received <+: descriptionsOf p.reports

/-- An action that asks one of the ends for a description. -/
inductive Asks : Action → Operation → Which → Prop where
  | offer (which) : Asks (.createOffer which) .createOffer which
  | answer (which) : Asks (.createAnswer which) .createAnswer which

/-- The steps that an action takes, with a text that it sends. -/
def Action.work : Action → Nat
  | createOffer .remote | createAnswer .remote => 2
  | _ => 1

def streamWork (settled : Bool) : Nat := if settled then 0 else 1

/-- The steps that are left at none of the two ends. -/
def Test.queued (w : Test) : Nat :=
  (w.script.map Action.work).sum + w.toPage.length + w.toClient.length +
    streamWork w.page.streamSettled

/-- Only candidates are left to come. -/
def Test.AtRest (w : Test) : Prop := ∀ act : Test.Act, act.gathers = false → w.step act = none

/-- How far the ends of a test are. -/
structure Ends (w : Test) (c : ClientView) (p : PageView) : Prop where
  running : w.failed = false
  listening : w.stopped = false
  connected : w.page.connected = true
  webrtcbin : w.webrtcbin = c.connection
  callback : w.callback = c.callback
  peerConnection : w.page.peerConnection = p.connection
  waiting : w.page.waiting = p.waiting
  down : ∃ items, Bears PageReads w.toPage items ∧ Arrives p.received items c.commands
  up : ∃ heard items, Bears ClientReads w.toClient items ∧ heard ++ items = p.reports ∧
    descriptionsOf heard = c.received ∧
    Watches w.remoteClient.stateObserver (statesOf heard) (waits .remote w.script)
  watches : Watches w.observer c.history (waits .local w.script)

namespace Ends

variable {w w' : Test} {c : ClientView} {p : PageView} {generated : Text}

theorem told (ends : Ends w c p) : Told c p where
  commands := by
    obtain ⟨items, -, arrives⟩ := ends.down
    exact arrives.isPrefix
  reports := by
    obtain ⟨heard, items, -, split, received, -⟩ := ends.up
    rw [← received, ← split]
    exact (List.prefix_append _ _).filterMap _

theorem inCall (ends : Ends w c p) : w.page.inCall = p.connection.getD .new :=
  congrArg (Option.getD · PeerConnection.new) ends.peerConnection

/-- The thread of `webrtcbin` does what it does to the client alone. -/
theorem pcThread (ends : Ends w c p) (fires : w.step (.pcThread generated) = some w') :
    ∃ c', c.pcThread generated = some c' ∧ Ends w' c' p ∧ w'.script = w.script ∧
      w'.queued + c.commands.length = w.queued + c'.commands.length := by
  simp only [Test.step] at fires
  split at fires
  · next statement rest first =>
      have here : c.callback = statement :: rest := ends.callback.symm.trans first
      refine ⟨_, by rw [ClientView.pcThread, here], ?_⟩
      cases fires
      cases statement with
      | updateNegotiationState state =>
          exact ⟨{ ends with
            callback := rfl
            watches := ends.watches.update state }, rfl, rfl⟩
      | setLocalDescription d =>
          exact ⟨{ ends with
            callback := rfl
            webrtcbin := congrArg (PeerConnection.chain _) ends.webrtcbin }, rfl, rfl⟩
      | fireCreated d =>
          obtain ⟨items, bears, arrives⟩ := ends.down
          refine ⟨{ ends with
            callback := rfl
            down := ⟨_, bears.send (pageReads_description d), arrives.send (by simp)⟩ }, rfl, ?_⟩
          simp only [Test.queued, Test.runStatement, ClientView.run, List.length_append,
            List.length_singleton]
          omega
  · next none_left =>
      obtain ⟨⟨op, result, pc⟩, done, rfl⟩ := Option.map_eq_some_iff.mp fires
      rw [ends.webrtcbin] at done
      have here : c.callback = [] := ends.callback.symm.trans none_left
      refine ⟨{ c with connection := pc, callback := changeFunc op result }, ?_, ?_, rfl, rfl⟩
      · rw [ClientView.pcThread, here, done]
        rfl
      · exact { ends with webrtcbin := rfl, callback := rfl }

/-- A text is read, and what the page told is known. -/
theorem asyncio (ends : Ends w c p) (fires : w.step .asyncio = some w') :
    w'.script = w.script ∧ w'.queued + 1 = w.queued ∧ (Ends w' c p ∨
      ∃ d, c.received ++ [d] <+: descriptionsOf p.reports ∧ Ends w' (c.hear d) p) := by
  simp only [Test.step] at fires
  split at fires
  · next msg rest _ first =>
      obtain ⟨heard, items, bears, split, received, watches⟩ := ends.up
      rw [first] at bears
      have counted : (rest.length + 1) = w.toClient.length := by rw [first, List.length_cons]
      have reads {item : Option Item} (means : ClientReads msg item) (known : RemoteWebRTCObserver)
          (after : w.remoteClient.onJson msg = (known, none)) :
          w' = (item.bind Item.toDescription).elim
            { w with toClient := rest, remoteClient := known }
            fun d => { w with
              toClient := rest
              remoteClient := known
              webrtcbin := w.webrtcbin.chain (.setRemoteDescription d) } := by
        have same := Option.some.inj fires
        simp only [Test.fireHaveJson, after, means.given] at same
        rw [← same]
        cases item.bind Item.toDescription <;> rfl
      rcases bears.take with ⟨means, later⟩ | ⟨item, items', rfl, means, later⟩
      · obtain ⟨known, after, observer⟩ := means.observed w.remoteClient
        cases reads means known after
        refine ⟨rfl, ?_, Or.inl { ends with up := ⟨heard, items, later, split, received, ?_⟩ }⟩
        · simp only [Test.queued, Option.bind_none, Option.elim_none]
          omega
        · have observed := watches.observe observer
          rwa [Option.bind_none, Option.toList_none, List.append_nil] at observed
      · obtain ⟨known, after, observer⟩ := means.observed w.remoteClient
        cases reads means known after
        have split' : (heard ++ [item]) ++ items' = p.reports := by
          rw [List.append_assoc, ← split, List.singleton_append]
        have observed : Watches known.stateObserver (statesOf (heard ++ [item]))
            (waits .remote w.script) := by
          rw [statesOf_append]
          exact watches.observe observer
        have told := descriptionsOf_append heard item
        rw [received] at told
        cases given : item.toDescription with
        | none =>
            rw [given, Option.toList_none, List.append_nil] at told
            simp only [Option.bind_some, given, Option.elim_none]
            refine ⟨trivial, ?_, Or.inl { ends with
              up := ⟨_, items', later, split', told, observed⟩ }⟩
            simp only [Test.queued]
            omega
        | some d =>
            rw [given, Option.toList_some] at told
            simp only [Option.bind_some, given, Option.elim_some]
            refine ⟨trivial, ?_, Or.inr ⟨d, ?_, { ends with
              webrtcbin := congrArg (PeerConnection.chain _) ends.webrtcbin
              up := ⟨_, items', later, split', told, observed⟩ }⟩⟩
            · simp only [Test.queued]
              omega
            · rw [← told, ← split']
              exact (List.prefix_append _ _).filterMap _
  · cases fires

theorem ran_silent (w : Test) (page : TestPage) : w.ran (page, []) = { w with page := page } := by
  rw [Test.ran, List.append_nil]

/-- The page is told of a candidate, or of something that it is to do. -/
theorem pageReceives (ends : Ends w c p) (fires : w.step .pageReceives = some w')
    (ready : ∀ d, .description d ∈ p.received →
      ∃ pc, p.connection = some pc ∧ hearsCandidates pc = true) :
    w'.script = w.script ∧ w'.queued + 1 = w.queued ∧ (Ends w' c p ∨
      ∃ item, p.received ++ [item] <+: c.commands ∧ Ends w' c (p.take item)) := by
  simp only [Test.step] at fires
  split at fires
  · next msg rest _ first =>
      obtain ⟨items, bears, arrives⟩ := ends.down
      rw [first] at bears
      have counted : rest.length + 1 = w.toPage.length := by rw [first, List.length_cons]
      have same := Option.some.inj fires
      rcases bears.take with ⟨means, later⟩ | ⟨item, items', rfl, means, later⟩
      · have reads : w.page.onServerMessage msg = (w.page, []) := means w.page
        rw [reads, ran_silent] at same
        subst same
        refine ⟨rfl, ?_, Or.inl { ends with down := ⟨items, later, arrives⟩ }⟩
        simp only [Test.queued]
        omega
      · cases arrives with
        | candidate told arrives =>
            obtain ⟨pc, called, hears⟩ := ready _ told
            have reads : w.page.onServerMessage msg =
                ({ w.page with peerConnection := some pc }, []) := by
              have asked : w.page.onServerMessage msg = w.page.onIncomingICE := means w.page
              have inCall : w.page.inCall = pc := ends.inCall.trans (called ▸ rfl)
              rw [asked, TestPage.onIncomingICE, inCall, if_pos hears]
            rw [reads, ran_silent] at same
            subst same
            refine ⟨rfl, ?_, Or.inl { ends with
              peerConnection := called.symm
              down := ⟨items', later, arrives⟩ }⟩
            simp only [Test.queued]
            omega
        | item _ plain arrives =>
            refine (?_ : _ ∧ _ ∧ ∃ item, _ ∧ _).imp_right (And.imp_right Or.inr)
            cases item with
            | state s => cases means
            | candidate => exact absurd rfl plain
            | asks op =>
                have reads : w.page.onServerMessage msg = w.page.create op := means w.page
                rw [reads, TestPage.create, ran_silent] at same
                subst same
                refine ⟨rfl, ?_, _, arrives.isPrefix, { ends with
                  peerConnection := congrArg some ends.inCall
                  waiting := congrArg (· ++ [op]) ends.waiting
                  down := ⟨items', later, arrives⟩ }⟩
                simp only [Test.queued]
                omega
            | description d =>
                have reads : w.page.onServerMessage msg = ({ w.page with
                  peerConnection := some (w.page.inCall.chain (.setRemoteDescription d)) }, []) :=
                  means w.page
                rw [reads, ran_silent] at same
                subst same
                refine ⟨rfl, ?_, _, arrives.isPrefix, { ends with
                  peerConnection := congrArg
                    (fun pc : PeerConnection => some (pc.chain (.setRemoteDescription d)))
                    ends.inCall
                  down := ⟨items', later, arrives⟩ }⟩
                simp only [Test.queued]
                omega
  · cases fires

theorem stream (ends : Ends w c p) (fires : w.step (.stream true) = some w') :
    w'.script = w.script ∧ w'.queued + 1 = w.queued ∧ Ends w' c p := by
  obtain ⟨ran, settles, rfl⟩ := Option.map_eq_some_iff.mp fires
  rw [TestPage.settleStream] at settles
  split at settles
  · cases settles
  · split at settles
    · cases settles
    · next pending =>
        cases settles
        rw [if_pos rfl, ran_silent]
        refine ⟨rfl, ?_, { ends with }⟩
        simp only [Test.queued, streamWork, if_neg pending, if_true]

theorem runWaiting (ends : Ends w c p) (fires : w.step .waiting = some w') :
    ∃ p', p.runWaiting = some p' ∧ Ends w' c p' ∧ w'.script = w.script ∧
      w'.queued = w.queued := by
  obtain ⟨ran, runs, rfl⟩ := Option.map_eq_some_iff.mp fires
  rw [TestPage.runWaiting] at runs
  split at runs
  · next pc op rest called _ first =>
      cases runs
      rw [ends.peerConnection] at called
      rw [ends.waiting] at first
      rw [ran_silent]
      refine ⟨{ p with connection := some (pc.chain op), waiting := rest }, ?_,
        { ends with peerConnection := rfl, waiting := rfl }, rfl, rfl⟩
      rw [PageView.runWaiting, called, first]
  · cases runs

theorem operate (ends : Ends w c p) (fires : w.step (.operation generated) = some w') :
    ∃ p', p.operate generated = some p' ∧ Ends w' c p' ∧ w'.script = w.script ∧
      w'.queued + p.reports.length = w.queued + p'.reports.length := by
  obtain ⟨ran, operates, rfl⟩ := Option.map_eq_some_iff.mp fires
  rw [TestPage.operate] at operates
  split at operates
  · cases operates
  · next pc called =>
      obtain ⟨⟨op, result, after⟩, done, rfl⟩ := Option.map_eq_some_iff.mp operates
      rw [ends.peerConnection] at called
      obtain ⟨heard, items, bears, split, received, watches⟩ := ends.up
      have more := bears_settled bears after op result
      have counted := length_settled after op result
      refine ⟨{ p with
        connection := some (TestPage.settled after op result).1
        reports := p.reports ++ reported op result }, ?_, { ends with
          peerConnection := rfl
          up := ⟨heard, _, more, by rw [← List.append_assoc, split], received, watches⟩ }, rfl, ?_⟩
      · rw [PageView.operate, called]
        simp only [done, Option.map_some]
      · simp only [Test.queued, Test.ran, List.length_append, counted]
        omega

/-- A candidate of the client follows its description. -/
theorem clientCandidate {mline : Nat} {candidate : Text} (ends : Ends w c p)
    (fires : w.step (.clientCandidate mline candidate) = some w')
    (sent : c.connection.localDescription.isSome = true → ∃ d, .description d ∈ c.commands) :
    w'.script = w.script ∧ w'.queued = w.queued + 1 ∧ Ends w' c p := by
  simp only [Test.step] at fires
  split at fires
  · next gathers =>
      cases fires
      obtain ⟨items, bears, arrives⟩ := ends.down
      obtain ⟨d, told⟩ := sent (ends.webrtcbin ▸ gathers)
      refine ⟨rfl, ?_, { ends with
        down := ⟨_, bears.send (pageReads_candidate _), arrives.sendCandidate told⟩ }⟩
      simp only [Test.queued, List.length_append, List.length_singleton]
      omega
  · cases fires

theorem pageCandidate {candidate : IceCandidate} (ends : Ends w c p)
    (tells : candidate.sdpMLineIndex.isSome = true)
    (fires : w.step (.pageCandidate candidate) = some w') :
    w'.script = w.script ∧ w'.queued = w.queued + 1 ∧ Ends w' c p := by
  simp only [Test.step] at fires
  split at fires
  · cases fires
  · split at fires
    · cases fires
      obtain ⟨heard, items, bears, split, received, watches⟩ := ends.up
      refine ⟨rfl, ?_, { ends with
        up := ⟨heard, items, bears.other (clientReads_candidate candidate tells), split, received,
          watches⟩ }⟩
      simp only [Test.queued, List.length_append, List.length_singleton]
      omega
    · cases fires

theorem scenario {action : Action} {rest : List Action} (ends : Ends w c p)
    (first : w.script = action :: rest) :
    w.step .scenario = Test.onAction { w with script := rest } action := by
  rw [Test.step]
  split
  · next here =>
      cases first.symm.trans here
      rfl
  · next other => exact absurd first (other _ _ ends.running)

/-- The ends are where they were, with fewer waits. -/
theorem dropped {action : Action} {rest : List Action} (ends : Ends w c p)
    (first : w.script = action :: rest) : Ends { w with script := rest } c p := by
  obtain ⟨heard, items, bears, split, received, watches⟩ := ends.up
  have own := ends.watches
  rw [first] at watches own
  exact { ends with
    up := ⟨heard, items, bears, split, received, watches.fewer (waits_tail _ _ _)⟩
    watches := own.fewer (waits_tail _ _ _) }

theorem queued_dropped {action : Action} {rest : List Action} (first : w.script = action :: rest) :
    w.queued = Test.queued { w with script := rest } + action.work := by
  simp only [Test.queued, first, List.map_cons, List.sum_cons]
  omega

/-- One of the ends is asked for a description. -/
theorem asks {action : Action} {op : Operation} {which : Which} {rest : List Action}
    (ends : Ends w c p) (first : w.script = action :: rest) (asks : Asks action op which) :
    ∃ w', w.step .scenario = some w' ∧ Ends w' (c.ask op which) p ∧ w'.script = rest ∧
      w'.queued + 1 = w.queued := by
  have dropped := ends.dropped first
  have told {msg : Json} (reads : PageReads msg (some (.asks op))) :
      Ends { w with script := rest, toPage := w.toPage ++ [msg] } (c.ask op .remote) p := by
    obtain ⟨items, bears, arrives⟩ := ends.down
    exact { dropped with down := ⟨_, bears.send reads, arrives.send (by simp)⟩ }
  have chained : Ends { w with script := rest, webrtcbin := w.webrtcbin.chain op }
      (c.ask op .local) p :=
    { dropped with webrtcbin := congrArg (PeerConnection.chain op) ends.webrtcbin }
  rw [queued_dropped first]
  cases asks with
  | offer which =>
      cases which with
      | «local» => exact ⟨_, ends.scenario first, chained, rfl, rfl⟩
      | remote =>
          refine ⟨_, ends.scenario first, told pageReads_createOffer, rfl, ?_⟩
          simp only [Test.queued, Action.work, List.length_append, List.length_singleton]
          omega
  | answer which =>
      cases which with
      | «local» => exact ⟨_, ends.scenario first, chained, rfl, rfl⟩
      | remote =>
          refine ⟨_, ends.scenario first, told pageReads_createAnswer, rfl, ?_⟩
          simp only [Test.queued, Action.work, List.length_append, List.length_singleton]
          omega

/-- A wait that returns has found its state. -/
theorem waits {awaited : Which × NegotiationState} {rest : List Action} (ends : Ends w c p)
    (first : w.script = wait awaited :: rest)
    (ordered : ∀ which, (story c p which).Sublist NegotiationState.order)
    (later : ∀ which, (waits which w.script).Sublist NegotiationState.order)
    (fires : w.step .scenario = some w') :
    Ends w' c p ∧ w'.script = rest ∧ w'.queued + 1 = w.queued ∧
      awaited.2 ∈ story c p awaited.1 := by
  rw [ends.scenario first] at fires
  obtain ⟨which, state⟩ := awaited
  have dropped := ends.dropped first
  have left := later which
  rw [first, waits_wait, if_pos rfl] at left
  have counts : w.queued = Test.queued { w with script := rest } + 1 := queued_dropped first
  rw [counts]
  cases which with
  | «local» =>
      obtain ⟨⟨found, after⟩, returns, rfl⟩ := Option.map_eq_some_iff.mp fires
      have watches := ends.watches
      rw [first, waits_wait, if_pos rfl] at watches
      obtain ⟨rfl, inside, kept⟩ := watches.pass (ordered .local) left returns
      have no_error : found ≠ .error := fun error =>
        NegotiationState.not_error (ordered .local) (error ▸ inside)
      exact
        ⟨{ dropped with running := decide_eq_false no_error, watches := kept }, rfl, rfl, inside⟩
  | remote =>
      obtain ⟨⟨found, after⟩, returns, rfl⟩ := Option.map_eq_some_iff.mp fires
      obtain ⟨heard, items, bears, split, received, watches⟩ := ends.up
      rw [first, waits_wait, if_pos rfl] at watches
      have told : statesOf heard <+: story c p .remote := by
        rw [story, ← split]
        exact (List.prefix_append _ _).filterMap _
      obtain ⟨rfl, inside, kept⟩ :=
        watches.pass (told.sublist.trans (ordered .remote)) left returns
      have no_error : found ≠ .error := fun error =>
        NegotiationState.not_error (ordered .remote) (error ▸ told.subset inside)
      exact ⟨{ dropped with
        running := decide_eq_false no_error
        up := ⟨heard, items, bears, split, received, kept⟩ }, rfl, rfl, told.subset inside⟩

/-- A wait for a state that has been reported returns. -/
theorem returns {awaited : Which × NegotiationState} {rest : List Action} (ends : Ends w c p)
    (first : w.script = wait awaited :: rest) (reported : w.toClient = [])
    (come : awaited.2 ∈ story c p awaited.1) : w.step .scenario ≠ none := by
  rw [ends.scenario first]
  obtain ⟨which, state⟩ := awaited
  cases which with
  | «local» =>
      have watches := ends.watches
      rw [first, waits_wait, if_pos rfl] at watches
      exact fun none => watches.returns come (Option.map_eq_none_iff.mp none)
  | remote =>
      obtain ⟨heard, items, bears, split, received, watches⟩ := ends.up
      rw [first, waits_wait, if_pos rfl] at watches
      rw [reported] at bears
      cases bears
      rw [List.append_nil] at split
      subst split
      exact fun none => watches.returns come (Option.map_eq_none_iff.mp none)

/-! ## At rest -/

theorem rest (ends : Ends w c p) (idle : w.AtRest) :
    w.toClient = [] ∧ p.received = c.commands ∧ c.received = descriptionsOf p.reports := by
  have reads := idle .asyncio rfl
  have receives := idle .pageReceives rfl
  have silent : w.toClient = [] := by
    cases first : w.toClient with
    | nil => rfl
    | cons msg later => simp [Test.step, ends.listening, first] at reads
  have done : w.toPage = [] := by
    cases first : w.toPage with
    | nil => rfl
    | cons msg later => simp [Test.step, ends.connected, first] at receives
  obtain ⟨items, bears, arrives⟩ := ends.down
  obtain ⟨heard, items', bears', split, received, -⟩ := ends.up
  rw [done] at bears
  rw [silent] at bears'
  cases bears
  cases bears'
  rw [List.append_nil] at split
  exact ⟨silent, arrives.arrived, by rw [← received, split]⟩

theorem pcThread_none (ends : Ends w c p) (idle : w.AtRest) : c.pcThread [] = none := by
  have thread := idle (.pcThread []) rfl
  simp only [Test.step, ends.callback, ends.webrtcbin] at thread
  cases left : c.callback with
  | nil =>
      rw [left] at thread
      rw [ClientView.pcThread, left]
      exact Option.map_eq_none_iff.mpr (Option.map_eq_none_iff.mp thread)
  | cons statement later =>
      rw [left] at thread
      cases thread

theorem settled (ends : Ends w c p) (idle : w.AtRest) :
    p.connection = none ∨ w.page.streamSettled = true := by
  have settles := Option.map_eq_none_iff.mp (idle (.stream true) rfl)
  rw [TestPage.settleStream, ends.peerConnection] at settles
  split at settles
  · next none_yet => exact Or.inl none_yet
  · split at settles
    · next settled => exact Or.inr settled
    · cases settles

theorem runWaiting_none (ends : Ends w c p) (idle : w.AtRest) : p.runWaiting = none := by
  have runs := Option.map_eq_none_iff.mp (idle .waiting rfl)
  rw [TestPage.runWaiting, ends.peerConnection, ends.waiting] at runs
  rw [PageView.runWaiting]
  rcases ends.settled idle with unopened | settled
  · rw [unopened]
  · rw [settled] at runs
    split at runs
    · cases runs
    · next other =>
        split
        · next pc op rest called first => exact (other pc op rest called rfl first).elim
        · rfl

theorem operate_none (ends : Ends w c p) (idle : w.AtRest) : p.operate [] = none := by
  have operates := Option.map_eq_none_iff.mp (idle (.operation []) rfl)
  rw [TestPage.operate, ends.peerConnection] at operates
  cases called : p.connection with
  | none => rw [PageView.operate, called]
  | some pc =>
      rw [called] at operates
      rw [PageView.operate, called]
      exact Option.map_eq_none_iff.mpr (Option.map_eq_none_iff.mp operates)

end Ends

end GstWebrtc.Check
