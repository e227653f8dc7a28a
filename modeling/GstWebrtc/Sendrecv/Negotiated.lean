import GstWebrtc.Sendrecv.CallSteps

/-!
# Every call is negotiated

The program or the page makes the offer.  In both cases the two endpoints pass
through the stages of one offer and its answer, whatever the order in which
texts arrive, promises are settled and candidates are gathered.
-/

namespace GstWebrtc.Sendrecv

open GstWebrtc.Base GstWebrtc.Browser

/-! ## Stages -/

/-- What the page is waiting for when it answers. -/
def answererTasks : Answerer → List Task
  | .hearing _ => [.remoteSet 0 true]
  | .heard _ => [.answer 0 0]
  | .creating _ => [.created 0]
  | .setting _ _ => [.localSet 0]
  | _ => []

theorem answererTasks_waits (as : Answerer) :
    ∃ task : Option Task, answererTasks as = task.toList ∧ ∀ t ∈ task, Waits t := by
  cases as with
  | idle | hasty _ | settled _ _ => exact ⟨none, rfl, nofun⟩
  | hearing _ => exact ⟨some _, rfl, fun _ same => Option.some.inj same ▸ Or.inl rfl⟩
  | heard _ => exact ⟨some _, rfl, fun _ same => Option.some.inj same ▸ Or.inr rfl⟩
  | creating _ => exact ⟨some _, rfl, fun _ same => Option.some.inj same ▸ Or.inl rfl⟩
  | setting _ _ => exact ⟨some _, rfl, fun _ same => Option.some.inj same ▸ Or.inl rfl⟩

/-- The page has its local stream before it creates an answer. -/
def AnswererReady (media : Option Bool) : Answerer → Prop
  | .idle | .hearing _ | .heard _ => True
  | .hasty _ => False
  | .creating _ | .setting _ _ | .settled _ _ => media.isSome

theorem AnswererReady.some {media : Option Bool} {as : Answerer} (ready : AnswererReady media as)
    (ok : Bool) : AnswererReady (some ok) as := by
  cases as with
  | idle | hearing _ | heard _ => trivial
  | hasty _ => cases ready
  | creating _ | setting _ _ | settled _ _ => rfl

/-- The state of the program on the stages of an offerer. -/
def offererState : Offerer → AppState
  | .idle => .peerConnected
  | .creating | .setting _ | .offered _ => .peerCallNegotiating
  | .overtaken _ _ | .accepting _ _ | .settled _ _ => .peerCallStarted

def offererUnnegotiated : Offerer → Bool
  | .idle => true
  | _ => false

/-- What a step does to the steps that are left. -/
def Counts (act : Call.Act) (n n' : Nat) : Prop :=
  if act.gathers then n' = n + 1 else n' < n

/-! ## The program makes the offer -/

/-- The program sends the offer before that is set, the page its answer after. -/
inductive ProgramOffers (peerId : Text) : Call → Nat → Prop where
  | mk {os as media log page toProgram toPage offers answers}
      (called : Called peerId page media (answererTasks as) log)
      (ready : AnswererReady media as)
      (spokenOffers : Says toPage offers)
      (offering : Flows .offer (os.sent true) as.received offers)
      (spokenAnswers : Says toProgram answers)
      (answering : Flows .answer (as.sent false) os.received answers) :
      ProgramOffers peerId
        ⟨offererState os, os.connection, offererUnnegotiated os, none, page, as.connection,
          toProgram, toPage⟩
        (os.work + as.work + (mediaTasks media).length + toProgram.length +
          toPage.length)

namespace ProgramOffers

variable {prog : Program} {peerId : Text} {w w' : Call} {n : Nat} {act : Call.Act}

/-- The offer that has been answered is the one that was made. -/
theorem programReceives (inv : ProgramOffers peerId w n)
    (fires : w.step prog .programReceives = some w') :
    ∃ n', ProgramOffers peerId w' n' ∧ n' < n := by
  obtain @⟨os, as, media, log, page, toProgram, toPage, offers, answers, called, ready,
    spokenOffers, offering, spokenAnswers, answering⟩ := inv
  cases spokenAnswers with
  | nil => cases fires
  | @sdp frames descriptions description later =>
      obtain ⟨a, sent, unreceived, rfl, rfl⟩ := answering.taken
      cases as with
      | settled o a' =>
          cases sent
          obtain ⟨o', made, same, rfl⟩ := offering.sent_of_received
          cases same
          simp only [Call.step] at fires
          cases os with
          | idle | creating => cases made
          | overtaken _ _ | accepting _ _ | settled _ _ => cases unreceived
          | setting _ =>
              cases made
              rw [callback_answer rfl rfl] at fires
              cases fires
              refine ⟨_, @mk peerId (.overtaken o a) (.settled o a) media log page frames toPage [] []
                called ready spokenOffers rfl later rfl, ?_⟩
              simp only [Offerer.work, List.length_cons]
              omega
          | offered _ =>
              cases made
              rw [callback_answer rfl rfl] at fires
              cases fires
              refine ⟨_, @mk peerId (.accepting o a) (.settled o a) media log page frames toPage [] []
                called ready spokenOffers rfl later rfl, ?_⟩
              simp only [Offerer.work, List.length_cons]
              omega
      | _ => cases sent
  | @ice frames _ members candidate holds later =>
      simp only [Call.step] at fires
      rw [callback_ice rfl holds] at fires
      cases fires
      refine ⟨_, .mk called ready spokenOffers offering later answering, ?_⟩
      simp only [List.length_cons]
      omega

theorem negotiationNeeded (offers : prog.remoteIsOfferer = false)
    (inv : ProgramOffers peerId w n) (fires : w.step prog .negotiationNeeded = some w') :
    ∃ n', ProgramOffers peerId w' n' ∧ n' < n := by
  obtain @⟨os, as, media, log, page, toProgram, toPage, offers', answers, called, ready,
    spokenOffers, offering, spokenAnswers, answering⟩ := inv
  cases os with
  | idle =>
      have needed : perform prog Call.noFrame.parse .peerConnected .negotiationNeeded =
          .ok (.peerCallNegotiating, .acted [.createOffer]) := by
        rw [perform, onNegotiationNeeded, offers, if_neg Bool.false_ne_true]
      simp only [Call.step, offererUnnegotiated, if_true] at fires
      rw [callback_acted rfl needed] at fires
      cases fires
      refine ⟨_, @mk peerId .creating as media log page toProgram toPage offers' answers
        called ready spokenOffers offering spokenAnswers answering, ?_⟩
      simp only [Offerer.work]
      omega
  | _ => cases fires

theorem webrtcbin {generated : Text} (inv : ProgramOffers peerId w n)
    (fires : w.step prog (.webrtcbin generated) = some w') :
    ∃ n', ProgramOffers peerId w' n' ∧ n' < n := by
  obtain @⟨os, as, media, log, page, toProgram, toPage, offers, answers, called, ready,
    spokenOffers, offering, spokenAnswers, answering⟩ := inv
  cases os with
  | idle | offered _ | settled _ _ => cases fires
  | creating =>
      obtain ⟨unheard, rfl⟩ := offering.unsent
      have sent : Call.step prog ⟨.peerCallNegotiating, Offerer.creating.connection, false, none,
          page, as.connection, toProgram, toPage⟩ (.webrtcbin generated) =
            some ⟨.peerCallNegotiating, (Offerer.setting generated).connection, false, none, page,
              as.connection, toProgram, toPage ++ [sdpFrame (.offer generated)]⟩ := rfl
      cases sent.symm.trans fires
      have flows : Flows .offer ((Offerer.setting generated).sent true) as.received
          ([] ++ [.offer generated]) := by
        rw [unheard]
        rfl
      refine ⟨_, @mk peerId (.setting generated) as media log page toProgram _ _ answers
        called ready (spokenOffers.append (.single _)) flows spokenAnswers answering, ?_⟩
      simp only [Offerer.work, List.length_append, List.length_singleton]
      omega
  | setting o =>
      cases fires
      refine ⟨_, @mk peerId (.offered o) as media log page toProgram toPage offers answers
        called ready spokenOffers offering spokenAnswers answering, ?_⟩
      simp only [Offerer.work]
      omega
  | overtaken o a =>
      cases fires
      refine ⟨_, @mk peerId (.accepting o a) as media log page toProgram toPage offers answers
        called ready spokenOffers offering spokenAnswers answering, ?_⟩
      simp only [Offerer.work]
      omega
  | accepting o a =>
      cases fires
      refine ⟨_, @mk peerId (.settled o a) as media log page toProgram toPage offers answers
        called ready spokenOffers offering spokenAnswers answering, ?_⟩
      simp only [Offerer.work]
      omega

theorem programCandidate {mlineindex : Nat} {candidate : Text} (inv : ProgramOffers peerId w n)
    (fires : w.step prog (.programCandidate mlineindex candidate) = some w') :
    ProgramOffers peerId w' (n + 1) := by
  obtain @⟨os, as, media, log, page, toProgram, toPage, offers, answers, called, ready,
    spokenOffers, offering, spokenAnswers, answering⟩ := inv
  simp only [Call.step] at fires
  split at fires
  · next set =>
      have negotiating : AppState.peerCallNegotiating.code ≤ (offererState os).code := by
        cases os with
        | idle | creating | setting _ | overtaken _ _ => cases set
        | offered _ => exact Nat.le_refl _
        | accepting _ _ | settled _ _ => exact Nat.le_succ _
      rw [callback_iceCandidate rfl negotiating] at fires
      cases fires
      have spoken := spokenOffers.append_ice (programCandidate_holds mlineindex candidate)
      have counted := @mk peerId os as media log page toProgram _ offers answers called ready
        spoken offering spokenAnswers answering
      rwa [List.length_append, List.length_singleton, ← Nat.add_assoc] at counted
  · cases fires

theorem pageReceives (inv : ProgramOffers peerId w n)
    (fires : w.step prog .pageReceives = some w') :
    ∃ n', ProgramOffers peerId w' n' ∧ n' < n := by
  obtain @⟨os, as, media, log, page, toProgram, toPage, offers, answers, called, ready,
    spokenOffers, offering, spokenAnswers, answering⟩ := inv
  cases spokenOffers with
  | nil => cases fires
  | @sdp frames descriptions description later =>
      obtain ⟨o, sent, unreceived, rfl, rfl⟩ := offering.taken
      cases as with
      | idle =>
          obtain ⟨none_received, rfl⟩ := answering.unsent
          simp only [Call.step] at fires
          rw [pageReceives_offer called] at fires
          cases fires
          have flows : Flows .offer (os.sent true) (Answerer.hearing o).received [] := by
            rw [sent]
            rfl
          refine ⟨_, @mk peerId os (.hearing o) media log _ toProgram frames [] [] (.called _ _ _)
            trivial later flows spokenAnswers answering, ?_⟩
          simp only [Answerer.work, List.length_cons]
          omega
      | _ => cases unreceived
  | @ice frames _ members candidate holds later =>
      simp only [Call.step] at fires
      rw [pageReceives_ice called] at fires
      cases fires
      refine ⟨_, .mk (.called _ _ _) ready later offering spokenAnswers answering, ?_⟩
      simp only [List.length_cons]
      omega

theorem promise {index : Nat} {ok : Bool} (inv : ProgramOffers peerId w n)
    (fires : w.step prog (.promise index ok) = some w') :
    ∃ n', ProgramOffers peerId w' n' ∧ n' < n := by
  obtain @⟨os, as, media, log, page, toProgram, toPage, offers, answers, called, ready,
    spokenOffers, offering, spokenAnswers, answering⟩ := inv
  obtain ⟨task, one, waits⟩ := answererTasks_waits as
  rcases promise_cases called one waits fires with ⟨rfl, rfl⟩ | ⟨rfl, b, t, rfl, rfl, free⟩
  · refine ⟨_, @mk peerId os as (some ok) _ _ toProgram toPage offers answers (.called _ _ _)
      (ready.some ok) spokenOffers offering spokenAnswers answering, ?_⟩
    simp only [mediaTasks, List.length_nil, List.length_singleton]
    omega
  · cases as with
    | heard o =>
        cases called
        rw [promise_answer rfl] at fires
        cases fires
        refine ⟨_, @mk peerId os (.creating o) (some b) _ _ toProgram toPage offers answers
          (.called _ _ _) rfl spokenOffers offering spokenAnswers answering, ?_⟩
        simp only [Answerer.work]
        omega
    | idle | hasty _ | settled _ _ => cases one
    | hearing _ | creating _ | setting _ _ =>
        cases one
        cases free

theorem operation {generated : Text} (inv : ProgramOffers peerId w n)
    (fires : w.step prog (.operation generated) = some w') :
    ∃ n', ProgramOffers peerId w' n' ∧ n' < n := by
  obtain @⟨os, as, media, log, page, toProgram, toPage, offers, answers, called, ready,
    spokenOffers, offering, spokenAnswers, answering⟩ := inv
  cases as with
  | idle | heard _ | settled _ _ => cases fires
  | hasty o =>
      cases called with
      | waiting => cases fires
      | called => cases media <;> cases fires
  | hearing o =>
      cases called
      rw [operation_remoteSet rfl rfl] at fires
      cases fires
      refine ⟨_, @mk peerId os (.heard o) media log _ toProgram toPage offers answers
        (.called _ _ _) trivial spokenOffers offering spokenAnswers answering, ?_⟩
      simp only [Answerer.work]
      omega
  | creating o =>
      cases called
      cases media with
      | none => cases ready
      | some ok =>
          rw [operation_created rfl rfl] at fires
          cases fires
          refine ⟨_, @mk peerId os (.setting o generated) (some ok) _ _ toProgram toPage offers answers
            (.called _ _ _) rfl spokenOffers offering spokenAnswers answering, ?_⟩
          simp only [Answerer.work]
          omega
  | setting o a =>
      cases called
      cases media with
      | none => cases ready
      | some ok =>
          obtain ⟨unanswered, rfl⟩ := answering.unsent
          rw [operation_localSet rfl rfl rfl] at fires
          cases fires
          have flows : Flows .answer ((Answerer.settled o a).sent false) os.received
              ([] ++ [.answer a]) := by
            rw [unanswered]
            rfl
          refine ⟨_, @mk peerId os (.settled o a) (some ok) _ _ _ toPage offers _
            (.called _ _ _) rfl spokenOffers offering (spokenAnswers.append (.single _)) flows, ?_⟩
          simp only [Answerer.work, List.length_append, List.length_singleton]
          omega

theorem pageCandidate {candidate : IceCandidate} (inv : ProgramOffers peerId w n)
    (fires : w.step prog (.pageCandidate candidate) = some w') :
    ProgramOffers peerId w' (n + 1) := by
  obtain @⟨os, as, media, log, page, toProgram, toPage, offers, answers, called, ready,
    spokenOffers, offering, spokenAnswers, answering⟩ := inv
  simp only [Call.step] at fires
  split at fires
  · cases fires
    have spoken := spokenAnswers.append_ice candidate.lookup_members
    have counted := @mk peerId os as media log page _ toPage offers answers called ready
      spokenOffers offering spoken answering
    rw [List.length_append, List.length_singleton, ← Nat.add_assoc, Nat.add_right_comm] at counted
    exact counted
  · cases fires

theorem step (offers : prog.remoteIsOfferer = false) (inv : ProgramOffers peerId w n)
    (fires : w.step prog act = some w') :
    ∃ n', ProgramOffers peerId w' n' ∧ Counts act n n' := by
  cases act with
  | programReceives => exact inv.programReceives fires
  | negotiationNeeded => exact inv.negotiationNeeded offers fires
  | webrtcbin generated => exact inv.webrtcbin fires
  | programCandidate mlineindex candidate => exact ⟨_, inv.programCandidate fires, rfl⟩
  | pageReceives => exact inv.pageReceives fires
  | promise index ok => exact inv.promise fires
  | operation generated => exact inv.operation fires
  | pageCandidate candidate => exact ⟨_, inv.pageCandidate fires, rfl⟩

/-- What no step but the gathering of a candidate can leave is a negotiated call. -/
theorem stuck (inv : ProgramOffers peerId w n)
    (none_fires : ∀ act, act.gathers = false → w.step prog act = none) :
    ∃ o a, w.webrtc1 = (Offerer.settled o a).connection ∧
      w.peerConnection = (Answerer.settled o a).connection ∧
      w.state = .peerCallStarted ∧ w.toProgram = [] ∧ w.toPage = [] := by
  obtain @⟨os, as, media, log, page, toProgram, toPage, offers, answers, called, ready,
    spokenOffers, offering, spokenAnswers, answering⟩ := inv
  have toProgram_nil : toProgram = [] := by
    cases toProgram with
    | nil => rfl
    | cons frame rest =>
        exact absurd (none_fires .programReceives rfl) (programReceives_ne_none rfl nofun)
  have toPage_nil : toPage = [] := by
    have blocked := none_fires .pageReceives rfl
    cases spokenOffers with
    | nil => rfl
    | @sdp frames _ description later =>
        obtain ⟨o, -, -, rfl, -⟩ := offering.taken
        simp only [Call.step] at blocked
        rw [pageReceives_offer called] at blocked
        cases blocked
    | ice holds later =>
        simp only [Call.step] at blocked
        rw [pageReceives_ice called] at blocked
        cases blocked
  subst toProgram_nil
  subst toPage_nil
  cases spokenAnswers
  cases spokenOffers
  have heard : as.received = os.sent true := offering.arrived Description.offer_injective
  have answered : os.received = as.sent false := answering.arrived Description.answer_injective
  cases as with
  | idle =>
      cases os with
      | idle =>
          exact absurd (none_fires .negotiationNeeded rfl) (negotiationNeeded_ne_none rfl rfl)
      | creating => cases none_fires (.webrtcbin []) rfl
      | _ => cases heard
  | hasty _ => cases ready
  | hearing o =>
      have blocked := none_fires (.operation []) rfl
      cases called
      rw [operation_remoteSet rfl rfl] at blocked
      cases blocked
  | heard o =>
      cases called
      cases media with
      | none =>
          have blocked := none_fires (.promise 0 true) rfl
          rw [promise_userMedia rfl] at blocked
          cases blocked
      | some ok =>
          have blocked := none_fires (.promise 0 true) rfl
          rw [promise_answer rfl] at blocked
          cases blocked
  | creating o =>
      have blocked := none_fires (.operation []) rfl
      cases called
      cases media with
      | none => cases ready
      | some ok =>
          rw [operation_created rfl rfl] at blocked
          cases blocked
  | setting o a =>
      have blocked := none_fires (.operation []) rfl
      cases called
      cases media with
      | none => cases ready
      | some ok =>
          rw [operation_localSet rfl rfl rfl] at blocked
          cases blocked
  | settled o a =>
      cases os with
      | settled o' a' =>
          cases heard
          cases answered
          exact ⟨o, a, rfl, rfl, rfl, rfl, rfl⟩
      | overtaken _ _ | accepting _ _ => cases none_fires (.webrtcbin []) rfl
      | _ => cases answered

end ProgramOffers

/-! ## The page makes the offer -/

/-- What the page is waiting for when it makes the offer. -/
def offererTasks : Offerer → List Task
  | .idle => [.generateOffer 0]
  | .creating => [.created 0]
  | .setting _ => [.localSet 0]
  | .accepting _ _ => [.remoteSet 0 false]
  | _ => []

theorem offererTasks_waits (os : Offerer) :
    ∃ task : Option Task, offererTasks os = task.toList ∧ ∀ t ∈ task, Waits t := by
  cases os with
  | offered _ | overtaken _ _ | settled _ _ => exact ⟨none, rfl, nofun⟩
  | idle => exact ⟨some _, rfl, fun _ same => Option.some.inj same ▸ Or.inr rfl⟩
  | creating => exact ⟨some _, rfl, fun _ same => Option.some.inj same ▸ Or.inl rfl⟩
  | setting _ => exact ⟨some _, rfl, fun _ same => Option.some.inj same ▸ Or.inl rfl⟩
  | accepting _ _ => exact ⟨some _, rfl, fun _ same => Option.some.inj same ▸ Or.inl rfl⟩

/-- The page has its local stream before it creates an offer. -/
def OffererReady (media : Option Bool) : Offerer → Prop
  | .idle => True
  | .overtaken _ _ => False
  | _ => media.isSome

theorem OffererReady.some {media : Option Bool} {os : Offerer} (ready : OffererReady media os)
    (ok : Bool) : OffererReady (some ok) os := by
  cases os with
  | idle => trivial
  | overtaken _ _ => cases ready
  | creating | setting _ | offered _ | accepting _ _ | settled _ _ => rfl

/-- The program asks for an answer as soon as the offer is set. -/
def Prompt : Answerer → Prop
  | .heard _ | .hasty _ => False
  | _ => True

/-- The page sends the offer after that is set, the program its answer before. -/
inductive PageOffers (peerId : Text) : Call → Nat → Prop where
  | mk {os as media log page toProgram toPage offers answers}
      (called : Called peerId page media (offererTasks os) log)
      (ready : OffererReady media os)
      (prompt : Prompt as)
      (spokenOffers : Says toProgram offers)
      (offering : Flows .offer (os.sent false) as.received offers)
      (spokenAnswers : Says toPage answers)
      (answering : Flows .answer (as.sent true) os.received answers) :
      PageOffers peerId
        ⟨.peerCallNegotiating, as.connection, false, none, page, os.connection, toProgram, toPage⟩
        (os.work + as.work + (mediaTasks media).length + toProgram.length + toPage.length)

namespace PageOffers

variable {prog : Program} {peerId : Text} {w w' : Call} {n : Nat} {act : Call.Act}

theorem programReceives (inv : PageOffers peerId w n)
    (fires : w.step prog .programReceives = some w') :
    ∃ n', PageOffers peerId w' n' ∧ n' < n := by
  obtain @⟨os, as, media, log, page, toProgram, toPage, offers, answers, called, ready, prompt,
    spokenOffers, offering, spokenAnswers, answering⟩ := inv
  cases spokenOffers with
  | nil => cases fires
  | @sdp frames descriptions description later =>
      obtain ⟨o, sent, unreceived, rfl, rfl⟩ := offering.taken
      cases as with
      | idle =>
          obtain ⟨unanswered, rfl⟩ := answering.unsent
          simp only [Call.step] at fires
          rw [callback_offer rfl rfl] at fires
          cases fires
          have flows : Flows .offer (os.sent false) (Answerer.hearing o).received [] := by
            rw [sent]
            rfl
          refine ⟨_, @mk peerId os (.hearing o) media log page frames toPage [] [] called ready
            trivial later flows spokenAnswers answering, ?_⟩
          simp only [Answerer.work, List.length_cons]
          omega
      | _ => cases unreceived
  | @ice frames _ members candidate holds later =>
      simp only [Call.step] at fires
      rw [callback_ice rfl holds] at fires
      cases fires
      refine ⟨_, .mk called ready prompt later offering spokenAnswers answering, ?_⟩
      simp only [List.length_cons]
      omega

theorem webrtcbin {generated : Text} (inv : PageOffers peerId w n)
    (fires : w.step prog (.webrtcbin generated) = some w') :
    ∃ n', PageOffers peerId w' n' ∧ n' < n := by
  obtain @⟨os, as, media, log, page, toProgram, toPage, offers, answers, called, ready, prompt,
    spokenOffers, offering, spokenAnswers, answering⟩ := inv
  cases as with
  | idle | settled _ _ => cases fires
  | heard _ | hasty _ => cases prompt
  | hearing o =>
      have asked : Call.step prog ⟨.peerCallNegotiating, (Answerer.hearing o).connection, false, none,
          page, os.connection, toProgram, toPage⟩ (.webrtcbin generated) =
            some ⟨.peerCallNegotiating, (Answerer.creating o).connection, false, none, page,
              os.connection, toProgram, toPage⟩ := rfl
      cases asked.symm.trans fires
      refine ⟨_, @mk peerId os (.creating o) media log page toProgram toPage offers answers called
        ready trivial spokenOffers offering spokenAnswers answering, ?_⟩
      simp only [Answerer.work]
      omega
  | creating o =>
      obtain ⟨unanswered, rfl⟩ := answering.unsent
      have sent : Call.step prog ⟨.peerCallNegotiating, (Answerer.creating o).connection, false, none,
          page, os.connection, toProgram, toPage⟩ (.webrtcbin generated) =
            some ⟨.peerCallNegotiating, (Answerer.setting o generated).connection, false, none, page,
              os.connection, toProgram, toPage ++ [sdpFrame (.answer generated)]⟩ := rfl
      cases sent.symm.trans fires
      have flows : Flows .answer ((Answerer.setting o generated).sent true) os.received
          ([] ++ [.answer generated]) := by
        rw [unanswered]
        rfl
      refine ⟨_, @mk peerId os (.setting o generated) media log page toProgram _ offers _ called
        ready trivial spokenOffers offering (spokenAnswers.append (.single _)) flows, ?_⟩
      simp only [Answerer.work, List.length_append, List.length_singleton]
      omega
  | setting o a =>
      cases fires
      refine ⟨_, @mk peerId os (.settled o a) media log page toProgram toPage offers answers called
        ready trivial spokenOffers offering spokenAnswers answering, ?_⟩
      simp only [Answerer.work]
      omega

theorem programCandidate {mlineindex : Nat} {candidate : Text} (inv : PageOffers peerId w n)
    (fires : w.step prog (.programCandidate mlineindex candidate) = some w') :
    PageOffers peerId w' (n + 1) := by
  obtain @⟨os, as, media, log, page, toProgram, toPage, offers, answers, called, ready, prompt,
    spokenOffers, offering, spokenAnswers, answering⟩ := inv
  simp only [Call.step] at fires
  split at fires
  · rw [callback_iceCandidate rfl (Nat.le_refl _)] at fires
    cases fires
    have spoken := spokenAnswers.append_ice (programCandidate_holds mlineindex candidate)
    have counted := @mk peerId os as media log page toProgram _ offers answers called ready prompt
      spokenOffers offering spoken answering
    rwa [List.length_append, List.length_singleton, ← Nat.add_assoc] at counted
  · cases fires

theorem pageReceives (inv : PageOffers peerId w n)
    (fires : w.step prog .pageReceives = some w') :
    ∃ n', PageOffers peerId w' n' ∧ n' < n := by
  obtain @⟨os, as, media, log, page, toProgram, toPage, offers, answers, called, ready, prompt,
    spokenOffers, offering, spokenAnswers, answering⟩ := inv
  cases spokenAnswers with
  | nil => cases fires
  | @sdp frames descriptions description later =>
      obtain ⟨a, sent, unreceived, rfl, rfl⟩ := answering.taken
      -- an answer is sent for an offer that was received
      obtain ⟨o, received⟩ : ∃ o, as.received = some o := by
        cases as with
        | setting o _ | settled o _ => exact ⟨o, rfl⟩
        | _ => cases sent
      rw [received] at offering
      obtain ⟨o', made, same, rfl⟩ := offering.sent_of_received
      cases same
      cases os with
      | idle | creating | setting _ => cases made
      | overtaken _ _ | accepting _ _ | settled _ _ => cases unreceived
      | offered _ =>
          cases made
          simp only [Call.step] at fires
          rw [pageReceives_answer called] at fires
          cases fires
          have flows : Flows .answer (as.sent true) (Offerer.accepting o a).received [] := by
            rw [sent]
            rfl
          have offers' : Flows .offer ((Offerer.accepting o a).sent false) as.received [] := by
            rw [received]
            rfl
          refine ⟨_, @mk peerId (.accepting o a) as media log _ toProgram frames [] [] (.called _ _ _)
            ready prompt spokenOffers offers' later flows, ?_⟩
          simp only [Offerer.work, List.length_cons]
          omega
  | @ice frames _ members candidate holds later =>
      simp only [Call.step] at fires
      rw [pageReceives_ice called] at fires
      cases fires
      refine ⟨_, .mk (.called _ _ _) ready prompt spokenOffers offering later answering, ?_⟩
      simp only [List.length_cons]
      omega

theorem promise {index : Nat} {ok : Bool} (inv : PageOffers peerId w n)
    (fires : w.step prog (.promise index ok) = some w') :
    ∃ n', PageOffers peerId w' n' ∧ n' < n := by
  obtain @⟨os, as, media, log, page, toProgram, toPage, offers, answers, called, ready, prompt,
    spokenOffers, offering, spokenAnswers, answering⟩ := inv
  obtain ⟨task, one, waits⟩ := offererTasks_waits os
  rcases promise_cases called one waits fires with ⟨rfl, rfl⟩ | ⟨rfl, b, t, rfl, rfl, free⟩
  · refine ⟨_, @mk peerId os as (some ok) _ _ toProgram toPage offers answers (.called _ _ _)
      (ready.some ok) prompt spokenOffers offering spokenAnswers answering, ?_⟩
    simp only [mediaTasks, List.length_nil, List.length_singleton]
    omega
  · cases os with
    | idle =>
        cases called
        rw [promise_generateOffer rfl] at fires
        cases fires
        refine ⟨_, @mk peerId .creating as (some b) _ _ toProgram toPage offers answers
          (.called _ _ _) rfl prompt spokenOffers offering spokenAnswers answering, ?_⟩
        simp only [Offerer.work]
        omega
    | offered _ | overtaken _ _ | settled _ _ => cases one
    | creating | setting _ | accepting _ _ =>
        cases one
        cases free

theorem operation {generated : Text} (inv : PageOffers peerId w n)
    (fires : w.step prog (.operation generated) = some w') :
    ∃ n', PageOffers peerId w' n' ∧ n' < n := by
  obtain @⟨os, as, media, log, page, toProgram, toPage, offers, answers, called, ready, prompt,
    spokenOffers, offering, spokenAnswers, answering⟩ := inv
  cases os with
  | idle | offered _ | settled _ _ => cases fires
  | overtaken _ _ => cases ready
  | creating =>
      cases called
      cases media with
      | none => cases ready
      | some ok =>
          rw [operation_created rfl rfl] at fires
          cases fires
          refine ⟨_, @mk peerId (.setting generated) as (some ok) _ _ toProgram toPage offers answers
            (.called _ _ _) rfl prompt spokenOffers offering spokenAnswers answering, ?_⟩
          simp only [Offerer.work]
          omega
  | setting o =>
      cases called
      cases media with
      | none => cases ready
      | some ok =>
          obtain ⟨unheard, rfl⟩ := offering.unsent
          rw [operation_localSet rfl rfl rfl] at fires
          cases fires
          have flows : Flows .offer ((Offerer.offered o).sent false) as.received
              ([] ++ [.offer o]) := by
            rw [unheard]
            rfl
          refine ⟨_, @mk peerId (.offered o) as (some ok) _ _ _ toPage _ answers (.called _ _ _) rfl
            prompt (spokenOffers.append (.single _)) flows spokenAnswers answering, ?_⟩
          simp only [Offerer.work, List.length_append, List.length_singleton]
          omega
  | accepting o a =>
      cases called
      cases media with
      | none => cases ready
      | some ok =>
          rw [operation_remoteSet rfl rfl] at fires
          cases fires
          refine ⟨_, @mk peerId (.settled o a) as (some ok) log _ toProgram toPage offers answers
            (.called _ _ _) rfl prompt spokenOffers offering spokenAnswers answering, ?_⟩
          simp only [Offerer.work]
          omega

theorem pageCandidate {candidate : IceCandidate} (inv : PageOffers peerId w n)
    (fires : w.step prog (.pageCandidate candidate) = some w') :
    PageOffers peerId w' (n + 1) := by
  obtain @⟨os, as, media, log, page, toProgram, toPage, offers, answers, called, ready, prompt,
    spokenOffers, offering, spokenAnswers, answering⟩ := inv
  simp only [Call.step] at fires
  split at fires
  · cases fires
    have spoken := spokenOffers.append_ice candidate.lookup_members
    have counted := @mk peerId os as media log page _ toPage offers answers called ready prompt
      spoken offering spokenAnswers answering
    rw [List.length_append, List.length_singleton, ← Nat.add_assoc, Nat.add_right_comm] at counted
    exact counted
  · cases fires

theorem step (inv : PageOffers peerId w n) (fires : w.step prog act = some w') :
    ∃ n', PageOffers peerId w' n' ∧ Counts act n n' := by
  cases act with
  | programReceives => exact inv.programReceives fires
  | negotiationNeeded => cases inv; cases fires
  | webrtcbin generated => exact inv.webrtcbin fires
  | programCandidate mlineindex candidate => exact ⟨_, inv.programCandidate fires, rfl⟩
  | pageReceives => exact inv.pageReceives fires
  | promise index ok => exact inv.promise fires
  | operation generated => exact inv.operation fires
  | pageCandidate candidate => exact ⟨_, inv.pageCandidate fires, rfl⟩

theorem stuck (inv : PageOffers peerId w n)
    (none_fires : ∀ act, act.gathers = false → w.step prog act = none) :
    ∃ o a, w.webrtc1 = (Answerer.settled o a).connection ∧
      w.peerConnection = (Offerer.settled o a).connection ∧
      w.state = .peerCallNegotiating ∧ w.toProgram = [] ∧ w.toPage = [] := by
  obtain @⟨os, as, media, log, page, toProgram, toPage, offers, answers, called, ready, prompt,
    spokenOffers, offering, spokenAnswers, answering⟩ := inv
  have toProgram_nil : toProgram = [] := by
    cases toProgram with
    | nil => rfl
    | cons frame rest =>
        exact absurd (none_fires .programReceives rfl) (programReceives_ne_none rfl nofun)
  have toPage_nil : toPage = [] := by
    have blocked := none_fires .pageReceives rfl
    cases spokenAnswers with
    | nil => rfl
    | @sdp frames _ description later =>
        obtain ⟨a, -, -, rfl, -⟩ := answering.taken
        simp only [Call.step] at blocked
        rw [pageReceives_answer called] at blocked
        cases blocked
    | ice holds later =>
        simp only [Call.step] at blocked
        rw [pageReceives_ice called] at blocked
        cases blocked
  subst toProgram_nil
  subst toPage_nil
  cases spokenAnswers
  cases spokenOffers
  have heard : as.received = os.sent false := offering.arrived Description.offer_injective
  have answered : os.received = as.sent true := answering.arrived Description.answer_injective
  cases os with
  | idle =>
      cases called
      cases media with
      | none =>
          have blocked := none_fires (.promise 0 true) rfl
          rw [promise_userMedia rfl] at blocked
          cases blocked
      | some ok =>
          have blocked := none_fires (.promise 0 true) rfl
          rw [promise_generateOffer rfl] at blocked
          cases blocked
  | overtaken _ _ => cases ready
  | creating =>
      have blocked := none_fires (.operation []) rfl
      cases called
      cases media with
      | none => cases ready
      | some ok =>
          rw [operation_created rfl rfl] at blocked
          cases blocked
  | setting o =>
      have blocked := none_fires (.operation []) rfl
      cases called
      cases media with
      | none => cases ready
      | some ok =>
          rw [operation_localSet rfl rfl rfl] at blocked
          cases blocked
  | accepting o a =>
      have blocked := none_fires (.operation []) rfl
      cases called
      rw [operation_remoteSet rfl rfl] at blocked
      cases blocked
  | offered o =>
      cases as with
      | idle | settled _ _ => cases heard <;> cases answered
      | heard _ | hasty _ => cases prompt
      | hearing _ | creating _ | setting _ _ => cases none_fires (.webrtcbin []) rfl
  | settled o a =>
      cases as with
      | settled o' a' =>
          cases heard
          cases answered
          exact ⟨o, a, rfl, rfl, rfl, rfl, rfl⟩
      | setting _ _ => cases none_fires (.webrtcbin []) rfl
      | _ => cases answered

end PageOffers

/-! ## The whole call -/

/-- The session from `SESSION_OK` on, with the steps that are left. -/
inductive Progress (prog : Program) (peerId : Text) : Call → Nat → Prop where
  | ringing : Progress prog peerId (call prog peerId).init 16
  | connected (offerer : prog.remoteIsOfferer = true) :
      Progress prog peerId
        ⟨.peerConnected, .new, true, none, registered peerId, .new, [], []⟩ 15
  | requested (offerer : prog.remoteIsOfferer = true) :
      Progress prog peerId
        ⟨.peerCallNegotiating, .new, false, none, registered peerId, .new, [],
          [.plain "OFFER_REQUEST".toList]⟩ 14
  | programOffers {w n} (offers : prog.remoteIsOfferer = false) (inv : ProgramOffers peerId w n) :
      Progress prog peerId w n
  | pageOffers {w n} (offerer : prog.remoteIsOfferer = true) (inv : PageOffers peerId w n) :
      Progress prog peerId w n

namespace Progress

variable {prog : Program} {peerId : Text} {w w' : Call} {n : Nat} {act : Call.Act}

theorem step (progress : Progress prog peerId w n) (fires : w.step prog act = some w') :
    ∃ n', Progress prog peerId w' n' ∧ Counts act n n' := by
  cases progress with
  | ringing =>
      cases act with
      | programReceives =>
          cases offerer : prog.remoteIsOfferer with
          | true =>
              cases fires
              exact ⟨15, .connected offerer, Nat.lt_succ_self _⟩
          | false =>
              cases fires
              exact ⟨_, .programOffers offerer (@ProgramOffers.mk peerId .idle .idle none [] _ [] []
                [] [] .waiting trivial .nil rfl .nil rfl), (by decide : 13 < 16)⟩
      | _ => cases fires
  | connected offerer =>
      cases act with
      | negotiationNeeded =>
          have needed : perform prog Call.noFrame.parse .peerConnected .negotiationNeeded =
              .ok (.peerCallNegotiating, .acted [.sendText "OFFER_REQUEST".toList]) := by
            rw [perform, onNegotiationNeeded, if_pos offerer]
          simp only [Call.step, if_true] at fires
          rw [callback_acted rfl needed] at fires
          cases fires
          exact ⟨14, .requested offerer, Nat.lt_succ_self _⟩
      | _ => cases fires
  | requested offerer =>
      cases act with
      | pageReceives =>
          have created : Call.step prog ⟨.peerCallNegotiating, .new, false, none, registered peerId,
              .new, [], [.plain "OFFER_REQUEST".toList]⟩ .pageReceives =
                some ⟨.peerCallNegotiating, .new, false, none,
                  inCall peerId none [.generateOffer 0] [], .new, [], []⟩ := rfl
          cases created.symm.trans fires
          exact ⟨_, .pageOffers offerer (@PageOffers.mk peerId .idle .idle none [] _ [] [] [] []
            (.called _ _ _) trivial trivial .nil rfl .nil rfl), (by decide : 13 < 14)⟩
      | _ => cases fires
  | programOffers offers inv =>
      obtain ⟨n', inv', counts⟩ := inv.step offers fires
      exact ⟨n', .programOffers offers inv', counts⟩
  | pageOffers offerer inv =>
      obtain ⟨n', inv', counts⟩ := inv.step fires
      exact ⟨n', .pageOffers offerer inv', counts⟩

/-- A candidate costs two steps, and all others are steps of the negotiation. -/
theorem run (acts : List Call.Act) (progress : Progress prog peerId w n)
    (done : (call prog peerId).exec w acts = some w') :
    ∃ n', Progress prog peerId w' n' ∧ acts.length + n' ≤ n + 2 * acts.countP Call.Act.gathers := by
  induction acts generalizing w n with
  | nil =>
      cases done
      exact ⟨n, progress, by simp⟩
  | cons act rest ih =>
      obtain ⟨next, fires, tail⟩ := Option.bind_eq_some_iff.mp done
      obtain ⟨m, after, counts⟩ := progress.step fires
      obtain ⟨n', final, bound⟩ := ih after tail
      refine ⟨n', final, ?_⟩
      simp only [Counts] at counts
      rw [List.countP_cons, List.length_cons]
      split at counts
      · next gathers => rw [if_pos gathers]; omega
      · next other => rw [if_neg other]; omega

end Progress

/-- The endpoints have agreed on an offer and its answer, and nothing is under way. -/
def Agreed (prog : Program) (w : Call) : Prop :=
  ∃ o a, w.toProgram = [] ∧ w.toPage = [] ∧
    if prog.remoteIsOfferer then
      w.state = .peerCallNegotiating ∧ w.webrtc1 = (Answerer.settled o a).connection ∧
        w.peerConnection = (Offerer.settled o a).connection
    else
      w.state = .peerCallStarted ∧ w.webrtc1 = (Offerer.settled o a).connection ∧
        w.peerConnection = (Answerer.settled o a).connection

/-- What holds of the call whatever has happened until now. -/
structure Negotiates (prog : Program) (acts : List Call.Act) (w : Call) : Prop where
  /-- No assertion has failed, and nothing has ended the program. -/
  running : w.halted = none
  /-- The page has not reset its connection to the server. -/
  connected : w.page.readyState 0 = some .opened
  /-- Neither endpoint is asked for something that it refuses. -/
  sound : w.webrtc1.Sound ∧ w.peerConnection.Sound
  /-- The negotiation takes a bounded number of steps, and two for each candidate. -/
  bounded : acts.length ≤ 16 + 2 * acts.countP Call.Act.gathers
  /-- It does not stop before the endpoints have agreed. -/
  completes : (∀ act, act.gathers = false → w.step prog act = none) → Agreed prog w

theorem Called.readyState {peerId : Text} {page : Page} {media : Option Bool} {tasks : List Task}
    {log : List Effect} (called : Called peerId page media tasks log) :
    page.readyState 0 = some .opened := by
  cases called <;> rfl

/-- Whoever makes the offer, and in whatever order texts and promises come, the call is
negotiated: there is one offer, one answer to it, and both endpoints have both. -/
theorem call_negotiates (prog : Program) (peerId : Text) {acts : List Call.Act} {w : Call}
    (done : (call prog peerId).exec (call prog peerId).init acts = some w) :
    Negotiates prog acts w := by
  obtain ⟨n, progress, bound⟩ := Progress.run acts .ringing done
  have bounded : acts.length ≤ 16 + 2 * acts.countP Call.Act.gathers := by omega
  cases progress with
  | ringing =>
      refine ⟨rfl, rfl, ⟨Offerer.idle.sound, Answerer.idle.sound⟩, bounded, fun stuck => ?_⟩
      exact absurd (stuck .programReceives rfl) (programReceives_ne_none rfl nofun)
  | connected offerer =>
      refine ⟨rfl, rfl, ⟨Offerer.idle.sound, Answerer.idle.sound⟩, bounded, fun stuck => ?_⟩
      exact absurd (stuck .negotiationNeeded rfl) (negotiationNeeded_ne_none rfl rfl)
  | requested offerer =>
      refine ⟨rfl, rfl, ⟨Offerer.idle.sound, Answerer.idle.sound⟩, bounded, fun stuck => ?_⟩
      cases stuck .pageReceives rfl
  | programOffers offers inv =>
      have agreed (stuck : ∀ act, act.gathers = false → w.step prog act = none) : Agreed prog w := by
        obtain ⟨o, a, element, pc, state, toProgram, toPage⟩ := inv.stuck stuck
        refine ⟨o, a, toProgram, toPage, ?_⟩
        rw [offers, if_neg Bool.false_ne_true]
        exact ⟨state, element, pc⟩
      obtain @⟨os, as, _, _, _, _, _, _, _, called, _⟩ := inv
      exact ⟨rfl, called.readyState, ⟨os.sound, as.sound⟩, bounded, agreed⟩
  | pageOffers offerer inv =>
      have agreed (stuck : ∀ act, act.gathers = false → w.step prog act = none) : Agreed prog w := by
        obtain ⟨o, a, element, pc, state, toProgram, toPage⟩ := inv.stuck stuck
        refine ⟨o, a, toProgram, toPage, ?_⟩
        rw [if_pos offerer]
        exact ⟨state, element, pc⟩
      obtain @⟨os, as, _, _, _, _, _, _, _, called, _⟩ := inv
      exact ⟨rfl, called.readyState, ⟨as.sound, os.sound⟩, bounded, agreed⟩

/-- The page is asked for an offer, gathers a candidate before the answer comes, and is refused
the camera. -/
theorem call_negotiates_requested :
    ∃ w, Negotiates ⟨none, true⟩ [.programReceives, .negotiationNeeded, .pageReceives,
      .promise 0 false, .promise 0 true, .operation "o".toList, .operation [],
      .pageCandidate ⟨"c".toList, none, some 0⟩, .programReceives, .programReceives, .webrtcbin [],
      .webrtcbin "a".toList, .webrtcbin [], .pageReceives, .operation []] w ∧
      w.webrtc1 = (Answerer.settled "o".toList "a".toList).connection :=
  ⟨_, call_negotiates ⟨none, true⟩ "1".toList rfl, rfl⟩

end GstWebrtc.Sendrecv
