import GstWebrtc.Check.Closure

/-!
# The page offers

The stages of the page that makes the offer and of the client that answers it.
The page sends the offer when it is set, and only a wait of its own keeps the
client from answering before it has the offer.
-/

namespace GstWebrtc.Check

open GstWebrtc.Base GstWebrtc.Browser

/-! ## The client -/

inductive ClientAnswers where
  | idle
  | hearing (offer : Text)
  | noted (offer : Text)
  | heard (offer : Text)
  | creating (offer : Text)
  | created (offer answer : Text)
  | recorded (offer answer : Text)
  | chained (offer answer : Text)
  | sent (offer answer : Text)
  | set (offer answer : Text)
  | done (offer answer : Text)

namespace ClientAnswers

def connection : ClientAnswers → PeerConnection
  | idle => .new
  | hearing o => ⟨.stable, none, none, [.setRemoteDescription (.offer o)]⟩
  | noted o | heard o | created o _ | recorded o _ =>
      ⟨.haveRemoteOffer, none, some (.offer o), []⟩
  | creating o => ⟨.haveRemoteOffer, none, some (.offer o), [.createAnswer]⟩
  | chained o a | sent o a =>
      ⟨.haveRemoteOffer, none, some (.offer o), [.setLocalDescription (.answer a)]⟩
  | set o a | done o a => ⟨.stable, some (.answer a), some (.offer o), []⟩

def callback : ClientAnswers → List Statement
  | noted _ => [.updateNegotiationState .offerSet]
  | created _ a =>
      [.updateNegotiationState .answerCreated, .setLocalDescription (.answer a),
        .fireCreated (.answer a)]
  | recorded _ a => [.setLocalDescription (.answer a), .fireCreated (.answer a)]
  | chained _ a => [.fireCreated (.answer a)]
  | set _ _ => [.updateNegotiationState .answerSet]
  | _ => []

def history : ClientAnswers → List NegotiationState
  | idle | hearing _ | noted _ => []
  | heard _ | creating _ | created _ _ => [.offerSet]
  | recorded _ _ | chained _ _ | sent _ _ | set _ _ => [.offerSet, .answerCreated]
  | done _ _ => [.offerSet, .answerCreated, .answerSet]

/-- The offer that was received. -/
def offer : ClientAnswers → Option Text
  | idle => none
  | hearing o | noted o | heard o | creating o | created o _ | recorded o _ | chained o _
  | sent o _ | set o _ | done o _ => some o

/-- The answer that was sent. -/
def answer : ClientAnswers → Option Text
  | sent _ a | set _ a | done _ a => some a
  | _ => none

/-- The answer has been asked for. -/
def asked : ClientAnswers → Bool
  | idle | hearing _ | noted _ | heard _ => false
  | _ => true

/-- The steps that are left at the client, where sending the answer counts as one. -/
def work : ClientAnswers → Nat
  | idle | hearing _ => 9
  | noted _ => 8
  | heard _ | creating _ => 7
  | created _ _ => 6
  | recorded _ _ => 5
  | chained _ _ => 4
  | sent _ _ => 2
  | set _ _ => 1
  | done _ _ => 0

/-- The stages of each phase. -/
def Fits (cs : ClientAnswers) : Phase → Prop
  | .start => cs = idle
  | .offering => cs.asked = false
  | .answering => cs.asked = true

theorem Fits.next {cs next : ClientAnswers} {phase : Phase} (fits : cs.Fits phase)
    (begun : cs ≠ idle) (same : next.asked = cs.asked) : next.Fits phase := by
  cases phase with
  | start => exact absurd fits begun
  | offering => exact same.trans fits
  | answering => exact same.trans fits

end ClientAnswers

/-- The page is asked for the offer. -/
def asksOffer : Phase → List Item
  | .start => []
  | _ => [.asks .createOffer]

def ClientAnswers.view (phase : Phase) (cs : ClientAnswers) : ClientView where
  connection := cs.connection
  callback := cs.callback
  history := cs.history
  commands := asksOffer phase ++ (cs.answer.map fun a => Item.description (.answer a)).toList
  received := (cs.offer.map Description.offer).toList

/-! ## The page -/

inductive PageOffers where
  | idle
  | asked
  | creating
  | setting (offer : Text)
  | offered (offer : Text)
  | accepting (offer answer : Text)
  | settled (offer answer : Text)

namespace PageOffers

def connection : PageOffers → Option PeerConnection
  | idle => none
  | asked => some Offerer.idle.connection
  | creating => some Offerer.creating.connection
  | setting o => some (Offerer.setting o).connection
  | offered o => some (Offerer.offered o).connection
  | accepting o a => some (Offerer.accepting o a).connection
  | settled o a => some (Offerer.settled o a).connection

def waiting : PageOffers → List Operation
  | asked => [.createOffer]
  | _ => []

def received : PageOffers → List Item
  | idle => []
  | asked | creating | setting _ | offered _ => [.asks .createOffer]
  | accepting _ a | settled _ a => [.asks .createOffer, .description (.answer a)]

def reports : PageOffers → List Item
  | idle | asked | creating => []
  | setting _ => [.state .offerCreated]
  | offered o | accepting o _ =>
      [.state .offerCreated, .state .offerSet, .description (.offer o)]
  | settled o _ =>
      [.state .offerCreated, .state .offerSet, .description (.offer o), .state .answerSet]

/-- The steps that are left at the page, where each report counts as one. -/
def work : PageOffers → Nat
  | idle | asked => 8
  | creating => 7
  | setting _ => 5
  | offered _ | accepting _ _ => 2
  | settled _ _ => 0

def view (ps : PageOffers) : PageView := ⟨ps.connection, ps.waiting, ps.received, ps.reports⟩

end PageOffers

/-! ## Both -/

/-- What a test comes to in which the page offers. -/
inductive RemoteOffer : Phase → ClientView → PageView → Nat → Prop where
  | mk {phase : Phase} {cs : ClientAnswers} {ps : PageOffers} (fits : cs.Fits phase) :
      RemoteOffer phase (cs.view phase) ps.view (cs.work + ps.work)

namespace RemoteOffer

variable {phase : Phase} {c c' : ClientView} {p p' : PageView} {m : Nat} {generated : Text}

/-- The next stage of the client. -/
theorem thread {cs : ClientAnswers} (fits : cs.Fits phase)
    (runs : (cs.view phase).pcThread generated = some c') :
    ∃ next : ClientAnswers, next.view phase = c' ∧ next.Fits phase ∧
      next.work + 1 + c'.commands.length = cs.work + (cs.view phase).commands.length := by
  cases cs with
  | idle | heard o | done o a => cases runs
  | hearing o =>
      cases runs
      exact ⟨.noted o, rfl, fits.next (by simp) rfl, rfl⟩
  | noted o =>
      cases runs
      exact ⟨.heard o, rfl, fits.next (by simp) rfl, rfl⟩
  | creating o =>
      cases runs
      exact ⟨.created o generated, rfl, fits.next (by simp) rfl, rfl⟩
  | created o a =>
      cases runs
      exact ⟨.recorded o a, rfl, fits.next (by simp) rfl, rfl⟩
  | recorded o a =>
      cases runs
      exact ⟨.chained o a, rfl, fits.next (by simp) rfl, rfl⟩
  | chained o a =>
      cases runs
      cases phase <;> exact ⟨.sent o a, rfl, fits.next (by simp) rfl, rfl⟩
  | sent o a =>
      cases runs
      exact ⟨.set o a, rfl, fits.next (by simp) rfl, rfl⟩
  | set o a =>
      cases runs
      exact ⟨.done o a, rfl, fits.next (by simp) rfl, rfl⟩

/-- The client asks for the offer first, and then at most sends the answer. -/
theorem command {cs : ClientAnswers} (fits : cs.Fits phase) {i : Nat} {item : Item}
    (sent : (cs.view phase).commands[i]? = some item) :
    (i = 0 ∧ item = .asks .createOffer) ∨
      i = 1 ∧ ∃ a, cs.answer = some a ∧ item = .description (.answer a) := by
  rw [ClientAnswers.view] at sent
  cases phase with
  | start =>
      cases fits
      cases sent
  | offering | answering =>
      cases i with
      | zero => exact Or.inl ⟨rfl, (Option.some.inj sent).symm⟩
      | succ i =>
          cases answered : cs.answer with
          | none =>
              rw [answered] at sent
              cases sent
          | some a =>
              rw [answered] at sent
              cases i with
              | zero => exact Or.inr ⟨rfl, a, rfl, (Option.some.inj sent).symm⟩
              | succ i => cases sent

theorem hears {d : Description} (at' : RemoteOffer phase c p m) (told : Told c p)
    (reports : c.received ++ [d] <+: descriptionsOf p.reports) :
    RemoteOffer phase (c.hear d) p m := by
  obtain @⟨cs, ps, fits⟩ := at'
  have begun : ps.received = [] ∨ phase ≠ .start := by
    cases phase with
    | start =>
        cases fits
        exact Or.inl (List.prefix_nil.mp told.commands)
    | offering | answering => exact Or.inr (by simp)
  have hearing {o : Text} (offered : descriptionsOf ps.reports = [.offer o])
      (asked : ps.received ≠ []) : RemoteOffer phase ((cs.view phase).hear d) ps.view
        (cs.work + ps.work) := by
    have one : (cs.view phase).received ++ [d] <+: [.offer o] := offered ▸ reports
    have started := begun.resolve_left asked
    cases cs with
    | idle =>
        cases (List.cons_prefix_cons.mp one).1
        refine @RemoteOffer.mk phase (.hearing o) ps ?_
        cases phase with
        | start => exact absurd rfl started
        | offering => rfl
        | answering => cases fits
    | _ => exact absurd one.length_le (by simp [ClientAnswers.view, ClientAnswers.offer])
  cases ps with
  | idle | asked | creating | setting _ =>
      have none : (cs.view phase).received ++ [d] <+: [] := reports
      exact absurd none.length_le (by simp)
  | offered o | accepting o _ | settled o _ => exact hearing rfl (by simp [PageOffers.received])

theorem takes {item : Item} (at' : RemoteOffer phase c p m) (told : Told c p)
    (commanded : p.received ++ [item] <+: c.commands) : RemoteOffer phase c (p.take item) m := by
  obtain @⟨cs, ps, fits⟩ := at'
  have next := command fits (next_of_beginning commanded)
  cases ps with
  | idle =>
      rcases next with ⟨-, rfl⟩ | ⟨other, -⟩
      · exact @RemoteOffer.mk phase cs .asked fits
      · cases other
  | asked | creating | setting _ =>
      rcases next with ⟨other, -⟩ | ⟨-, a, sent, -⟩
      · cases other
      · have known : (cs.view phase).received <+: [] := told.reports
        cases cs with
        | sent o a | set o a | done o a => cases List.prefix_nil.mp known
        | _ => cases sent
  | offered o =>
      rcases next with ⟨other, -⟩ | ⟨-, a, -, rfl⟩
      · cases other
      · exact @RemoteOffer.mk phase cs (.accepting o a) fits
  | accepting _ _ | settled _ _ => rcases next with ⟨other, -⟩ | ⟨other, -⟩ <;> cases other

theorem waiting (at' : RemoteOffer phase c p m) (runs : p.runWaiting = some p') :
    ∃ m', RemoteOffer phase c p' m' ∧ m' + 1 = m := by
  obtain @⟨cs, ps, fits⟩ := at'
  cases ps with
  | asked =>
      cases runs
      exact ⟨_, @RemoteOffer.mk phase cs .creating fits, rfl⟩
  | _ => cases runs

theorem operate (at' : RemoteOffer phase c p m) (operates : p.operate generated = some p') :
    ∃ m', RemoteOffer phase c p' m' ∧ m' + 1 + p'.reports.length = m + p.reports.length := by
  obtain @⟨cs, ps, fits⟩ := at'
  cases ps with
  | idle | asked | offered _ | settled _ _ => cases operates
  | creating =>
      cases operates
      exact ⟨_, @RemoteOffer.mk phase cs (.setting generated) fits, rfl⟩
  | setting o =>
      cases operates
      exact ⟨_, @RemoteOffer.mk phase cs (.offered o) fits, rfl⟩
  | accepting o a =>
      cases operates
      exact ⟨_, @RemoteOffer.mk phase cs (.settled o a) fits, rfl⟩

theorem ordered (at' : RemoteOffer phase c p m) (which : Which) :
    (story c p which).Sublist NegotiationState.order := by
  obtain @⟨cs, ps, fits⟩ := at'
  cases which with
  | «local» => cases cs <;> exact of_decide_eq_true rfl
  | remote => cases ps <;> exact of_decide_eq_true rfl

theorem sound (at' : RemoteOffer phase c p m) :
    c.connection.Sound ∧ ∀ pc, p.connection = some pc → pc.Sound := by
  obtain @⟨cs, ps, fits⟩ := at'
  constructor
  · intro generated op result after done
    cases cs <;> cases done <;> simp
  · intro pc called
    cases ps <;> cases called <;> exact Offerer.sound _

theorem gathers (at' : RemoteOffer phase c p m)
    (set : c.connection.localDescription.isSome = true) : ∃ d, .description d ∈ c.commands := by
  obtain @⟨cs, ps, fits⟩ := at'
  cases cs with
  | set o a | done o a => exact ⟨.answer a, List.mem_append_right _ List.mem_cons_self⟩
  | _ => cases set

theorem hearsCandidates {d : Description} (at' : RemoteOffer phase c p m)
    (told : .description d ∈ p.received) :
    ∃ pc, p.connection = some pc ∧ hearsCandidates pc = true := by
  obtain @⟨cs, ps, fits⟩ := at'
  cases ps with
  | accepting o a | settled o a => exact ⟨_, rfl, rfl⟩
  | _ => exact absurd told (by simp [PageOffers.view, PageOffers.received])

/-- The client has the offer. -/
theorem answers (at' : RemoteOffer .offering c p m) (met : Met .remote c p) :
    RemoteOffer .answering (c.ask .createAnswer .local) p m := by
  obtain @⟨cs, ps, fits⟩ := at'
  have own : .offerSet ∈ cs.history := met.resolve_right (by simp)
  cases cs with
  | heard o => exact @RemoteOffer.mk .answering (.creating o) ps rfl
  | idle | hearing _ | noted _ => cases own
  | _ => cases fits

/-- The stages in which nothing is left to be done at the client. -/
theorem client_rest {cs : ClientAnswers} (thread : (cs.view phase).pcThread [] = none) :
    cs = .idle ∨ (∃ o, cs = .heard o) ∨ ∃ o a, cs = .done o a := by
  cases cs with
  | idle => exact Or.inl rfl
  | heard o => exact Or.inr (Or.inl ⟨o, rfl⟩)
  | done o a => exact Or.inr (Or.inr ⟨o, a, rfl⟩)
  | _ => cases thread

/-- The stages in which nothing is left to be done at the page. -/
theorem page_rest {ps : PageOffers} (runs : ps.view.runWaiting = none)
    (operates : ps.view.operate [] = none) :
    ps = .idle ∨ (∃ o, ps = .offered o) ∨ ∃ o a, ps = .settled o a := by
  cases ps with
  | idle => exact Or.inl rfl
  | offered o => exact Or.inr (Or.inl ⟨o, rfl⟩)
  | settled o a => exact Or.inr (Or.inr ⟨o, a, rfl⟩)
  | asked => cases runs
  | _ => cases operates

/-- When nothing is left at either end, the offer is set at both, or the answer is. -/
theorem rest (at' : RemoteOffer phase c p m) (thread : c.pcThread [] = none)
    (runs : p.runWaiting = none) (operates : p.operate [] = none) (read : p.received = c.commands)
    (known : c.received = descriptionsOf p.reports) : Complete .remote c p phase := by
  obtain @⟨cs, ps, fits⟩ := at'
  cases phase with
  | start => trivial
  | offering =>
      rcases client_rest thread with rfl | ⟨o, rfl⟩ | ⟨o, a, rfl⟩
      · rcases page_rest runs operates with rfl | ⟨o', rfl⟩ | ⟨o', a, rfl⟩
        · cases read
        · cases known
        · cases known
      · rcases page_rest runs operates with rfl | ⟨o', rfl⟩ | ⟨o', a, rfl⟩
        · cases read
        · intro awaited inside
          simp only [waitsBefore, Which.other, List.mem_cons, List.not_mem_nil, or_false] at inside
          rcases inside with rfl | rfl | rfl <;> exact of_decide_eq_true rfl
        · cases read
      · cases fits
  | answering =>
      rcases client_rest thread with rfl | ⟨o, rfl⟩ | ⟨o, a, rfl⟩
      · cases fits
      · cases fits
      · rcases page_rest runs operates with rfl | ⟨o', rfl⟩ | ⟨o', a', rfl⟩
        · cases read
        · cases read
        · cases read
          cases known
          refine ⟨fun awaited inside => ?_, _, rfl, o, a, rfl, rfl⟩
          simp only [waitsAfter, Which.other, List.mem_cons, List.not_mem_nil, or_false] at inside
          rcases inside with rfl | rfl | rfl <;> exact of_decide_eq_true rfl

theorem closed : Closed .remote RemoteOffer where
  start := @RemoteOffer.mk .start .idle .idle rfl
  offers := by
    intro c p m at'
    obtain @⟨cs, ps, fits⟩ := at'
    cases fits
    exact @RemoteOffer.mk .offering .idle ps rfl
  answers := fun at' _ met => answers at' met
  pcThread := by
    intro phase c p m generated c' at' runs
    obtain @⟨cs, ps, fits⟩ := at'
    obtain ⟨next, rfl, fits', less⟩ := thread fits runs
    exact ⟨_, .mk fits', by omega⟩
  hears := hears
  takes := takes
  waiting := waiting
  operate := operate
  gathers := gathers
  hearsCandidates := hearsCandidates
  ordered := ordered
  sound := sound
  rest := rest

end RemoteOffer

end GstWebrtc.Check
