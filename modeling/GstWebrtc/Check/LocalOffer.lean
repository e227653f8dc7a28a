import GstWebrtc.Check.Closure

/-!
# The client offers

The stages of the client that makes the offer and of the page that answers it.
The client sends the offer before it is set, so that all that follows its being
set comes to the page behind the offer.
-/

namespace GstWebrtc.Check

open GstWebrtc.Base GstWebrtc.Browser

/-! ## The client -/

/-- The stages are in the order in which they come; the answer comes during some of them. -/
inductive ClientOffers where
  | idle
  | creating
  | created (offer : Text)
  | recorded (offer : Text)
  | chained (offer : Text)
  | sent (offer : Text) (answer : Option Text)
  | set (offer : Text) (answer : Option Text)
  | seen (offer : Text) (answer : Option Text)
  | accepted (offer answer : Text)
  | done (offer answer : Text)

namespace ClientOffers

/-- The answer is to be set. -/
def accept : Option Text → List Operation
  | none => []
  | some a => [.setRemoteDescription (.answer a)]

def connection : ClientOffers → PeerConnection
  | idle | created _ | recorded _ => .new
  | creating => ⟨.stable, none, none, [.createOffer]⟩
  | chained o => ⟨.stable, none, none, [.setLocalDescription (.offer o)]⟩
  | sent o a => ⟨.stable, none, none, .setLocalDescription (.offer o) :: accept a⟩
  | set o a | seen o a => ⟨.haveLocalOffer, some (.offer o), none, accept a⟩
  | accepted o a | done o a => ⟨.stable, some (.offer o), some (.answer a), []⟩

def callback : ClientOffers → List Statement
  | created o =>
      [.updateNegotiationState .offerCreated, .setLocalDescription (.offer o),
        .fireCreated (.offer o)]
  | recorded o => [.setLocalDescription (.offer o), .fireCreated (.offer o)]
  | chained o => [.fireCreated (.offer o)]
  | set _ _ => [.updateNegotiationState .offerSet]
  | accepted _ _ => [.updateNegotiationState .answerSet]
  | _ => []

def history : ClientOffers → List NegotiationState
  | idle | creating | created _ => []
  | recorded _ | chained _ | sent _ _ | set _ _ => [.offerCreated]
  | seen _ _ | accepted _ _ => [.offerCreated, .offerSet]
  | done _ _ => [.offerCreated, .offerSet, .answerSet]

/-- The offer that was sent. -/
def offer : ClientOffers → Option Text
  | sent o _ | set o _ | seen o _ | accepted o _ | done o _ => some o
  | _ => none

/-- The answer that was received. -/
def answer : ClientOffers → Option Text
  | sent _ a | set _ a | seen _ a => a
  | accepted _ a | done _ a => some a
  | _ => none

/-- The steps that are left at the client, where sending the offer counts as one. -/
def work : ClientOffers → Nat
  | idle | creating => 9
  | created _ => 8
  | recorded _ => 7
  | chained _ => 6
  | sent _ _ => 4
  | set _ _ => 3
  | seen _ _ => 2
  | accepted _ _ => 1
  | done _ _ => 0

/-- The stages of each phase: the answer is asked for when the offer has been sent. -/
def Fits (cs : ClientOffers) : Phase → Prop
  | .start => cs = idle
  | .offering => cs ≠ idle
  | .answering => cs.offer ≠ none

theorem Fits.next {cs next : ClientOffers} {phase : Phase} (fits : cs.Fits phase)
    (same : cs = idle ↔ next = idle) (sent : cs.offer ≠ none → next.offer ≠ none) :
    next.Fits phase := by
  cases phase with
  | start => exact same.mp fits
  | offering => exact fun idle => fits (same.mpr idle)
  | answering => exact sent fits

end ClientOffers

/-- The page is asked for the answer. -/
def asksAnswer : Phase → List Item
  | .answering => [.asks .createAnswer]
  | _ => []

def ClientOffers.view (phase : Phase) (cs : ClientOffers) : ClientView where
  connection := cs.connection
  callback := cs.callback
  history := cs.history
  commands := (cs.offer.map fun o => Item.description (.offer o)).toList ++ asksAnswer phase
  received := (cs.answer.map Description.answer).toList

/-! ## The page -/

inductive PageAnswers where
  | idle
  | hearing (offer : Text) (asked : Bool)
  /-- The answer is created when the offer is set. -/
  | hasty (offer : Text)
  | heard (offer : Text) (asked : Bool)
  | creating (offer : Text)
  | setting (offer answer : Text)
  | settled (offer answer : Text)

namespace PageAnswers

def connection : PageAnswers → Option PeerConnection
  | idle => none
  | hearing o _ => some (Answerer.hearing o).connection
  | hasty o => some (Answerer.hasty o).connection
  | heard o _ => some (Answerer.heard o).connection
  | creating o => some (Answerer.creating o).connection
  | setting o a => some (Answerer.setting o a).connection
  | settled o a => some (Answerer.settled o a).connection

def waiting : PageAnswers → List Operation
  | hearing _ true | heard _ true => [.createAnswer]
  | _ => []

def received : PageAnswers → List Item
  | idle => []
  | hearing o false | heard o false => [.description (.offer o)]
  | hearing o true | hasty o | heard o true | creating o | setting o _ | settled o _ =>
      [.description (.offer o), .asks .createAnswer]

def reports : PageAnswers → List Item
  | idle | hearing _ _ | hasty _ => []
  | heard _ _ | creating _ => [.state .offerSet]
  | setting _ _ => [.state .offerSet, .state .answerCreated]
  | settled _ a =>
      [.state .offerSet, .state .answerCreated, .state .answerSet, .description (.answer a)]

/-- The steps that are left at the page, where each report counts as one. -/
def work : PageAnswers → Nat
  | idle | hearing _ _ => 8
  | hasty _ => 7
  | heard _ _ => 6
  | creating _ => 5
  | setting _ _ => 3
  | settled _ _ => 0

def view (ps : PageAnswers) : PageView := ⟨ps.connection, ps.waiting, ps.received, ps.reports⟩

end PageAnswers

/-! ## Both -/

/-- What a test comes to in which the client offers. -/
inductive LocalOffer : Phase → ClientView → PageView → Nat → Prop where
  | mk {phase : Phase} {cs : ClientOffers} {ps : PageAnswers} (fits : cs.Fits phase) :
      LocalOffer phase (cs.view phase) ps.view (cs.work + ps.work)

namespace LocalOffer

variable {phase : Phase} {c c' : ClientView} {p p' : PageView} {m : Nat} {generated : Text}

/-- The next stage of the client. -/
theorem thread {cs : ClientOffers} (fits : cs.Fits phase)
    (runs : (cs.view phase).pcThread generated = some c') :
    ∃ next : ClientOffers, next.view phase = c' ∧ next.Fits phase ∧
      next.work + 1 + c'.commands.length = cs.work + (cs.view phase).commands.length := by
  cases cs with
  | idle | done o a => cases runs
  | creating =>
      cases runs
      exact ⟨.created generated, rfl, fits.next (by simp) (by simp [ClientOffers.offer]), rfl⟩
  | created o =>
      cases runs
      exact ⟨.recorded o, rfl, fits.next (by simp) (by simp [ClientOffers.offer]), rfl⟩
  | recorded o =>
      cases runs
      exact ⟨.chained o, rfl, fits.next (by simp) (by simp [ClientOffers.offer]), rfl⟩
  | chained o =>
      cases runs
      cases phase with
      | start | offering =>
          exact ⟨.sent o none, rfl, fits.next (by simp) (by simp [ClientOffers.offer]), rfl⟩
      | answering => exact absurd rfl fits
  | sent o a =>
      cases runs
      exact ⟨.set o a, rfl, fits.next (by simp) (by simp [ClientOffers.offer]), rfl⟩
  | set o a =>
      cases runs
      exact ⟨.seen o a, rfl, fits.next (by simp) (by simp [ClientOffers.offer]), rfl⟩
  | seen o a =>
      cases a with
      | none => cases runs
      | some a =>
          cases runs
          exact ⟨.accepted o a, rfl, fits.next (by simp) (by simp [ClientOffers.offer]), rfl⟩
  | accepted o a =>
      cases runs
      exact ⟨.done o a, rfl, fits.next (by simp) (by simp [ClientOffers.offer]), rfl⟩

/-- What the client has sent. -/
theorem commands (phase : Phase) {cs : ClientOffers} (fits : cs.Fits phase) :
    (cs.offer = none ∧ (cs.view phase).commands = []) ∨ ∃ o, cs.offer = some o ∧
      (cs.view phase).commands = .description (.offer o) :: asksAnswer phase := by
  rw [ClientOffers.view]
  cases sent : cs.offer with
  | some o => exact Or.inr ⟨o, rfl, rfl⟩
  | none =>
      cases phase with
      | start | offering => exact Or.inl ⟨rfl, rfl⟩
      | answering => exact absurd sent fits

/-- The client sends the offer first, and then at most asks for the answer. -/
theorem command {cs : ClientOffers} (fits : cs.Fits phase) {i : Nat} {item : Item}
    (sent : (cs.view phase).commands[i]? = some item) :
    (i = 0 ∧ ∃ o, item = .description (.offer o)) ∨ i = 1 ∧ item = .asks .createAnswer := by
  rcases commands phase fits with ⟨-, none⟩ | ⟨o, -, some⟩
  · rw [none] at sent
    cases sent
  · rw [some] at sent
    cases i with
    | zero => exact Or.inl ⟨rfl, o, (Option.some.inj sent).symm⟩
    | succ i =>
        cases phase with
        | start | offering => cases sent
        | answering =>
            cases i with
            | zero => exact Or.inr ⟨rfl, (Option.some.inj sent).symm⟩
            | succ i => cases sent

/-- The page has received the offer that was sent. -/
theorem offered {cs : ClientOffers} {ps : PageAnswers} (fits : cs.Fits phase)
    (told : Told (cs.view phase) ps.view) {o : Text} {rest : List Item}
    (received : ps.received = .description (.offer o) :: rest) :
    cs.offer = some o ∧ rest <+: asksAnswer phase := by
  have part : ps.received <+: (cs.view phase).commands := told.commands
  rw [received] at part
  rcases commands phase fits with ⟨-, none⟩ | ⟨o', sent, some⟩
  · rw [none] at part
    cases List.prefix_nil.mp part
  · rw [some, List.cons_prefix_cons] at part
    obtain ⟨same, rest⟩ := part
    cases same
    exact ⟨sent, rest⟩

theorem hears {d : Description} (at' : LocalOffer phase c p m) (told : Told c p)
    (reports : c.received ++ [d] <+: descriptionsOf p.reports) :
    LocalOffer phase (c.hear d) p m := by
  obtain @⟨cs, ps, fits⟩ := at'
  cases ps with
  | settled o a =>
      obtain ⟨sent, -⟩ := offered fits told rfl
      have one : (cs.view phase).received ++ [d] <+: [.answer a] := reports
      cases waits : cs.answer with
      | some a' =>
          rw [ClientOffers.view, waits] at one
          exact absurd one.length_le (by simp)
      | none =>
          rw [ClientOffers.view, waits] at one
          cases (List.cons_prefix_cons.mp one).1
          cases cs with
          | idle | creating | created _ | recorded _ | chained _ => cases sent
          | sent o _ =>
              cases waits
              exact @LocalOffer.mk phase (.sent o (some a)) (.settled _ a)
                (fits.next (by simp) (by simp [ClientOffers.offer]))
          | set o _ =>
              cases waits
              exact @LocalOffer.mk phase (.set o (some a)) (.settled _ a)
                (fits.next (by simp) (by simp [ClientOffers.offer]))
          | seen o _ =>
              cases waits
              exact @LocalOffer.mk phase (.seen o (some a)) (.settled _ a)
                (fits.next (by simp) (by simp [ClientOffers.offer]))
          | accepted _ _ | done _ _ => cases waits
  | idle | hearing _ _ | hasty _ | heard _ _ | creating _ | setting _ _ =>
      have none : (cs.view phase).received ++ [d] <+: [] := reports
      exact absurd none.length_le (by simp)

theorem takes {item : Item} (at' : LocalOffer phase c p m)
    (commanded : p.received ++ [item] <+: c.commands) : LocalOffer phase c (p.take item) m := by
  obtain @⟨cs, ps, fits⟩ := at'
  have next := command fits (next_of_beginning commanded)
  cases ps with
  | idle =>
      rcases next with ⟨-, o, rfl⟩ | ⟨other, -⟩
      · exact @LocalOffer.mk phase cs (.hearing o false) fits
      · cases other
  | hearing o asked =>
      cases asked with
      | false =>
          rcases next with ⟨other, -⟩ | ⟨-, rfl⟩
          · cases other
          · exact @LocalOffer.mk phase cs (.hearing o true) fits
      | true => rcases next with ⟨other, -⟩ | ⟨other, -⟩ <;> cases other
  | heard o asked =>
      cases asked with
      | false =>
          rcases next with ⟨other, -⟩ | ⟨-, rfl⟩
          · cases other
          · exact @LocalOffer.mk phase cs (.heard o true) fits
      | true => rcases next with ⟨other, -⟩ | ⟨other, -⟩ <;> cases other
  | hasty _ | creating _ | setting _ _ | settled _ _ =>
      rcases next with ⟨other, -⟩ | ⟨other, -⟩ <;> cases other

theorem waiting (at' : LocalOffer phase c p m) (runs : p.runWaiting = some p') :
    ∃ m', LocalOffer phase c p' m' ∧ m' + 1 = m := by
  obtain @⟨cs, ps, fits⟩ := at'
  cases ps with
  | idle | hasty _ | creating _ | setting _ _ | settled _ _ => cases runs
  | hearing o asked =>
      cases asked <;> cases runs
      exact ⟨_, @LocalOffer.mk phase cs (.hasty o) fits, rfl⟩
  | heard o asked =>
      cases asked <;> cases runs
      exact ⟨_, @LocalOffer.mk phase cs (.creating o) fits, rfl⟩

theorem operate (at' : LocalOffer phase c p m) (operates : p.operate generated = some p') :
    ∃ m', LocalOffer phase c p' m' ∧ m' + 1 + p'.reports.length = m + p.reports.length := by
  obtain @⟨cs, ps, fits⟩ := at'
  cases ps with
  | idle | heard _ _ | settled _ _ => cases operates
  | hearing o asked =>
      cases operates
      cases asked with
      | false => exact ⟨_, @LocalOffer.mk phase cs (.heard o false) fits, rfl⟩
      | true => exact ⟨_, @LocalOffer.mk phase cs (.heard o true) fits, rfl⟩
  | hasty o =>
      cases operates
      exact ⟨_, @LocalOffer.mk phase cs (.creating o) fits, rfl⟩
  | creating o =>
      cases operates
      exact ⟨_, @LocalOffer.mk phase cs (.setting o generated) fits, rfl⟩
  | setting o a =>
      cases operates
      exact ⟨_, @LocalOffer.mk phase cs (.settled o a) fits, rfl⟩

theorem ordered (at' : LocalOffer phase c p m) (which : Which) :
    (story c p which).Sublist NegotiationState.order := by
  obtain @⟨cs, ps, fits⟩ := at'
  cases which with
  | «local» => cases cs <;> exact of_decide_eq_true rfl
  | remote => cases ps <;> exact of_decide_eq_true rfl

theorem sound (at' : LocalOffer phase c p m) :
    c.connection.Sound ∧ ∀ pc, p.connection = some pc → pc.Sound := by
  obtain @⟨cs, ps, fits⟩ := at'
  constructor
  · intro generated op result after done
    cases cs with
    | sent o a | set o a | seen o a => cases a <;> cases done <;> simp
    | _ => cases done <;> simp
  · intro pc called
    cases ps <;> cases called <;> exact Answerer.sound _

theorem gathers (at' : LocalOffer phase c p m)
    (set : c.connection.localDescription.isSome = true) : ∃ d, .description d ∈ c.commands := by
  obtain @⟨cs, ps, fits⟩ := at'
  cases cs with
  | set o a | seen o a | accepted o a | done o a => exact ⟨.offer o, List.mem_cons_self⟩
  | _ => cases set

theorem hearsCandidates {d : Description} (at' : LocalOffer phase c p m)
    (told : .description d ∈ p.received) :
    ∃ pc, p.connection = some pc ∧ hearsCandidates pc = true := by
  obtain @⟨cs, ps, fits⟩ := at'
  cases ps with
  | idle => cases told
  | _ => exact ⟨_, rfl, rfl⟩

/-- The offer has been set somewhere, and so it has been sent. -/
theorem answers (at' : LocalOffer .offering c p m) (told : Told c p) (met : Met .local c p) :
    LocalOffer .answering (c.ask .createAnswer .remote) p m := by
  obtain @⟨cs, ps, fits⟩ := at'
  have sent : cs.offer ≠ none := by
    rcases met with own | ⟨-, reported⟩
    · cases cs with
      | sent _ _ | set _ _ | seen _ _ | accepted _ _ | done _ _ => simp [ClientOffers.offer]
      | idle | creating | created _ => cases own
      | recorded _ | chained _ =>
          exact absurd own (by simp [ClientOffers.view, ClientOffers.history])
    · have heard : ∃ o rest, ps.received = .description (.offer o) :: rest := by
        cases ps with
        | idle => cases reported
        | hearing o asked | heard o asked => cases asked <;> exact ⟨o, _, rfl⟩
        | hasty o | creating o | setting o _ | settled o _ => exact ⟨o, _, rfl⟩
      obtain ⟨o, rest, received⟩ := heard
      rw [(offered fits told received).1]
      simp
  have asked : (cs.view .offering).ask .createAnswer .remote = cs.view .answering := by
    simp only [ClientView.ask, ClientOffers.view, asksAnswer, List.append_nil]
  rw [asked]
  exact .mk sent

/-- The stages in which nothing is left to be done at the client. -/
theorem client_rest {cs : ClientOffers} (thread : (cs.view phase).pcThread [] = none) :
    cs = .idle ∨ (∃ o, cs = .seen o none) ∨ ∃ o a, cs = .done o a := by
  cases cs with
  | idle => exact Or.inl rfl
  | seen o a =>
      cases a with
      | none => exact Or.inr (Or.inl ⟨o, rfl⟩)
      | some a => cases thread
  | done o a => exact Or.inr (Or.inr ⟨o, a, rfl⟩)
  | _ => cases thread

/-- The stages in which nothing is left to be done at the page. -/
theorem page_rest {ps : PageAnswers} (runs : ps.view.runWaiting = none)
    (operates : ps.view.operate [] = none) :
    ps = .idle ∨ (∃ o, ps = .heard o false) ∨ ∃ o a, ps = .settled o a := by
  cases ps with
  | idle => exact Or.inl rfl
  | heard o asked =>
      cases asked with
      | false => exact Or.inr (Or.inl ⟨o, rfl⟩)
      | true => cases runs
  | settled o a => exact Or.inr (Or.inr ⟨o, a, rfl⟩)
  | _ => cases operates

/-- When nothing is left at either end, the offer is set at both, or the answer is. -/
theorem rest (at' : LocalOffer phase c p m) (thread : c.pcThread [] = none)
    (runs : p.runWaiting = none) (operates : p.operate [] = none) (read : p.received = c.commands)
    (known : c.received = descriptionsOf p.reports) : Complete .local c p phase := by
  obtain @⟨cs, ps, fits⟩ := at'
  cases phase with
  | start => trivial
  | offering =>
      rcases client_rest thread with rfl | ⟨o, rfl⟩ | ⟨o, a, rfl⟩
      · exact absurd rfl fits
      · rcases page_rest runs operates with rfl | ⟨o', rfl⟩ | ⟨o', a, rfl⟩
        · cases read
        · intro awaited inside
          simp only [waitsBefore, Which.other, List.mem_cons, List.not_mem_nil, or_false] at inside
          rcases inside with rfl | rfl | rfl <;> exact of_decide_eq_true rfl
        · cases read
      · rcases page_rest runs operates with rfl | ⟨o', rfl⟩ | ⟨o', a, rfl⟩
        · cases known
        · cases known
        · cases read
  | answering =>
      rcases client_rest thread with rfl | ⟨o, rfl⟩ | ⟨o, a, rfl⟩
      · exact absurd rfl fits
      · rcases page_rest runs operates with rfl | ⟨o', rfl⟩ | ⟨o', a, rfl⟩
        · cases read
        · cases read
        · cases known
      · rcases page_rest runs operates with rfl | ⟨o', rfl⟩ | ⟨o', a, rfl⟩
        · cases read
        · cases read
        · cases read
          cases known
          refine ⟨fun awaited inside => ?_, _, rfl, o, a, rfl, rfl⟩
          simp only [waitsAfter, Which.other, List.mem_cons, List.not_mem_nil, or_false] at inside
          rcases inside with rfl | rfl | rfl <;> exact of_decide_eq_true rfl

theorem closed : Closed .local LocalOffer where
  start := @LocalOffer.mk .start .idle .idle rfl
  offers := by
    intro c p m at'
    obtain @⟨cs, ps, fits⟩ := at'
    cases fits
    exact @LocalOffer.mk .offering .creating ps (by simp [ClientOffers.Fits])
  answers := answers
  pcThread := by
    intro phase c p m generated c' at' runs
    obtain @⟨cs, ps, fits⟩ := at'
    obtain ⟨next, rfl, fits', less⟩ := thread fits runs
    exact ⟨_, .mk fits', by omega⟩
  hears := hears
  takes := fun at' _ => takes at'
  waiting := waiting
  operate := operate
  gathers := gathers
  hearsCandidates := hearsCandidates
  ordered := ordered
  sound := sound
  rest := rest

end LocalOffer

end GstWebrtc.Check
