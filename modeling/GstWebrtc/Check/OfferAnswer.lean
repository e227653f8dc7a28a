import GstWebrtc.Check.LocalOffer
import GstWebrtc.Check.RemoteOffer

/-!
# The waits that a negotiation needs

The scenario says of its waits that they are technically unnecessary and that
only the last is needed.  One before the answer is asked for is needed, and it is
enough.
-/

namespace GstWebrtc.Check

open GstWebrtc.Base GstWebrtc.Browser

/-- What a test has come to that does not fail. -/
structure Passes (initiator : Which) (count : Nat) (acts : List Test.Act) (w : Test) : Prop where
  /-- No action has returned an error, and the texts are still read. -/
  running : w.failed = false
  listening : w.stopped = false
  connected : w.page.connected = true
  /-- No operation is refused. -/
  client : w.webrtcbin.Sound
  page : ∀ pc, w.page.peerConnection = some pc → pc.Sound
  bounded : acts.length ≤ 23 + count + 2 * acts.countP Test.Act.gathers
  /-- It stops only when the ends have the same offer and answer and all waits have returned. -/
  completes : w.AtRest → w.script = [] ∧ ∃ pc, w.page.peerConnection = some pc ∧
    Negotiated initiator w.webrtcbin pc

/-- A test of the scenario passes whatever the order of its steps. -/
def AlwaysPasses (initiator : Which) (before after : List (Which × NegotiationState))
    (title : Text) (options : List (Text × Json)) : Prop :=
  ∀ acts w, (∀ act ∈ acts, act.Usual) →
    (test (offerAnswer initiator before after) title options).exec
      (test (offerAnswer initiator before after) title options).init acts = some w →
    Passes initiator (before.length + after.length) acts w

section

variable {initiator : Which} {before after : List (Which × NegotiationState)} {title : Text}
  {options : List (Text × Json)}

theorem passes {At : Phase → ClientView → PageView → Nat → Prop} (closed : Closed initiator At)
    (enough : ∃ awaited ∈ before, Key initiator awaited)
    (some_before : before.Sublist (waitsBefore initiator))
    (some_after : after.Sublist (waitsAfter initiator)) :
    AlwaysPasses initiator before after title options := by
  intro acts w usual done
  obtain ⟨m, goes, counts⟩ :=
    Goes.run closed enough acts usual (.start closed some_before some_after title options) done
  have completes := goes.rest closed some_before some_after
  obtain ⟨ends, at', -, -⟩ := goes
  obtain ⟨client, page⟩ := closed.sound at'
  exact ⟨ends.running, ends.listening, ends.connected, ends.webrtcbin ▸ client,
    ends.peerConnection ▸ page, by omega, completes⟩

/-- A run after which the page is asked for an answer that it has no offer for. -/
theorem page_fails (acts : List Test.Act) {w : Test} (usual : ∀ act ∈ acts, act.Usual)
    (done : (test (offerAnswer initiator before after) title options).exec
      (test (offerAnswer initiator before after) title options).init acts = some w)
    (refused : w.page.peerConnection = some ⟨.stable, none, none, [.createAnswer]⟩) :
    ¬ AlwaysPasses initiator before after title options := by
  intro always
  exact (always acts w usual done).page _ refused [] _ _ _ rfl rfl

/-- A run after which the client is. -/
theorem client_fails (acts : List Test.Act) {w : Test} (usual : ∀ act ∈ acts, act.Usual)
    (done : (test (offerAnswer initiator before after) title options).exec
      (test (offerAnswer initiator before after) title options).init acts = some w)
    (refused : w.webrtcbin = ⟨.stable, none, none, [.createAnswer]⟩) :
    ¬ AlwaysPasses initiator before after title options := by
  intro always
  have sound := (always acts w usual done).client
  rw [refused] at sound
  exact sound [] _ _ _ rfl rfl

/-- The page is asked for an answer before the offer has been sent. -/
theorem local_fails (some_before : before.Sublist [(.local, .offerCreated)]) :
    ¬ AlwaysPasses .local before after title options := by
  simp only [List.sublist_cons_iff, List.sublist_nil] at some_before
  rcases some_before with rfl | ⟨_, rfl, rfl⟩
  · exact page_fails [.scenario, .scenario, .pageReceives, .pageReceives, .pageReceives,
      .stream true, .waiting] (by simp [Test.Act.Usual]) rfl rfl
  · exact page_fails [.scenario, .pcThread [], .pcThread [], .scenario, .scenario,
      .pageReceives, .pageReceives, .pageReceives, .stream true, .waiting]
      (by simp [Test.Act.Usual]) rfl rfl

/-- The client is asked for an answer before it has the offer. -/
theorem remote_fails
    (some_before : before.Sublist [(.remote, .offerCreated), (.remote, .offerSet)]) :
    ¬ AlwaysPasses .remote before after title options := by
  simp only [List.sublist_cons_iff, List.sublist_nil] at some_before
  rcases some_before with (rfl | ⟨_, rfl, rfl⟩) | ⟨_, rfl, rfl | ⟨_, rfl, rfl⟩⟩
  · exact client_fails [.scenario, .scenario] (by simp [Test.Act.Usual]) rfl rfl
  · exact client_fails [.scenario, .pageReceives, .pageReceives, .pageReceives, .stream true,
      .waiting, .operation [], .operation [], .asyncio, .asyncio, .scenario, .scenario]
      (by simp [Test.Act.Usual]) rfl rfl
  · exact client_fails [.scenario, .pageReceives, .pageReceives, .pageReceives, .stream true,
      .waiting, .operation [], .asyncio, .scenario, .scenario]
      (by simp [Test.Act.Usual]) rfl rfl
  · exact client_fails [.scenario, .pageReceives, .pageReceives, .pageReceives, .stream true,
      .waiting, .operation [], .operation [], .asyncio, .asyncio, .scenario, .scenario, .scenario]
      (by simp [Test.Act.Usual]) rfl rfl

end

/-- Without one of its members a list is a part of what is left of the whole. -/
theorem sublist_without {α : Type} [DecidableEq α] {part whole : List α} {x : α}
    (sublist : part.Sublist whole) (absent : x ∉ part) :
    part.Sublist (whole.filter fun y => y ≠ x) := by
  have same : part.filter (fun y => y ≠ x) = part :=
    List.filter_eq_self.mpr fun y inside => by
      rw [decide_eq_true_eq]
      rintro rfl
      exact absent inside
  exact same ▸ sublist.filter _

/-- A negotiation cannot fail exactly if the answer is asked for only when the other end has set
the offer, or when the client has set its own. -/
theorem offer_answer_iff (initiator : Which) {before after : List (Which × NegotiationState)}
    (some_before : before.Sublist (waitsBefore initiator))
    (some_after : after.Sublist (waitsAfter initiator)) (title : Text)
    (options : List (Text × Json)) :
    AlwaysPasses initiator before after title options ↔
      (initiator.other, .offerSet) ∈ before ∨ initiator = .local ∧ (.local, .offerSet) ∈ before := by
  constructor
  · intro always
    by_contra neither
    obtain ⟨other, own⟩ := not_or.mp neither
    cases initiator with
    | «local» =>
        refine local_fails ?_ always
        exact sublist_without (sublist_without some_before other) fun set => own ⟨rfl, set⟩
    | remote => exact remote_fails (sublist_without some_before other) always
  · intro waits
    have enough : ∃ awaited ∈ before, Key initiator awaited := by
      rcases waits with other | ⟨rfl, own⟩
      · exact ⟨_, other, Or.inl rfl⟩
      · exact ⟨_, own, Or.inr ⟨rfl, rfl⟩⟩
    cases initiator with
    | «local» => exact passes LocalOffer.closed enough some_before some_after
    | remote => exact passes RemoteOffer.closed enough some_before some_after

/-- The one wait of the other scenarios is enough, and the others of the initiator are not. -/
theorem offer_answer_iff_initiators :
    AlwaysPasses .local [(.remote, .offerSet)] [(.local, .answerSet)] "title".toList [] ∧
      ¬ AlwaysPasses .remote [(.remote, .offerCreated), (.remote, .offerSet)]
        [(.remote, .answerSet)] "title".toList [] :=
  ⟨(offer_answer_iff .local (by decide) (by decide) _ _).mpr (by decide), fun always =>
    absurd ((offer_answer_iff .remote (by decide) (by decide) _ _).mp always) (by decide)⟩

end GstWebrtc.Check
