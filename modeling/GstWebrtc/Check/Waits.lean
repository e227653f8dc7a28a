import GstWebrtc.Check.Scenario
import Mathlib.Data.List.Sublists

/-!
# The waits of a scenario

A wait forgets the states before the one that it returns.  While the waits that
are left go through the states in their order, none of them is for a state that
has been forgotten.
-/

namespace GstWebrtc.Check

open GstWebrtc.Base

namespace NegotiationState

/-- The states of a negotiation, in which an error is none. -/
def order : List NegotiationState := [.offerCreated, .offerSet, .answerCreated, .answerSet]

def rank : NegotiationState → Nat
  | new | error => 0
  | offerCreated => 1
  | offerSet => 2
  | answerCreated => 3
  | answerSet => 4

variable {states : List NegotiationState}

theorem rank_of_order (ordered : states.Sublist order) :
    states.Pairwise fun s t => s.rank < t.rank :=
  List.Pairwise.sublist ordered (by decide)

theorem not_error (ordered : states.Sublist order) : .error ∉ states :=
  fun inside => absurd (ordered.subset inside) (by decide)

end NegotiationState

/-- The state that an action waits for at one of the ends. -/
def awaits (which : Which) : Action → Option NegotiationState
  | .waitForNegotiationState at' state => if at' = which then some state else none
  | _ => none

/-- The states that are waited for at one of the ends. -/
def waits (which : Which) (script : List Action) : List NegotiationState :=
  script.filterMap (awaits which)

theorem waits_wait (which : Which) (awaited : Which × NegotiationState) (rest : List Action) :
    waits which (wait awaited :: rest) =
      if awaited.1 = which then awaited.2 :: waits which rest else waits which rest := by
  rw [waits, List.filterMap_cons, wait, awaits]
  split <;> split <;> simp_all [waits]

theorem waits_tail (which : Which) (action : Action) (rest : List Action) :
    (waits which rest).Sublist (waits which (action :: rest)) :=
  (List.sublist_cons_self action rest).filterMap _

/-- The waits at each end are for states in their order. -/
theorem waits_offerAnswer {initiator : Which} {before after : List (Which × NegotiationState)}
    (some_before : before.Sublist (waitsBefore initiator))
    (some_after : after.Sublist (waitsAfter initiator)) (which : Which) :
    (waits which (offerAnswer initiator before after)).Sublist NegotiationState.order := by
  have all : (waits which (offerAnswer initiator (waitsBefore initiator)
      (waitsAfter initiator))).Sublist NegotiationState.order := by
    cases initiator <;> cases which <;> decide
  have fewer : (offerAnswer initiator before after).Sublist
      (offerAnswer initiator (waitsBefore initiator) (waitsAfter initiator)) :=
    ((some_before.map wait).append ((some_after.map wait).cons_cons _)).cons_cons _
  exact (fewer.filterMap _).trans all

/-! ## What is kept for the waits that are left -/

/-- The states that are gone from the observer come before all that are still waited for. -/
def Watches (observer : StateObserver NegotiationState) (history left : List NegotiationState) :
    Prop :=
  ∃ gone, history = gone ++ observer.previousStates ∧
    ∀ s ∈ gone, ∀ t ∈ left, s.rank < t.rank

namespace Watches

variable {observer after : StateObserver NegotiationState} {s found : NegotiationState}
  {history left less : List NegotiationState}

theorem new (initial : Option NegotiationState) (left : List NegotiationState) :
    Watches ⟨initial, []⟩ [] left := ⟨[], rfl, by simp⟩

theorem update (watches : Watches observer history left) (s : NegotiationState) :
    Watches (observer.update s) (history ++ [s]) left := by
  obtain ⟨gone, whole, before⟩ := watches
  exact ⟨gone, by rw [whole, List.append_assoc, StateObserver.update], before⟩

/-- The state that has come, if any. -/
theorem observe {come : Option NegotiationState} (watches : Watches observer history left)
    (observes : after = come.elim observer fun s => observer.update s) :
    Watches after (history ++ come.toList) left := by
  subst observes
  cases come with
  | none => rwa [Option.toList_none, List.append_nil]
  | some s => exact watches.update s

theorem fewer (watches : Watches observer history left) (sublist : less.Sublist left) :
    Watches observer history less := by
  obtain ⟨gone, whole, before⟩ := watches
  exact ⟨gone, whole, fun s inside t awaited => before s inside t (sublist.subset awaited)⟩

/-- A wait returns its state and no error. -/
theorem pass (watches : Watches observer history (s :: left))
    (ordered : history.Sublist NegotiationState.order)
    (awaited : (s :: left).Sublist NegotiationState.order)
    (returns : observer.waitFor (Test.awaited s) = some (found, after)) :
    found = s ∧ s ∈ history ∧ Watches after history left := by
  obtain ⟨gone, whole, before⟩ := watches
  obtain ⟨passed, rest, kept, left', here, -⟩ := StateObserver.waitFor_eq_some returns
  have split : history = (gone ++ passed) ++ found :: rest := by
    rw [whole, kept, List.append_assoc]
  have inside : found ∈ history := by
    rw [split]
    exact List.mem_append_right _ List.mem_cons_self
  have same : found = s := by
    rw [Test.awaited, Bool.or_eq_true, decide_eq_true_eq, decide_eq_true_eq] at here
    refine here.resolve_right fun error => ?_
    exact NegotiationState.not_error ordered (error ▸ inside)
  subst same
  refine ⟨rfl, inside, gone ++ passed, by rw [left', split], fun x earlier t later => ?_⟩
  have sorted := NegotiationState.rank_of_order ordered
  rw [split] at sorted
  have first := (List.pairwise_append.mp sorted).2.2 x earlier found List.mem_cons_self
  exact first.trans
    ((List.pairwise_cons.mp (NegotiationState.rank_of_order awaited)).1 t later)

/-- A wait for a state that has come returns. -/
theorem returns (watches : Watches observer history (s :: left)) (come : s ∈ history) :
    observer.waitFor (Test.awaited s) ≠ none := by
  obtain ⟨gone, whole, before⟩ := watches
  rw [Ne, StateObserver.waitFor_eq_none_iff]
  intro none
  rw [whole, List.mem_append] at come
  rcases come with lost | kept
  · exact Nat.lt_irrefl _ (before s lost s List.mem_cons_self)
  · exact absurd (none s kept) (by simp [Test.awaited])

end Watches

end GstWebrtc.Check
