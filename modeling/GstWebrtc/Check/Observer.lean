import GstWebrtc.Base.Monitor
import Mathlib.Data.List.Infix

/-!
# The state observers of the validate client

A `StateObserver` keeps the values that were passed to `update` until a wait
has gone past them.  `wait_for` returns the first kept value that is in
`states` and forgets the ones before it; without such a value it sleeps on the
condition.
-/

namespace GstWebrtc.Check

open GstWebrtc.Base GstWebrtc.Base.Monitor

variable {State Wanted : Type}

structure StateObserver (State : Type) where
  /-- The attribute `attr_name` of the target. -/
  targetAttr : Option State
  previousStates : List State

/-- The loop over `enumerate(self.previous_states)`, from the position `i` on. -/
def scan (wanted : State → Bool) : Nat → List State → Option (Nat × State)
  | _, [] => none
  | i, s :: rest => if wanted s then some (i, s) else scan wanted (i + 1) rest

namespace StateObserver

def update (newState : State) (self : StateObserver State) : StateObserver State where
  targetAttr := some newState
  previousStates := self.previousStates ++ [newState]

/-- One pass of the loop of `wait_for`: without a result the caller waits on the condition. -/
def waitFor (wanted : State → Bool) (self : StateObserver State) :
    Option (State × StateObserver State) :=
  match scan wanted 0 self.previousStates with
  | some (i, s) => some (s, { self with previousStates := self.previousStates.drop i })
  | none => none

end StateObserver

/-- `update` and `wait_for` under the lock of the condition; `contains` is `s in states`. -/
def observer (contains : Wanted → State → Bool) (initial : Option State) :
    Monitor (StateObserver State) State Wanted State where
  start := ⟨initial, []⟩
  perform := StateObserver.update
  serve := fun states => StateObserver.waitFor (contains states)

/-! ## What a pass finds -/

theorem scan_eq_some_iff {wanted : State → Bool} {i j : Nat} {l : List State} {s : State} :
    scan wanted i l = some (j, s) ↔ ∃ passed rest, l = passed ++ s :: rest ∧
      j = i + passed.length ∧ wanted s = true ∧ ∀ x ∈ passed, wanted x = false := by
  induction l generalizing i with
  | nil => simp [scan]
  | cons x l ih =>
      rw [scan]
      split
      · next here =>
          constructor
          · intro found
            cases found
            exact ⟨[], l, rfl, rfl, here, by simp⟩
          · rintro ⟨passed, rest, split, rfl, found, before⟩
            cases passed with
            | nil =>
                cases split
                rfl
            | cons y passed =>
                cases split
                rw [before x List.mem_cons_self] at here
                cases here
      · next other =>
          rw [ih]
          constructor
          · rintro ⟨passed, rest, rfl, rfl, found, before⟩
            refine ⟨x :: passed, rest, rfl, by simp only [List.length_cons]; omega, found, ?_⟩
            exact List.forall_mem_cons.mpr ⟨Bool.eq_false_iff.mpr other, before⟩
          · rintro ⟨passed, rest, split, rfl, found, before⟩
            cases passed with
            | nil =>
                cases split
                exact absurd found other
            | cons y passed =>
                cases split
                exact ⟨passed, rest, rfl, by simp only [List.length_cons]; omega, found,
                  (List.forall_mem_cons.mp before).2⟩

theorem scan_eq_none_iff {wanted : State → Bool} {i : Nat} {l : List State} :
    scan wanted i l = none ↔ ∀ x ∈ l, wanted x = false := by
  induction l generalizing i with
  | nil => simp [scan]
  | cons x l ih =>
      rw [scan, List.forall_mem_cons, ← ih]
      split
      · next here => simp [here]
      · next other => exact (and_iff_right (Bool.eq_false_iff.mpr other)).symm

namespace StateObserver

variable {wanted : State → Bool} {s : State} {self after : StateObserver State}

/-- A pass returns the first kept value that is wanted and makes it the first one kept. -/
theorem waitFor_eq_some (found : self.waitFor wanted = some (s, after)) :
    ∃ passed rest, self.previousStates = passed ++ s :: rest ∧
      after.previousStates = s :: rest ∧ wanted s = true ∧ ∀ x ∈ passed, wanted x = false := by
  rw [waitFor] at found
  split at found
  · next i s' scanned =>
      obtain ⟨rfl, rfl⟩ := Prod.mk.inj (Option.some.inj found)
      obtain ⟨passed, rest, split, rfl, here, before⟩ := scan_eq_some_iff.mp scanned
      refine ⟨passed, rest, split, ?_, here, before⟩
      rw [split, Nat.zero_add, List.drop_left]
  · cases found

theorem waitFor_eq_none_iff :
    self.waitFor wanted = none ↔ ∀ x ∈ self.previousStates, wanted x = false := by
  rw [← scan_eq_none_iff (i := 0), waitFor]
  split
  · next scanned => simp [scanned]
  · next scanned => simp [scanned]

end StateObserver

/-! ## Monitors with a state observer inside -/

variable {Shared Command Thread : Type}

/-- A monitor whose stays under the lock are those of a state observer in its state. -/
structure Carries (m : Monitor Shared Command Wanted State) (contains : Wanted → State → Bool)
    (value : Command → State) (inner : Shared → StateObserver State) : Prop where
  start : (inner m.start).previousStates = []
  perform : ∀ command shared,
    inner (m.perform command shared) = (inner shared).update (value command)
  serve : ∀ states shared, (m.serve states shared).map (fun found => (found.1, inner found.2)) =
    (inner shared).waitFor (contains states)

theorem observer_carries (contains : Wanted → State → Bool) (initial : Option State) :
    Carries (observer contains initial) contains id id where
  start := rfl
  perform _ _ := rfl
  serve _ _ := Option.map_id'

/-- The position in the log of the first value that is still kept. -/
def position (inner : Shared → StateObserver State) (log : List Command) (shared : Shared) : Nat :=
  log.length - (inner shared).previousStates.length

/-- The log positions that the waits have returned, in the order in which they returned. -/
def positions (inner : Shared → StateObserver State)
    (w : World Thread Shared Command Wanted State) : List Nat :=
  ranks (position inner) w

/-- The log position that was returned last. -/
def mark (inner : Shared → StateObserver State)
    (w : World Thread Shared Command Wanted State) : Nat :=
  (positions inner w).getLastD 0

namespace Carries

variable {m : Monitor Shared Command Wanted State} {contains : Wanted → State → Bool}
variable {value : Command → State} {inner : Shared → StateObserver State}

theorem serve_eq_some (carries : Carries m contains value inner) {states : Wanted}
    {shared after : Shared} {s : State} (can : m.serve states shared = some (s, after)) :
    ∃ passed rest, (inner shared).previousStates = passed ++ s :: rest ∧
      (inner after).previousStates = s :: rest ∧ contains states s = true ∧
      ∀ x ∈ passed, contains states x = false := by
  have found := carries.serve states shared
  rw [can] at found
  exact StateObserver.waitFor_eq_some found.symm

theorem serve_eq_none_iff (carries : Carries m contains value inner) {states : Wanted}
    {shared : Shared} : m.serve states shared = none ↔
      ∀ x ∈ (inner shared).previousStates, contains states x = false := by
  rw [← StateObserver.waitFor_eq_none_iff, ← carries.serve, Option.map_eq_none_iff]

/-- The kept values are the last ones of the log. -/
theorem kept (carries : Carries m contains value inner) :
    m.Kept fun log shared => (inner shared).previousStates <:+ log.map value where
  start := by
    rw [carries.start]
    exact List.nil_suffix
  perform log shared command := by
    rintro ⟨gone, whole⟩
    refine ⟨gone, ?_⟩
    rw [carries.perform, StateObserver.update, List.map_append, ← whole, List.append_assoc]
    rfl
  serve log shared states s after := by
    rintro ⟨gone, whole⟩ can
    obtain ⟨passed, rest, kept, left, -, -⟩ := carries.serve_eq_some can
    refine ⟨gone ++ passed, ?_⟩
    rw [left, ← whole, kept, List.append_assoc]

theorem rising (carries : Carries m contains value inner) :
    m.Rising (fun log shared => (inner shared).previousStates <:+ log.map value)
      (position inner) where
  perform log shared command _ := by
    simp only [position, carries.perform, StateObserver.update, List.length_append,
      List.length_singleton, Nat.add_sub_add_right]
  serve log shared states s after _ can := by
    obtain ⟨passed, rest, kept, left, -, -⟩ := carries.serve_eq_some can
    rw [position, position, left, kept, List.length_append]
    omega

/-- A wait that returns only drops values. -/
theorem quiet (carries : Carries m contains value inner) : m.Quiet := by
  intro shared states s after other can cannot
  obtain ⟨passed, rest, kept, left, -, -⟩ := carries.serve_eq_some can
  rw [carries.serve_eq_none_iff] at cannot ⊢
  intro x inside
  refine cannot x ?_
  rw [kept]
  exact List.mem_append_right _ (left ▸ inside)

variable [DecidableEq Thread] {w : World Thread Shared Command Wanted State}
variable {allowed : World Thread Shared Command Wanted State →
  Monitor.Action Thread Command Wanted → Prop}

/-- What is kept is the log from the position that was returned last. -/
theorem kept_eq_drop (carries : Carries m contains value inner)
    (run : m.machine.Reachable allowed w) :
    (inner w.shared).previousStates = (w.log.map value).drop (mark inner w) := by
  have suffix : (inner w.shared).previousStates <:+ w.log.map value := carries.kept.reachable run
  obtain ⟨-, -, last⟩ := carries.rising.sorted carries.kept run
  have initially : position inner ([] : List Command) m.start = 0 := Nat.zero_sub _
  rw [initially] at last
  rw [mark, positions, last, position, ← List.length_map value]
  exact List.suffix_iff_eq_drop.mp suffix

/-- The value that a wait returned stands in the log at the position it returned. -/
theorem answer_at (carries : Carries m contains value inner)
    (run : m.machine.Reachable allowed w) :
    ∀ entry ∈ w.served,
      (w.log.map value)[position inner entry.log entry.after]? = some entry.answer := by
  intro entry inside
  obtain ⟨⟨gone, whole⟩, can⟩ := carries.kept.served run entry inside
  obtain ⟨passed, rest, kept, left, -, -⟩ := carries.serve_eq_some can
  obtain ⟨later, grown⟩ := served_earlier run entry inside
  have length : entry.log.length = (gone ++ passed).length + (entry.answer :: rest).length := by
    rw [← List.length_map value, ← whole, kept]
    simp only [List.length_append, List.length_cons]
    omega
  have at_start : position inner entry.log entry.after = (gone ++ passed).length := by
    rw [position, left, length, Nat.add_sub_cancel]
  have parts : w.log.map value =
      (gone ++ passed) ++ entry.answer :: (rest ++ later.map value) := by
    rw [← grown, List.map_append, ← whole, kept]
    simp only [List.append_assoc, List.cons_append]
  rw [at_start, parts]
  rw [List.getElem?_append_right (Nat.le_refl _), Nat.sub_self, List.getElem?_cons_zero]

end Carries

/-! ## A list of states -/

section Lists

variable [DecidableEq State] [DecidableEq Thread]

/-- `s in states` for a list. -/
def inList (states : List State) (s : State) : Bool := decide (s ∈ states)

/-- Nothing that was passed to `update` is lost to a later wait. -/
structure LosesNothing (initial : Option State)
    (w : World Thread (StateObserver State) State (List State) State) : Prop where
  suffix : w.shared.previousStates <:+ w.log
  /-- A wait returned the first kept value in its list, and that value became the first kept one. -/
  returned : ∀ entry ∈ w.served, entry.before.previousStates <:+ entry.log ∧
    ∃ passed rest, entry.before.previousStates = passed ++ entry.answer :: rest ∧
      entry.after.previousStates = entry.answer :: rest ∧ entry.answer ∈ entry.request ∧
      ∀ s ∈ passed, s ∉ entry.request
  forward : (positions id w).Pairwise (· ≤ ·)
  located : ∀ entry ∈ w.served, w.log[position id entry.log entry.after]? = some entry.answer
  /-- A wait for a state that was logged since the position returned last returns at once. -/
  found : ∀ action thread states, w.looks action = some (thread, states) →
    (∃ s ∈ w.log.drop (mark id w), s ∈ states) →
    ∃ s after, (observer inList initial).step w action = some (answered thread states s after w)
  awake : ∀ thread states, w.place thread = .asleep states →
    ∀ s ∈ w.shared.previousStates, s ∉ states

/-- `update` and `wait_for` lose nothing and never go back, whatever the threads do. -/
theorem state_observer_loses_nothing {initial : Option State}
    {w : World Thread (StateObserver State) State (List State) State}
    (run : (observer inList initial).machine.Reachable Machine.anyAction w) :
    LosesNothing initial w := by
  have carries : Carries (observer inList initial) inList id id :=
    observer_carries inList initial
  have absent : ∀ (states : List State) (l : List State),
      (∀ x ∈ l, inList states x = false) ↔ ∀ x ∈ l, x ∉ states := by
    simp [inList]
  refine ⟨?_, ?_, (carries.rising.sorted carries.kept run).1, ?_, ?_, ?_⟩
  · simpa using carries.kept.reachable run
  · intro entry inside
    obtain ⟨suffix, can⟩ := carries.kept.served run entry inside
    obtain ⟨passed, rest, kept, left, here, before⟩ := carries.serve_eq_some can
    exact ⟨by simpa using suffix, passed, rest, kept, left, of_decide_eq_true here,
      (absent _ _).mp before⟩
  · intro entry inside
    simpa using carries.answer_at run entry inside
  · intro action thread states looks ⟨s, logged, wanted⟩
    have kept : w.shared.previousStates = w.log.drop (mark id w) := by
      simpa using carries.kept_eq_drop run
    cases can : (observer inList initial).serve states w.shared with
    | none =>
        rw [carries.serve_eq_none_iff, absent] at can
        exact absurd wanted (can s (kept ▸ logged))
    | some found =>
        obtain ⟨answer, after⟩ := found
        exact ⟨answer, after, step_of_serve looks can⟩
  · intro thread states sleeps
    have cannot := carries.quiet.asleep run thread states sleeps
    rwa [carries.serve_eq_none_iff, absent] at cannot

/-- A first thread waits for the state 2, which a second thread sets and leaves again at once. -/
theorem state_observer_loses_nothing_passing :
    ∃ w : World Bool (StateObserver Nat) Nat (List Nat) Nat,
      w.served.map Served.answer = [2] ∧ w.log = [1, 2, 3] ∧ LosesNothing (some 0) w := by
  obtain ⟨w, run, passes⟩ := Machine.exists_reachable_of_exec
    (m := (observer inList (some 0)).machine)
    [.request true [2], .perform false 1, .resume true, .perform false 2, .perform false 3,
      .resume true]
    (fun w => w.served.map Served.answer == [2] && w.log == [1, 2, 3]) (by decide)
  rw [Bool.and_eq_true, beq_iff_eq, beq_iff_eq] at passes
  exact ⟨w, passes.1, passes.2, state_observer_loses_nothing run⟩

end Lists

end GstWebrtc.Check
