import GstWebrtc.Base.Machine
import Mathlib.Logic.Function.Basic

/-!
# Monitors

A monitor is a state behind one lock with one condition.  A command runs under
the lock and notifies every sleeping thread.  A request is served under the
lock when the state allows it; the thread of a request that cannot be served
sleeps until it is notified, and looks again when it gets the lock.  A step is
one stay under the lock, so that the runs are the interleavings of any number
of threads.
-/

namespace GstWebrtc.Base

structure Monitor (Shared Command Request Answer : Type) where
  start : Shared
  perform : Command → Shared → Shared
  /-- The answer, and the state that serving the request leaves. -/
  serve : Request → Shared → Option (Answer × Shared)

namespace Monitor

variable {Thread Shared Command Request Answer : Type}

/-- Where a thread is with respect to the monitor. -/
inductive Place (Request : Type) where
  | outside
  | asleep (request : Request)
  | notified (request : Request)
  deriving DecidableEq

def Place.wake : Place Request → Place Request
  | .asleep request => .notified request
  | place => place

inductive Action (Thread Command Request : Type) where
  | perform (thread : Thread) (command : Command)
  | request (thread : Thread) (request : Request)
  | resume (thread : Thread)

/-- A request that was served, with the commands and the state it was served in. -/
structure Served (Thread Shared Command Request Answer : Type) where
  thread : Thread
  request : Request
  answer : Answer
  log : List Command
  before : Shared
  after : Shared

/-- The state, the threads, and what has happened so far. -/
structure World (Thread Shared Command Request Answer : Type) where
  shared : Shared
  place : Thread → Place Request
  log : List Command
  served : List (Served Thread Shared Command Request Answer)

section Steps

variable (m : Monitor Shared Command Request Answer)

/-- A command with its notification. -/
def performed (command : Command) (w : World Thread Shared Command Request Answer) :
    World Thread Shared Command Request Answer where
  shared := m.perform command w.shared
  place := fun thread => (w.place thread).wake
  log := w.log ++ [command]
  served := w.served

variable [DecidableEq Thread]

def answered (thread : Thread) (request : Request) (answer : Answer) (after : Shared)
    (w : World Thread Shared Command Request Answer) :
    World Thread Shared Command Request Answer where
  shared := after
  place := Function.update w.place thread .outside
  log := w.log
  served := w.served ++ [⟨thread, request, answer, w.log, w.shared, after⟩]

def slept (thread : Thread) (request : Request)
    (w : World Thread Shared Command Request Answer) :
    World Thread Shared Command Request Answer :=
  { w with place := Function.update w.place thread (.asleep request) }

/-- A thread with a request looks at the state. -/
def attempt (thread : Thread) (request : Request)
    (w : World Thread Shared Command Request Answer) :
    World Thread Shared Command Request Answer :=
  match m.serve request w.shared with
  | some (answer, after) => answered thread request answer after w
  | none => slept thread request w

/-- The thread that looks at the state in an action, and its request. -/
def World.looks (w : World Thread Shared Command Request Answer) :
    Action Thread Command Request → Option (Thread × Request)
  | .perform _ _ => none
  | .request thread request =>
      match w.place thread with
      | .outside => some (thread, request)
      | _ => none
  | .resume thread =>
      match w.place thread with
      | .notified request => some (thread, request)
      | _ => none

def step (w : World Thread Shared Command Request Answer) :
    Action Thread Command Request → Option (World Thread Shared Command Request Answer)
  | .perform thread command =>
      match w.place thread with
      | .outside => some (m.performed command w)
      | _ => none
  | action => (w.looks action).map fun (thread, request) => m.attempt thread request w

def machine : Machine (World Thread Shared Command Request Answer)
    (Action Thread Command Request) where
  init := ⟨m.start, fun _ => .outside, [], []⟩
  step := m.step

end Steps

variable [DecidableEq Thread] {m : Monitor Shared Command Request Answer}
variable {w w' : World Thread Shared Command Request Answer}
variable {action : Action Thread Command Request}
variable {allowed : World Thread Shared Command Request Answer →
  Action Thread Command Request → Prop}

/-- A step is a command, or a look at the state that serves a request or puts a thread to sleep. -/
theorem step_cases (fires : m.step w action = some w') :
    (∃ thread command, action = .perform thread command ∧ w' = m.performed command w) ∨
    (∃ thread request answer after, w.looks action = some (thread, request) ∧
      m.serve request w.shared = some (answer, after) ∧
      w' = answered thread request answer after w) ∨
    (∃ thread request, w.looks action = some (thread, request) ∧
      m.serve request w.shared = none ∧ w' = slept thread request w) := by
  have look (looked : (w.looks action).map (fun (thread, request) => m.attempt thread request w) =
      some w') :
      (∃ thread request answer after, w.looks action = some (thread, request) ∧
        m.serve request w.shared = some (answer, after) ∧
        w' = answered thread request answer after w) ∨
      (∃ thread request, w.looks action = some (thread, request) ∧
        m.serve request w.shared = none ∧ w' = slept thread request w) := by
    obtain ⟨⟨thread, request⟩, looks, made⟩ := Option.map_eq_some_iff.mp looked
    simp only [attempt] at made
    split at made
    · next answer after can => exact .inl ⟨thread, request, answer, after, looks, can, made.symm⟩
    · next cannot => exact .inr ⟨thread, request, looks, cannot, made.symm⟩
  cases action with
  | perform thread command =>
      rw [step] at fires
      split at fires
      · exact .inl ⟨thread, command, rfl, (Option.some.inj fires).symm⟩
      · cases fires
  | request thread request => exact .inr (look fires)
  | resume thread => exact .inr (look fires)

omit [DecidableEq Thread] in
@[simp] theorem performed_place (command : Command) (thread : Thread) :
    (m.performed command w).place thread = (w.place thread).wake := rfl

@[simp] theorem answered_place (thread : Thread) (request : Request) (answer : Answer)
    (after : Shared) : (answered thread request answer after w).place =
      Function.update w.place thread .outside := rfl

@[simp] theorem slept_place (thread : Thread) (request : Request) :
    (slept thread request w).place = Function.update w.place thread (.asleep request) := rfl

theorem Place.wake_ne_asleep (place : Place Request) (request : Request) :
    place.wake ≠ .asleep request := by
  cases place <;> simp [wake]

theorem looks_step {thread : Thread} {request : Request}
    (looks : w.looks action = some (thread, request)) :
    m.step w action = some (m.attempt thread request w) := by
  cases action with
  | perform _ _ => cases looks
  | request _ _ => simp only [step, looks, Option.map_some]
  | resume _ => simp only [step, looks, Option.map_some]

theorem step_of_serve {thread : Thread} {request : Request} {answer : Answer} {after : Shared}
    (looks : w.looks action = some (thread, request))
    (can : m.serve request w.shared = some (answer, after)) :
    m.step w action = some (answered thread request answer after w) := by
  rw [looks_step looks, attempt, can]

/-! ## The rules of a monitor -/

/-- What every stay under the lock keeps, of the commands so far and the state. -/
structure Kept (m : Monitor Shared Command Request Answer)
    (P : List Command → Shared → Prop) : Prop where
  start : P [] m.start
  perform : ∀ log shared command, P log shared → P (log ++ [command]) (m.perform command shared)
  serve : ∀ log shared request answer after, P log shared →
    m.serve request shared = some (answer, after) → P log after

variable {P : List Command → Shared → Prop}

theorem Kept.reachable (kept : m.Kept P) (run : m.machine.Reachable allowed w) :
    P w.log w.shared := by
  refine run.invariant (P := fun w => P w.log w.shared) kept.start ?_
  intro w action w' holds _ fires
  rcases step_cases fires with ⟨_, command, -, rfl⟩ | ⟨_, request, answer, after, -, can, rfl⟩ |
    ⟨_, _, -, -, rfl⟩
  · exact kept.perform _ _ command holds
  · exact kept.serve _ _ request answer after holds can
  · exact holds

/-- What is kept holds in every state in which a request was served. -/
theorem Kept.served (kept : m.Kept P) (run : m.machine.Reachable allowed w) :
    ∀ entry ∈ w.served, P entry.log entry.before ∧
      m.serve entry.request entry.before = some (entry.answer, entry.after) := by
  refine (run.invariant (P := fun w => P w.log w.shared ∧ ∀ entry ∈ w.served,
    P entry.log entry.before ∧
      m.serve entry.request entry.before = some (entry.answer, entry.after))
    ⟨kept.start, by simp [machine]⟩ ?_).2
  intro w action w' ⟨holds, all⟩ _ fires
  rcases step_cases fires with ⟨_, command, -, rfl⟩ | ⟨_, request, answer, after, -, can, rfl⟩ |
    ⟨_, _, -, -, rfl⟩
  · exact ⟨kept.perform _ _ command holds, all⟩
  · refine ⟨kept.serve _ _ request answer after holds can, ?_⟩
    intro entry inside
    rcases List.mem_append.mp inside with old | new
    · exact all entry old
    · cases List.mem_singleton.mp new
      exact ⟨holds, can⟩
  · exact ⟨holds, all⟩

theorem served_earlier (run : m.machine.Reachable allowed w) :
    ∀ entry ∈ w.served, entry.log <+: w.log := by
  refine run.invariant (P := fun w => ∀ entry ∈ w.served, entry.log <+: w.log)
    (by simp [machine]) ?_
  intro w action w' all _ fires
  rcases step_cases fires with ⟨_, command, -, rfl⟩ | ⟨_, _, _, _, -, -, rfl⟩ | ⟨_, _, -, -, rfl⟩
  · exact fun entry inside => (all entry inside).trans (List.prefix_append _ _)
  · intro entry inside
    rcases List.mem_append.mp inside with old | new
    · exact all entry old
    · cases List.mem_singleton.mp new
      exact List.prefix_rfl
  · exact all

/-- A rank that commands leave alone and serving does not lower, where `P` is kept. -/
structure Rising (m : Monitor Shared Command Request Answer)
    (P : List Command → Shared → Prop) (rank : List Command → Shared → Nat) : Prop where
  perform : ∀ log shared command, P log shared →
    rank (log ++ [command]) (m.perform command shared) = rank log shared
  serve : ∀ log shared request answer after, P log shared →
    m.serve request shared = some (answer, after) → rank log shared ≤ rank log after

/-- The ranks that the served requests left, in the order in which they were served. -/
def ranks (rank : List Command → Shared → Nat)
    (w : World Thread Shared Command Request Answer) : List Nat :=
  w.served.map fun entry => rank entry.log entry.after

theorem ranks_answered (rank : List Command → Shared → Nat) (thread : Thread)
    (request : Request) (answer : Answer) (after : Shared) :
    ranks rank (answered thread request answer after w) = ranks rank w ++ [rank w.log after] := by
  simp [ranks, answered]

/-- The ranks never go down, and the present one is the last that was left. -/
theorem Rising.sorted {rank : List Command → Shared → Nat} (rising : m.Rising P rank)
    (kept : m.Kept P) (run : m.machine.Reachable allowed w) :
    (ranks rank w).Pairwise (· ≤ ·) ∧ (∀ n ∈ ranks rank w, n ≤ rank w.log w.shared) ∧
      (ranks rank w).getLastD (rank [] m.start) = rank w.log w.shared := by
  refine (run.invariant (P := fun w => P w.log w.shared ∧ (ranks rank w).Pairwise (· ≤ ·) ∧
    (∀ n ∈ ranks rank w, n ≤ rank w.log w.shared) ∧
    (ranks rank w).getLastD (rank [] m.start) = rank w.log w.shared)
    ⟨kept.start, List.Pairwise.nil, by simp [ranks, machine], rfl⟩ ?_).2
  intro w action w' ⟨holds, sorted, below, last⟩ _ fires
  rcases step_cases fires with ⟨_, command, -, rfl⟩ | ⟨thread, request, answer, after, -, can, rfl⟩ |
    ⟨_, _, -, -, rfl⟩
  · have same : rank (w.log ++ [command]) (m.perform command w.shared) = rank w.log w.shared :=
      rising.perform _ _ command holds
    refine ⟨kept.perform _ _ command holds, sorted, fun n inside => ?_, last.trans same.symm⟩
    exact Nat.le_trans (below n inside) (Nat.le_of_eq same.symm)
  · have up : rank w.log w.shared ≤ rank w.log after :=
      rising.serve _ _ request answer after holds can
    have under : ∀ n ∈ ranks rank w, n ≤ rank w.log after :=
      fun n inside => Nat.le_trans (below n inside) up
    refine ⟨kept.serve _ _ request answer after holds can, ?_, ?_, ?_⟩ <;> rw [ranks_answered]
    · refine List.pairwise_append.mpr ⟨sorted, List.pairwise_singleton _ _, ?_⟩
      intro n inside final new
      rw [List.mem_singleton.mp new]
      exact under n inside
    · intro n inside
      rcases List.mem_append.mp inside with old | new
      · exact under n old
      · exact Nat.le_of_eq (List.mem_singleton.mp new)
    · exact List.getLastD_concat
  · exact ⟨holds, sorted, below, last⟩

/-- Serving one request never makes another one possible. -/
def Quiet (m : Monitor Shared Command Request Answer) : Prop :=
  ∀ shared request answer after other, m.serve request shared = some (answer, after) →
    m.serve other shared = none → m.serve other after = none

/-- No lost wakeup: a thread without a notification sleeps only on what cannot be served. -/
theorem Quiet.asleep (quiet : m.Quiet) (run : m.machine.Reachable allowed w) (thread : Thread)
    (request : Request) (sleeps : w.place thread = .asleep request) :
    m.serve request w.shared = none := by
  refine run.invariant (P := fun w => ∀ thread request, w.place thread = .asleep request →
    m.serve request w.shared = none) ?_ ?_ thread request sleeps
  · intro thread request sleeps
    cases sleeps
  intro w action w' all _ fires thread request sleeps
  rcases step_cases fires with ⟨_, command, -, rfl⟩ | ⟨served, _, answer, after, -, can, rfl⟩ |
    ⟨sleeper, asked, -, cannot, rfl⟩
  · -- nobody is still asleep after a notification
    exact absurd sleeps (Place.wake_ne_asleep _ _)
  · by_cases same : thread = served
    · rw [same, answered_place, Function.update_self] at sleeps
      cases sleeps
    · rw [answered_place, Function.update_of_ne same] at sleeps
      exact quiet _ _ _ _ _ can (all thread request sleeps)
  · by_cases same : thread = sleeper
    · rw [same, slept_place, Function.update_self] at sleeps
      cases sleeps
      exact cannot
    · rw [slept_place, Function.update_of_ne same] at sleeps
      exact all thread request sleeps

end Monitor

end GstWebrtc.Base
