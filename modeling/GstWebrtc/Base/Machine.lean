import Mathlib.Logic.Relation

/-!
# Machines and their restricted runs

A machine steps by an executable partial function.  A run is restricted by a
relation between the state before a step and the action taken, so that a
result can be stated for exactly those runs that avoid a named branch.
-/

namespace GstWebrtc.Base

/-- An executable transition system: an action without a successor is not enabled. -/
structure Machine (State Action : Type) where
  init : State
  step : State → Action → Option State

namespace Machine

variable {State Action : Type} (m : Machine State Action)

/-- Runs from `start` of which every step satisfies `allowed`. -/
inductive Run (allowed : State → Action → Prop) (start : State) : State → Prop where
  | refl : Run allowed start start
  | step {state next : State} {action : Action} (before : Run allowed start state)
      (permitted : allowed state action) (fires : m.step state action = some next) :
      Run allowed start next

/-- The states of the restricted runs that begin in the initial state. -/
def Reachable (allowed : State → Action → Prop) : State → Prop :=
  m.Run allowed m.init

/-- The unrestricted runs. -/
def anyAction : State → Action → Prop := fun _ _ => True

variable {m}
variable {allowed weaker : State → Action → Prop} {start middle last : State}

/-- What holds at the start and survives every permitted step holds along the run. -/
theorem Run.invariant {P : State → Prop} (run : m.Run allowed start last)
    (holds : P start)
    (preserved : ∀ state action next, P state → allowed state action →
      m.step state action = some next → P next) :
    P last := by
  induction run with
  | refl => exact holds
  | step before permitted fires ih => exact preserved _ _ _ ih permitted fires

theorem Reachable.invariant {P : State → Prop} (run : m.Reachable allowed last)
    (holds : P m.init)
    (preserved : ∀ state action next, P state → allowed state action →
      m.step state action = some next → P next) :
    P last :=
  Run.invariant run holds preserved

theorem Run.mono (run : m.Run allowed start last)
    (weaken : ∀ state action, allowed state action → weaker state action) :
    m.Run weaker start last := by
  induction run with
  | refl => exact .refl
  | step before permitted fires ih => exact .step ih (weaken _ _ permitted) fires

theorem Run.trans (first : m.Run allowed start middle) (second : m.Run allowed middle last) :
    m.Run allowed start last := by
  induction second with
  | refl => exact first
  | step before permitted fires ih => exact .step ih permitted fires

theorem Run.single {action : Action} (permitted : allowed start action)
    (fires : m.step start action = some last) : m.Run allowed start last :=
  .step .refl permitted fires

/-- One more action at the end of a run. -/
theorem Reachable.act (run : m.Reachable allowed start) (action : Action)
    (permitted : allowed start action) (fires : m.step start action = some last) :
    m.Reachable allowed last :=
  .step run permitted fires

variable (m)

/-- Perform a list of actions, failing at the first one that is not enabled. -/
def exec : State → List Action → Option State
  | state, [] => some state
  | state, action :: rest => (m.step state action).bind fun next => exec next rest

variable {m}

/-- Actions that are permitted in every state can be performed in a restricted run. -/
theorem run_of_exec (actions : List Action)
    (permitted : ∀ action ∈ actions, ∀ state, allowed state action)
    (done : m.exec start actions = some last) : m.Run allowed start last := by
  induction actions generalizing start with
  | nil =>
      cases done
      exact .refl
  | cons action rest ih =>
      simp only [exec, Option.bind_eq_some_iff] at done
      obtain ⟨next, fires, tail⟩ := done
      have first : m.Run allowed start next :=
        .single (permitted action List.mem_cons_self start) fires
      exact first.trans (ih (fun a ha => permitted a (List.mem_cons_of_mem _ ha)) tail)

/-- A list of actions that can be performed leads to a reachable state. -/
theorem exists_reachable_of_exec (actions : List Action) (test : State → Bool)
    (passes : (m.exec m.init actions).any test = true) :
    ∃ state, m.Reachable anyAction state ∧ test state = true := by
  cases done : m.exec m.init actions with
  | none => simp [done] at passes
  | some state =>
      have run : m.Reachable anyAction state := run_of_exec actions (fun _ _ _ => True.intro) done
      exact ⟨state, run, by simpa [done] using passes⟩

theorem exec_append (first second : List Action) :
    m.exec start (first ++ second) = (m.exec start first).bind fun state => m.exec state second := by
  induction first generalizing start with
  | nil => rfl
  | cons action rest ih =>
      rw [List.cons_append, exec, exec]
      cases m.step start action with
      | none => rfl
      | some next => exact ih

/-- Every action is permitted in the state in which it is performed. -/
def Along (m : Machine State Action) (allowed : State → Action → Prop) :
    State → List Action → Prop
  | _, [] => True
  | state, action :: rest =>
      allowed state action ∧ ∀ next, m.step state action = some next → Along m allowed next rest

/-- What a step keeps exactly when it is permitted, a run keeps exactly when all its steps are. -/
theorem iff_along {P : State → Prop} (known : State → Prop)
    (preserved : ∀ state action next, known state → m.step state action = some next → known next)
    (exactly : ∀ state action next, known state → m.step state action = some next →
      (P next ↔ P state ∧ allowed state action))
    (actions : List Action) (holds : known start) (done : m.exec start actions = some last) :
    P last ↔ P start ∧ Along m allowed start actions := by
  induction actions generalizing start with
  | nil =>
      cases done
      exact (and_iff_left True.intro).symm
  | cons action rest ih =>
      obtain ⟨next, fires, tail⟩ := Option.bind_eq_some_iff.mp done
      rw [ih (preserved _ _ _ holds fires) tail, exactly _ _ _ holds fires, and_assoc, Along]
      refine and_congr_right fun _ => and_congr_right fun _ => ⟨?_, fun along => along next fires⟩
      intro along next' fires'
      cases fires.symm.trans fires'
      exact along

/-- The property holds before the first action and after each one. -/
def Throughout (m : Machine State Action) (P : State → Prop) : State → List Action → Prop
  | state, [] => P state
  | state, action :: rest =>
      P state ∧ ∀ next, m.step state action = some next → Throughout m P next rest

theorem Throughout.head {P : State → Prop} {actions : List Action}
    (throughout : m.Throughout P start actions) : P start := by
  cases actions with
  | nil => exact throughout
  | cons action rest => exact throughout.1

/-- What a step keeps exactly when it is permitted holds throughout exactly the permitted runs. -/
theorem throughout_iff_along {P : State → Prop} (known : State → Prop)
    (preserved : ∀ state action next, known state → m.step state action = some next → known next)
    (exactly : ∀ state action next, known state → P state → m.step state action = some next →
      (P next ↔ allowed state action))
    (disabled : ∀ state action, m.step state action = none → allowed state action)
    (actions : List Action) (holds : known start) (good : P start) :
    m.Throughout P start actions ↔ m.Along allowed start actions := by
  induction actions generalizing start with
  | nil => exact iff_of_true good True.intro
  | cons action rest ih =>
      cases fires : m.step start action with
      | none =>
          simp only [Throughout, Along, fires]
          exact iff_of_true ⟨good, fun _ none => by cases none⟩
            ⟨disabled _ _ fires, fun _ none => by cases none⟩
      | some next =>
          have now : P next ↔ allowed start action := exactly _ _ _ holds good fires
          have later (after : P next) :
              m.Throughout P next rest ↔ m.Along allowed next rest :=
            ih (preserved _ _ _ holds fires) after
          simp only [Throughout, Along, fires, Option.some.injEq, forall_eq']
          constructor
          · rintro ⟨-, tail⟩
            exact ⟨now.mp tail.head, (later tail.head).mp tail⟩
          · rintro ⟨permitted, tail⟩
            exact ⟨good, (later (now.mpr permitted)).mpr tail⟩

/-- Perform a list of actions, failing at the first one that `check` rejects. -/
def execIf (m : Machine State Action) (check : State → Action → Bool) :
    State → List Action → Option State
  | state, [] => some state
  | state, action :: rest =>
      if check state action then
        (m.step state action).bind fun next => execIf m check next rest
      else none

/--
A checked list of actions is a restricted run when the check implies the
restriction in every state with the property `known`.
-/
theorem run_of_execIf {check : State → Action → Bool} (known : State → Prop)
    (sound : ∀ state action, known state → check state action = true → allowed state action)
    (preserved : ∀ state action next, known state → check state action = true →
      m.step state action = some next → known next)
    (actions : List Action) (holds : known start) (done : m.execIf check start actions = some last) :
    m.Run allowed start last ∧ known last := by
  induction actions generalizing start with
  | nil =>
      cases done
      exact ⟨.refl, holds⟩
  | cons action rest ih =>
      rw [execIf] at done
      split at done
      · next ok =>
          obtain ⟨next, fires, tail⟩ := Option.bind_eq_some_iff.mp done
          obtain ⟨run, final⟩ := ih (preserved _ _ _ holds ok fires) tail
          exact ⟨(Run.single (sound _ _ holds ok) fires).trans run, final⟩
      · cases done

end Machine

end GstWebrtc.Base
