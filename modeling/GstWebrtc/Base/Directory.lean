import GstWebrtc.Base.Machine
import Mathlib.Logic.Function.Basic

/-!
# Directories

Who is there, and whether it is free, in a call with one other, or in a room.
A name arrives, calls another free name, enters a room, or departs, and its
partner in a call departs with it.
-/

namespace GstWebrtc.Base

inductive Place (Name Room : Type) where
  | idle
  | calling (other : Name)
  | inside (room : Room)
  deriving DecidableEq

abbrev Directory (Name Room : Type) := Name → Option (Place Name Room)

namespace Directory

inductive Event (Name Room : Type) where
  | arrives (name : Name)
  | calls (caller callee : Name)
  | enters (name : Name) (room : Room)
  | departs (name : Name)

variable {Name Room : Type}

/-- Whose doing the event is. -/
def Event.subject : Event Name Room → Name
  | arrives name | calls name _ | enters name _ | departs name => name

variable [DecidableEq Name] [DecidableEq Room]

/-- Two names are in a call with each other. -/
def called (d : Directory Name Room) (caller callee : Name) : Directory Name Room := fun v =>
  if v = caller then some (.calling callee) else if v = callee then some (.calling caller) else d v

/-- The name and its partner in a call are gone. -/
def departed (d : Directory Name Room) (name : Name) : Directory Name Room := fun v =>
  if v = name ∨ d name = some (.calling v) then none else d v

def step (d : Directory Name Room) : Event Name Room → Option (Directory Name Room)
  | .arrives name =>
      if d name = none then some (Function.update d name (some .idle)) else none
  | .calls caller callee =>
      if d caller = some .idle ∧ d callee = some .idle then some (d.called caller callee) else none
  | .enters name room =>
      if d name = some .idle then some (Function.update d name (some (.inside room))) else none
  | .departs name => if d name = none then none else some (d.departed name)

/-- Nobody is there at first. -/
def machine (Name Room : Type) [DecidableEq Name] [DecidableEq Room] :
    Machine (Directory Name Room) (Event Name Room) := ⟨fun _ => none, step⟩

section Steps

variable {d d' : Directory Name Room} {e : Event Name Room} {u v : Name} {room : Room}

theorem step_arrives (absent : d u = none) :
    d.step (.arrives u) = some (Function.update d u (some .idle)) := if_pos absent

theorem step_calls (caller : d u = some .idle) (callee : d v = some .idle) :
    d.step (.calls u v) = some (d.called u v) := if_pos ⟨caller, callee⟩

theorem step_enters (free : d u = some .idle) (room : Room) :
    d.step (.enters u room) = some (Function.update d u (some (.inside room))) := if_pos free

theorem step_departs (present : d u ≠ none) : d.step (.departs u) = some (d.departed u) :=
  if_neg present

theorem departed_self (d : Directory Name Room) (u : Name) : d.departed u u = none :=
  if_pos (Or.inl rfl)

/-- Without a partner nobody else is affected. -/
theorem departed_of_alone (alone : ∀ v, d u ≠ some (.calling v)) :
    d.departed u = Function.update d u none := by
  funext v
  by_cases same : v = u
  · subst same
    rw [departed_self, Function.update_self]
  · rw [departed, if_neg (by simp [same, alone v]), Function.update_of_ne same]

/-- Only the subject of an event comes to be there. -/
theorem present_of_step (moves : d.step e = some d') (present : d' v ≠ none) :
    v = e.subject ∨ d v ≠ none := by
  by_cases subject : v = e.subject
  · exact Or.inl subject
  refine Or.inr ?_
  cases e with
  | arrives u =>
      simp only [step] at moves
      split at moves
      · cases moves
        have other : v ≠ u := subject
        rwa [Function.update_of_ne other] at present
      · cases moves
  | calls u w =>
      simp only [step] at moves
      split at moves
      · next free =>
          cases moves
          by_cases callee : v = w
          · rw [callee, free.2]
            exact nofun
          · have caller : v ≠ u := subject
            rwa [called, if_neg caller, if_neg callee] at present
      · cases moves
  | enters u room =>
      simp only [step] at moves
      split at moves
      · cases moves
        have other : v ≠ u := subject
        rwa [Function.update_of_ne other] at present
      · cases moves
  | departs u =>
      simp only [step] at moves
      split at moves
      · cases moves
      · cases moves
        rw [departed] at present
        split at present
        · exact absurd rfl present
        · exact present

/-! ## Calls are between two -/

/-- Whom a name is in a call with is in the call with it. -/
def Symmetric (d : Directory Name Room) : Prop :=
  ∀ a b, d a = some (.calling b) → d b = some (.calling a)

omit [DecidableEq Name] [DecidableEq Room] in
theorem Symmetric.alone (symmetric : d.Symmetric) (idle : ∀ b, d u ≠ some (.calling b)) (a : Name) :
    d a ≠ some (.calling u) := fun calls => idle a (symmetric a u calls)

omit [DecidableEq Room] in
/-- A change of one name that neither begins nor ends a call. -/
theorem Symmetric.update (symmetric : d.Symmetric) (before : ∀ b, d u ≠ some (.calling b))
    {place : Option (Place Name Room)} (after : ∀ b, place ≠ some (.calling b)) :
    Directory.Symmetric (Function.update d u place) := by
  intro a b calls
  by_cases self : a = u
  · subst self
    rw [Function.update_self] at calls
    exact absurd calls (after b)
  · rw [Function.update_of_ne self] at calls
    have other : b ≠ u := by
      rintro rfl
      exact symmetric.alone before a calls
    rw [Function.update_of_ne other]
    exact symmetric a b calls

omit [DecidableEq Room] in
theorem Symmetric.called (symmetric : d.Symmetric) (caller : d u = some .idle)
    (callee : d v = some .idle) : (d.called u v).Symmetric := by
  have idle : ∀ {w}, d w = some .idle → ∀ a, d a ≠ some (.calling w) := fun free =>
    symmetric.alone fun b calls => by cases free.symm.trans calls
  intro a b calls
  unfold Directory.called at calls ⊢
  by_cases isCaller : a = u
  · rw [if_pos isCaller] at calls
    cases calls
    by_cases same : v = u
    · rw [if_pos same, isCaller, same]
    · rw [if_neg same, if_pos rfl, isCaller]
  · rw [if_neg isCaller] at calls
    by_cases isCallee : a = v
    · rw [if_pos isCallee] at calls
      cases calls
      rw [if_pos rfl, isCallee]
    · rw [if_neg isCallee] at calls
      have notCaller : b ≠ u := by
        rintro rfl
        exact idle caller a calls
      have notCallee : b ≠ v := by
        rintro rfl
        exact idle callee a calls
      rw [if_neg notCaller, if_neg notCallee]
      exact symmetric a b calls

theorem Symmetric.departed (symmetric : d.Symmetric) (u : Name) : (d.departed u).Symmetric := by
  intro a b calls
  unfold Directory.departed at calls ⊢
  split at calls
  · cases calls
  · next stays =>
      have back := symmetric a b calls
      rw [if_neg, back]
      rintro (rfl | partner)
      · exact stays (Or.inr back)
      · exact stays (Or.inl (Place.calling.inj (Option.some.inj
          ((symmetric u b partner).symm.trans back))).symm)

theorem Symmetric.step (symmetric : d.Symmetric) (moves : d.step e = some d') : d'.Symmetric := by
  cases e with
  | arrives u =>
      simp only [Directory.step] at moves
      split at moves
      · next absent =>
          cases moves
          exact symmetric.update (by simp [absent]) (by simp)
      · cases moves
  | calls u v =>
      simp only [Directory.step] at moves
      split at moves
      · next free =>
          cases moves
          exact symmetric.called free.1 free.2
      · cases moves
  | enters u room =>
      simp only [Directory.step] at moves
      split at moves
      · next free =>
          cases moves
          exact symmetric.update (by simp [free]) (by simp)
      · cases moves
  | departs u =>
      simp only [Directory.step] at moves
      split at moves
      · cases moves
      · cases moves
        exact symmetric.departed u

theorem symmetric_of_reachable (run : (machine Name Room).Reachable Machine.anyAction d) :
    d.Symmetric :=
  Machine.Reachable.invariant run (fun _ _ calls => by cases calls)
    fun _ _ _ inv _ moves => inv.step moves

end Steps

end Directory

end GstWebrtc.Base
