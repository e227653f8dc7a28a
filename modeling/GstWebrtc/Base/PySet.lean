import Mathlib.Data.Finset.Card
import Mathlib.Data.Finset.Lattice.Basic

/-!
# Python sets and iteration over a live set

A Python set has no fixed order, so an iteration is a sequence of picks made by
the environment.  An iterator remembers the size of the set when it was made
and refuses to go on once the size has changed.  When the set was changed and
has its old size again, the interpreter promises nothing about what is still
visited, and neither does `Iter.next`.
-/

namespace GstWebrtc.Base

/-- The elements of a set together with a count of the changes made to it. -/
structure PySet (α : Type) where
  elems : Finset α
  changes : Nat

/-- A suspended `for` loop over a set. -/
structure Iter (α : Type) where
  used : Nat
  stamp : Nat
  seen : Finset α

/-- What asking an iterator for its next element produces. -/
inductive Next (α : Type) where
  | changedSize
  | stop
  | yield (element : α) (rest : Iter α)

namespace PySet

variable {α : Type}

def empty : PySet α := ⟨∅, 0⟩

@[simp] theorem elems_empty : (empty : PySet α).elems = ∅ := rfl

variable [DecidableEq α]

def add (s : PySet α) (a : α) : PySet α :=
  if a ∈ s.elems then s else ⟨insert a s.elems, s.changes + 1⟩

def remove (s : PySet α) (a : α) : PySet α :=
  ⟨s.elems.erase a, s.changes + 1⟩

@[simp] theorem elems_add (s : PySet α) (a : α) : (s.add a).elems = insert a s.elems := by
  unfold add
  split
  · next present => exact (Finset.insert_eq_of_mem present).symm
  · rfl

@[simp] theorem elems_remove (s : PySet α) (a : α) : (s.remove a).elems = s.elems.erase a := rfl

/-- `order` is one of the orders in which `s` can be walked when nothing changes it. -/
def Lists (s : PySet α) (order : List α) : Prop :=
  order.Nodup ∧ order.toFinset = s.elems

instance (s : PySet α) (order : List α) : Decidable (s.Lists order) :=
  inferInstanceAs (Decidable (_ ∧ _))

theorem Lists.mem {s : PySet α} {order : List α} (h : s.Lists order) {a : α} :
    a ∈ order ↔ a ∈ s.elems := by
  rw [← h.2, List.mem_toFinset]

/-- `iter(s)`, with the elements of `skipped` counted as visited already. -/
def iter (s : PySet α) (skipped : Finset α) : Iter α :=
  ⟨s.elems.card, s.changes, skipped⟩

end PySet

namespace Iter

variable {α : Type}

/-- The iterator was made from the set as it is now. -/
def Current (it : Iter α) (s : PySet α) : Prop :=
  it.used = s.elems.card ∧ it.stamp = s.changes

theorem current_iter (s : PySet α) (skipped : Finset α) : (s.iter skipped).Current s :=
  ⟨rfl, rfl⟩

instance (it : Iter α) (s : PySet α) : Decidable (it.Current s) :=
  inferInstanceAs (Decidable (_ ∧ _))

variable [DecidableEq α]

/--
`next(it)` on the set as it is now.  `pick = none` asks the iteration to end.
A set that has not changed yields each element once and ends only after the
last one; a changed set of the old size may yield any element, or end.
-/
def next (it : Iter α) (s : PySet α) (pick : Option α) : Option (Next α) :=
  if s.elems.card ≠ it.used then
    some .changedSize
  else
    match pick with
    | none =>
        if s.changes = it.stamp ∧ ¬ s.elems ⊆ it.seen then none else some .stop
    | some a =>
        if a ∈ s.elems ∧ ¬ (s.changes = it.stamp ∧ a ∈ it.seen) then
          some (.yield a { it with seen := insert a it.seen })
        else none

/-- Every outcome of one `next`: a changed size, the end, or one more element. -/
theorem next_cases {it : Iter α} {s : PySet α} {pick : Option α} {result : Next α}
    (h : it.next s pick = some result) :
    (s.elems.card ≠ it.used ∧ result = .changedSize) ∨
    (s.elems.card = it.used ∧ (s.changes = it.stamp → s.elems ⊆ it.seen) ∧ result = .stop) ∨
    (∃ a, s.elems.card = it.used ∧ a ∈ s.elems ∧ (s.changes = it.stamp → a ∉ it.seen) ∧
      result = .yield a { it with seen := insert a it.seen }) := by
  unfold next at h
  split at h
  · next changed => exact Or.inl ⟨changed, (Option.some.inj h).symm⟩
  · next same =>
      have size : s.elems.card = it.used := not_not.mp same
      cases pick with
      | none =>
          simp only at h
          split at h
          · cases h
          · next ended =>
              refine Or.inr (Or.inl ⟨size, ?_, (Option.some.inj h).symm⟩)
              intro unchanged
              by_contra more
              exact ended ⟨unchanged, more⟩
      | some a =>
          simp only at h
          split at h
          · next ok =>
              refine Or.inr (Or.inr ⟨a, size, ok.1, ?_, (Option.some.inj h).symm⟩)
              intro unchanged seen
              exact ok.2 ⟨unchanged, seen⟩
          · cases h

theorem pick_of_yield {it rest : Iter α} {s : PySet α} {pick : Option α} {a : α}
    (h : it.next s pick = some (.yield a rest)) : pick = some a := by
  unfold next at h
  split at h
  · cases h
  · cases pick with
    | none =>
        simp only at h
        split at h <;> cases h
    | some b =>
        simp only at h
        split at h
        · cases h
          rfl
        · cases h

/-- An iterator can always be asked for something, and for no element it has seen. -/
theorem exists_next (it : Iter α) (s : PySet α) :
    ∃ pick result, it.next s pick = some result ∧ ∀ a ∈ it.seen, pick ≠ some a := by
  by_cases size : s.elems.card = it.used
  · by_cases more : s.changes = it.stamp ∧ ¬ s.elems ⊆ it.seen
    · obtain ⟨a, inside, fresh⟩ := Finset.not_subset.mp more.2
      refine ⟨some a, .yield a { it with seen := insert a it.seen }, ?_, ?_⟩
      · rw [next, if_neg (not_not.mpr size)]
        exact if_pos ⟨inside, fun seen => fresh seen.2⟩
      · rintro b seen ⟨⟩
        exact fresh seen
    · refine ⟨none, .stop, ?_, fun _ _ => Option.some_ne_none _ |>.symm⟩
      rw [next, if_neg (not_not.mpr size)]
      exact if_neg more
  · exact ⟨none, .changedSize, if_pos size, fun _ _ => Option.some_ne_none _ |>.symm⟩

/-- An undisturbed iteration never fails: it ends once everything was seen, or yields. -/
theorem Current.next_cases {it : Iter α} {s : PySet α} {pick : Option α} {result : Next α}
    (current : it.Current s) (h : it.next s pick = some result) :
    (s.elems ⊆ it.seen ∧ result = .stop) ∨
    (∃ a, a ∈ s.elems ∧ a ∉ it.seen ∧
      result = .yield a { it with seen := insert a it.seen }) := by
  rcases Iter.next_cases h with ⟨changed, _⟩ | ⟨_, all, ended⟩ | ⟨a, _, mem, fresh, yields⟩
  · exact absurd current.1.symm changed
  · exact Or.inl ⟨all current.2.symm, ended⟩
  · exact Or.inr ⟨a, mem, fresh current.2.symm, yields⟩

end Iter

end GstWebrtc.Base
