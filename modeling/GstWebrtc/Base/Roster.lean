import Mathlib.Data.Finset.Basic
import Mathlib.Data.Finset.Insert

/-!
# Rosters kept up to date by notices

An observer is given a roster once and is afterwards told of each arrival and
each departure.  Its view is the fold of these notices, in the order of their
sending.  An observer that keeps a list instead has the same view, and names
nobody twice, as long as each notice fits those before it.
-/

namespace GstWebrtc.Base

/-- Every element of a list stands in the relation `P` to the elements before it. -/
inductive Grown {β : Type} (P : List β → β → Prop) : List β → Prop where
  | nil : Grown P []
  | snoc {before : List β} {last : β} (grown : Grown P before) (fits : P before last) :
      Grown P (before ++ [last])

namespace Grown

variable {β : Type} {P : List β → β → Prop} {before after : List β} {b : β}

/-- How a list that has grown by one element came about. -/
theorem of_snoc (h : Grown P (before ++ [b])) : Grown P before ∧ P before b := by
  generalize whole : before ++ [b] = l at h
  cases h with
  | nil => simp at whole
  | snoc grown fits =>
      obtain ⟨rfl, same⟩ := List.append_inj' whole rfl
      cases same
      exact ⟨grown, fits⟩

theorem of_append (h : Grown P (before ++ after)) : Grown P before := by
  induction after using List.reverseRecOn with
  | nil => simpa using h
  | append_singleton after last ih =>
      rw [← List.append_assoc] at h
      exact ih h.of_snoc.1

/-- An element stands in the relation to what is before it. -/
theorem fits (h : Grown P (before ++ b :: after)) : P before b := by
  rw [List.append_cons] at h
  exact h.of_append.of_snoc.2

end Grown

inductive Notice (α : Type) where
  | roster (members : List α)
  | joined (member : α)
  | left (member : α)

namespace Notice

variable {α : Type} [DecidableEq α]

/-- The view after one more notice. -/
def apply (view : Finset α) : Notice α → Finset α
  | roster members => members.toFinset
  | joined member => insert member view
  | left member => view.erase member

/-- The view of an observer that was sent `notices`. -/
def view (notices : List (Notice α)) : Finset α :=
  notices.foldl apply ∅

/-- The roster that was given last. -/
def lastRoster (notices : List (Notice α)) : List α :=
  notices.foldl (fun last n => match n with
    | roster members => members
    | _ => last) []

@[simp] theorem view_nil : view ([] : List (Notice α)) = ∅ := rfl

theorem view_append (before after : List (Notice α)) :
    view (before ++ after) = after.foldl apply (view before) :=
  List.foldl_append

@[simp] theorem view_snoc (notices : List (Notice α)) (n : Notice α) :
    view (notices ++ [n]) = apply (view notices) n := by
  rw [view_append]
  rfl

/-- A member that a view loses without a new roster was announced as gone. -/
theorem left_mem_of_lost {member : α} {before after : List (Notice α)}
    (had : member ∈ view before) (lost : member ∉ view (before ++ after))
    (noRoster : ∀ members, Notice.roster members ∉ after) :
    Notice.left member ∈ after := by
  induction after generalizing before with
  | nil => exact absurd had (by simpa using lost)
  | cons n rest ih =>
      by_cases kept : member ∈ view (before ++ [n])
      · refine List.mem_cons_of_mem _ (ih kept (by simpa using lost) ?_)
        exact fun members inside => noRoster members (List.mem_cons_of_mem _ inside)
      · rw [view_snoc] at kept
        cases n with
        | roster members => exact absurd List.mem_cons_self (noRoster members)
        | joined other => exact absurd (Finset.mem_insert_of_mem had) kept
        | left other =>
            have same : member = other := by
              by_contra different
              exact kept (Finset.mem_erase.mpr ⟨different, had⟩)
            rw [same]
            exact List.mem_cons_self

/-! ## Lists that follow the notices -/

/-- The list of an observer after one more notice. -/
def keep (list : List α) : Notice α → List α
  | roster members => members.foldl (fun list member => member :: list) list
  | joined member => member :: list
  | left member => list.erase member

/-- Whom a notice is about. -/
def about : Notice α → List α
  | roster members => members
  | joined member | left member => [member]

/-- An observer has only heard of those that a notice is about. -/
theorem mem_keep {list : List α} {n : Notice α} {member : α} (h : member ∈ keep list n) :
    member ∈ list ∨ member ∈ n.about := by
  cases n with
  | roster members =>
      rw [keep, List.foldl_flip_cons_eq_append', List.mem_append, List.mem_reverse] at h
      exact h.symm
  | joined other =>
      rcases List.mem_cons.mp h with rfl | inside
      · exact Or.inr List.mem_cons_self
      · exact Or.inl inside
  | left other => exact Or.inl (List.mem_of_mem_erase h)

theorem mem_kept {notices : List (Notice α)} {member : α}
    (h : member ∈ notices.foldl keep []) : ∃ n ∈ notices, member ∈ n.about := by
  induction notices using List.reverseRecOn with
  | nil => exact absurd h List.not_mem_nil
  | append_singleton before n ih =>
      rw [List.foldl_append, List.foldl_cons, List.foldl_nil] at h
      rcases mem_keep h with inside | told
      · obtain ⟨n', earlier, told⟩ := ih inside
        exact ⟨n', List.mem_append_left _ earlier, told⟩
      · exact ⟨n, List.mem_append_right _ List.mem_cons_self, told⟩

/-- A notice that tells the observer something new: a first roster, the arrival of
somebody unknown, or the departure of somebody known. -/
def Fits (before : List (Notice α)) : Notice α → Prop
  | roster members => before = [] ∧ members.Nodup
  | joined member => member ∉ view before
  | left member => member ∈ view before

/-- Fitting notices give one roster. -/
theorem lastRoster_of_grown {notices : List (Notice α)} {members : List α}
    (h : Grown Fits notices) (given : roster members ∈ notices) :
    lastRoster notices = members := by
  induction h with
  | nil => cases given
  | @snoc before n grown fits ih =>
      rw [lastRoster, List.foldl_append, List.foldl_cons, List.foldl_nil]
      rcases List.mem_append.mp given with earlier | now
      · cases n with
        | roster others =>
            rw [fits.1] at earlier
            cases earlier
        | joined other => exact ih earlier
        | left other => exact ih earlier
      · cases List.mem_singleton.mp now
        rfl

omit [DecidableEq α] in
/-- The last roster was given. -/
theorem roster_of_mem {notices : List (Notice α)} {member : α}
    (h : member ∈ lastRoster notices) : ∃ members, roster members ∈ notices ∧ member ∈ members := by
  induction notices using List.reverseRecOn with
  | nil => cases h
  | append_singleton before n ih =>
      rw [lastRoster, List.foldl_append, List.foldl_cons, List.foldl_nil] at h
      cases n with
      | roster members => exact ⟨members, by simp, h⟩
      | joined other =>
          obtain ⟨members, given, inside⟩ := ih h
          exact ⟨members, List.mem_append_left _ given, inside⟩
      | left other =>
          obtain ⟨members, given, inside⟩ := ih h
          exact ⟨members, List.mem_append_left _ given, inside⟩

/-- A list that follows fitting notices is the view, without repetition. -/
theorem kept_of_grown {notices : List (Notice α)} (h : Grown Fits notices) :
    (notices.foldl keep []).Nodup ∧ (notices.foldl keep []).toFinset = view notices := by
  induction h with
  | nil => exact ⟨List.nodup_nil, rfl⟩
  | @snoc before n grown fits ih =>
      obtain ⟨nodup, same⟩ := ih
      have known : ∀ member, member ∈ before.foldl keep [] ↔ member ∈ view before := by
        intro member
        rw [← List.mem_toFinset, same]
      rw [List.foldl_append, List.foldl_cons, List.foldl_nil, view_snoc]
      cases n with
      | roster members =>
          obtain ⟨rfl, distinct⟩ := fits
          simp only [keep, apply, List.foldl_flip_cons_eq_append', List.foldl_nil, List.append_nil]
          exact ⟨List.nodup_reverse.mpr distinct, List.toFinset_reverse⟩
      | joined member =>
          refine ⟨List.nodup_cons.mpr ⟨fun inside => fits ((known member).mp inside), nodup⟩, ?_⟩
          simp [keep, apply, same]
      | left member =>
          refine ⟨nodup.erase member, ?_⟩
          ext other
          rw [List.mem_toFinset, keep, nodup.mem_erase_iff, apply, Finset.mem_erase, known]

end Notice

end GstWebrtc.Base
