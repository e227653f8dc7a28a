import Mathlib.Data.List.Nodup
import GstWebrtc.Base.CText

/-!
# Bins

A `GstBin` knows its children by their names and takes no two of one name.  A
lookup by name goes through the children, the newest first, and also through
what they contain themselves.
-/

namespace GstWebrtc.Base

structure GstBin (α : Type) (name : α → Text) where
  /-- The newest child is the first one. -/
  children : List α
  distinct : (children.map name).Nodup

/-- What a lookup finds. -/
inductive Found (α : Type) where
  | child (element : α)
  /-- An element that a child contains. -/
  | inside (child : α)

def Found.isInside {α : Type} : Found α → Bool
  | .child _ => false
  | .inside _ => true

namespace GstBin

section Operations

variable {α : Type} {name : α → Text}

/-- `gst_bin_add`, with nothing for a name that is taken. -/
def add (bin : GstBin α name) (element : α) : Option (GstBin α name) :=
  if free : ∀ child ∈ bin.children, name child ≠ name element then
    some ⟨element :: bin.children, List.nodup_cons.mpr ⟨by simpa using free, bin.distinct⟩⟩
  else none

/-- `gst_bin_add` of which nobody looks at the result. -/
def tryAdd (bin : GstBin α name) (element : α) : GstBin α name :=
  (bin.add element).getD bin

/-- `gst_bin_remove` of a child. -/
def remove (bin : GstBin α name) (element : α) : GstBin α name :=
  ⟨bin.children.filter fun child => name child ≠ name element,
    bin.distinct.sublist (List.filter_sublist.map name)⟩

def find (name : α → Text) (inner : α → List Text) (n : Text) : List α → Option (Found α)
  | [] => none
  | child :: rest =>
      if name child = n then some (.child child)
      else if (inner child).contains n then some (.inside child)
      else find name inner n rest

/-- `gst_bin_get_by_name`, where `inner` names what the children contain. -/
def getByName (bin : GstBin α name) (inner : α → List Text) (n : Text) : Option (Found α) :=
  find name inner n bin.children

end Operations

section Lemmas

variable {α : Type} {name : α → Text} {bin bin' : GstBin α name} {element child : α}
  {inner : α → List Text} {n : Text}

theorem children_add (added : bin.add element = some bin') :
    bin'.children = element :: bin.children ∧ ∀ child ∈ bin.children, name child ≠ name element := by
  unfold add at added
  split at added
  · next free =>
      cases added
      exact ⟨rfl, free⟩
  · cases added

theorem mem_tryAdd (inside : child ∈ (bin.tryAdd element).children) :
    child = element ∨ child ∈ bin.children := by
  unfold tryAdd at inside
  cases added : bin.add element with
  | none =>
      rw [added] at inside
      exact Or.inr inside
  | some bin' =>
      rw [added, Option.getD_some, (children_add added).1] at inside
      exact List.mem_cons.mp inside

theorem subset_tryAdd : bin.children ⊆ (bin.tryAdd element).children := by
  unfold tryAdd
  cases added : bin.add element with
  | none => exact List.Subset.refl _
  | some bin' =>
      rw [Option.getD_some, (children_add added).1]
      exact List.subset_cons_self _ _

/-- What an unchecked addition leaves of those elements that the new one does not belong to. -/
theorem filter_tryAdd {p : α → Bool} (apart : p element = false) :
    (bin.tryAdd element).children.filter p = bin.children.filter p := by
  unfold tryAdd
  cases added : bin.add element with
  | none => rfl
  | some bin' => rw [Option.getD_some, (children_add added).1, List.filter_cons, apart]; rfl

theorem children_remove (bin : GstBin α name) (element : α) : (bin.remove element).children =
    bin.children.filter fun child => name child ≠ name element := rfl

theorem mem_remove :
    child ∈ (bin.remove element).children ↔ child ∈ bin.children ∧ name child ≠ name element := by
  simp [children_remove]

/-- A name belongs to one child only. -/
theorem eq_of_name {other : α} (inside : child ∈ bin.children) (inside' : other ∈ bin.children)
    (same : name child = name other) : child = other :=
  List.inj_on_of_nodup_map bin.distinct inside inside' same

theorem mem_of_find {l : List α} (found : find name inner n l = some (.child child)) :
    child ∈ l ∧ name child = n := by
  induction l with
  | nil => cases found
  | cons first rest ih =>
      unfold find at found
      split at found
      · next same =>
          cases found
          exact ⟨List.mem_cons_self, same⟩
      · split at found
        · cases found
        · exact ⟨List.mem_cons_of_mem _ (ih found).1, (ih found).2⟩

/-- The child that a lookup finds has that name. -/
theorem mem_of_getByName (found : bin.getByName inner n = some (.child child)) :
    child ∈ bin.children ∧ name child = n := mem_of_find found

theorem ne_of_find {l : List α} (missing : find name inner n l = none) :
    ∀ child ∈ l, name child ≠ n := by
  induction l with
  | nil => exact fun _ inside => absurd inside List.not_mem_nil
  | cons first rest ih =>
      unfold find at missing
      split at missing
      · cases missing
      · next different =>
          split at missing
          · cases missing
          · intro child inside
            rcases List.mem_cons.mp inside with rfl | inside
            · exact different
            · exact ih missing child inside

theorem ne_of_getByName (missing : bin.getByName inner n = none) :
    ∀ child ∈ bin.children, name child ≠ n := ne_of_find missing

end Lemmas

end GstBin

end GstWebrtc.Base
