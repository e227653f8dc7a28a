import GstWebrtc.Base.PyText

/-!
# C strings

What GLib's string functions make of a text.  Only separators that are ASCII
characters occur, so code points stand for the bytes of their encoding.
-/

namespace GstWebrtc.Base

/-- A text that a C string can hold. -/
structure CString where
  text : Text
  noNul : '\x00' ∉ text

namespace CText

/-- `g_strndup` of the data of a message, which ends at the first NUL. -/
def ofData (data : Text) : Text := data.takeWhile fun c => c ≠ '\x00'

/-- `g_str_has_prefix`. -/
def hasPrefix (s p : Text) : Bool := p.isPrefixOf s

/-- The tokens that `separators` spaces make, the last one with all that is left over. -/
def tokens : Nat → Text → List Text
  | 0, s => [s]
  | separators + 1, s =>
      match s.dropWhile fun c => c ≠ ' ' with
      | [] => [s]
      | _ :: rest => (s.takeWhile fun c => c ≠ ' ') :: tokens separators rest

/-- `g_strsplit(s, " ", max_tokens)`, with `0` for any number of tokens. -/
def strsplit (s : Text) (maxTokens : Nat) : List Text :=
  if s = [] then [] else tokens (if maxTokens = 0 then s.length else maxTokens - 1) s

theorem hasPrefix_iff {s p : Text} : hasPrefix s p = true ↔ p <+: s :=
  List.isPrefixOf_iff_prefix

theorem hasPrefix_shorter {s p q : Text} (h : hasPrefix s p = true) (shorter : q <+: p) :
    hasPrefix s q = true :=
  hasPrefix_iff.mpr (shorter.trans (hasPrefix_iff.mp h))

/-- A text does not begin in two ways. -/
theorem hasPrefix_apart {s p q : Text} (h : hasPrefix s p = true) (apart : ¬ p <+: q)
    (apart' : ¬ q <+: p) : ¬ hasPrefix s q = true := by
  obtain ⟨rest, rfl⟩ := hasPrefix_iff.mp h
  exact fun other => PyText.not_prefix_append apart' apart (hasPrefix_iff.mp other)

section Data

variable {s t : Text}

theorem ofData_append (free : '\x00' ∉ s) : ofData (s ++ t) = s ++ ofData t := by
  refine List.takeWhile_append_of_pos ?_
  intro c inside
  exact decide_eq_true fun nul => free (nul ▸ inside)

theorem ofData_eq_self (free : '\x00' ∉ s) : ofData s = s := by
  have whole := ofData_append (t := []) free
  simpa [ofData] using whole

/-- A literal that ends in a space, and what follows it up to the first NUL. -/
theorem ofData_spaced {literal command : Text} (same : literal = command ++ [' '])
    (free : '\x00' ∉ literal) : ofData (literal ++ t) = command ++ ' ' :: ofData t := by
  rw [ofData_append free, PyText.spaced same]

end Data

section Tokens

variable {w s : Text}

theorem tokens_word (n : Nat) (noSpace : ' ' ∉ w) : tokens n w = [w] := by
  cases n with
  | zero => rfl
  | succ n =>
      have none : (w.dropWhile fun c => c ≠ ' ') = [] := by
        refine List.dropWhile_eq_nil_iff.mpr ?_
        intro c inside
        exact decide_eq_true fun space => noSpace (space ▸ inside)
      rw [tokens, none]

/-- A token ends at the first space. -/
theorem tokens_cons (n : Nat) (noSpace : ' ' ∉ w) :
    tokens (n + 1) (w ++ ' ' :: s) = w :: tokens n s := by
  have plain : ∀ c ∈ w, decide (c ≠ ' ') = true := by
    intro c inside
    exact decide_eq_true fun space => noSpace (space ▸ inside)
  rw [tokens, List.dropWhile_append_of_pos plain, List.dropWhile_cons_of_neg (by simp),
    List.takeWhile_append_of_pos plain, List.takeWhile_cons_of_neg (by simp), List.append_nil]

/-- Words that were joined by spaces are found again. -/
theorem tokens_joinSpace {words : List Text} {n : Nat} (some : words ≠ [])
    (noSpace : ∀ word ∈ words, ' ' ∉ word) (enough : (PyText.joinSpace words).length ≤ n) :
    tokens n (PyText.joinSpace words) = words := by
  induction words generalizing n with
  | nil => exact absurd rfl some
  | cons word rest ih =>
      cases rest with
      | nil => exact tokens_word n (noSpace word List.mem_cons_self)
      | cons next more =>
          cases n with
          | zero => simp [PyText.joinSpace] at enough
          | succ n =>
              have joined : PyText.joinSpace (word :: next :: more) =
                  word ++ ' ' :: PyText.joinSpace (next :: more) := rfl
              rw [joined, tokens_cons n (noSpace word List.mem_cons_self)]
              refine congrArg _ (ih (by simp) ?_ ?_)
              · intro other inside
                exact noSpace other (List.mem_cons_of_mem _ inside)
              · simp only [joined, List.length_append, List.length_cons] at enough
                omega

end Tokens

section Commands

variable {command word rest : Text} {words : List Text}

theorem strsplit_two (noSpace : ' ' ∉ command) :
    strsplit (command ++ ' ' :: rest) 2 = [command, rest] := by
  rw [strsplit, if_neg (by simp)]
  exact tokens_cons 0 noSpace

theorem strsplit_three (noSpace : ' ' ∉ command) (noSpace' : ' ' ∉ word) :
    strsplit (command ++ ' ' :: (word ++ ' ' :: rest)) 3 = [command, word, rest] := by
  rw [strsplit, if_neg (by simp)]
  exact (tokens_cons 1 noSpace).trans (congrArg _ (tokens_cons 0 noSpace'))

/-- A list of no words makes a last token that is empty. -/
theorem strsplit_list (noSpace : ' ' ∉ command) (words_noSpace : ∀ word ∈ words, ' ' ∉ word) :
    strsplit (command ++ ' ' :: PyText.joinSpace words) 0 =
      command :: if words = [] then [[]] else words := by
  have length : (command ++ ' ' :: PyText.joinSpace words).length =
      command.length + (PyText.joinSpace words).length + 1 := by
    simp only [List.length_append, List.length_cons]
    omega
  rw [strsplit, if_neg (by simp), if_pos rfl, length, tokens_cons _ noSpace]
  split
  · next empty =>
      subst empty
      exact congrArg _ (tokens_word _ (by simp [PyText.joinSpace]))
  · next some => rw [tokens_joinSpace some words_noSpace (Nat.le_add_left _ _)]

end Commands

end CText

end GstWebrtc.Base
