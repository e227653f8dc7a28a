import GstWebrtc.Base.CText
import Mathlib.Data.List.DropRight

/-!
# Rust strings

The methods of `str` that the Rust client calls.  Offsets are bytes of the
UTF-8 encoding, and a slice that does not start at a character is a panic.
-/

namespace GstWebrtc.Base.RustText

/-- The code points of the Unicode property `White_Space`. -/
def whitespace : List Nat :=
  [0x09, 0x0A, 0x0B, 0x0C, 0x0D, 0x20, 0x85, 0xA0, 0x1680,
   0x2000, 0x2001, 0x2002, 0x2003, 0x2004, 0x2005, 0x2006, 0x2007, 0x2008, 0x2009, 0x200A,
   0x2028, 0x2029, 0x202F, 0x205F, 0x3000]

def isWhitespace (c : Char) : Bool := whitespace.contains c.toNat

/-- `s.len()`. -/
def len (s : Text) : Nat := s.foldr (fun c n => c.utf8Size + n) 0

/-- `&s[n..]`, with nothing for the panic. -/
def slice : Nat → Text → Option Text
  | 0, s => some s
  | _ + 1, [] => none
  | n + 1, c :: s => if c.utf8Size ≤ n + 1 then slice (n + 1 - c.utf8Size) s else none

/-- `s.trim()`. -/
def trim (s : Text) : Text := (s.dropWhile isWhitespace).rdropWhile isWhitespace

/-- `s.splitn(n, ' ')`. -/
def splitn : Nat → Text → List Text
  | 0, _ => []
  | n + 1, s => CText.tokens n s

/-- `s.split(' ')`. -/
def split (s : Text) : List Text := CText.tokens s.length s

/-- One digit more, with the overflow checks of `u32`. -/
def pushDigit (value : Nat) (c : Char) : Option Nat :=
  if c.isDigit = true ∧ 10 * value + (c.toNat - '0'.toNat) < UInt32.size then
    some (10 * value + (c.toNat - '0'.toNat))
  else none

/-- The digits of a number, after one plus sign. -/
def unsigned : Text → Text
  | '+' :: digits => digits
  | digits => digits

/-- `str::parse::<u32>(s).ok()`. -/
def parseU32 (s : Text) : Option UInt32 :=
  if unsigned s = [] then none
  else ((unsigned s).foldlM pushDigit 0).map UInt32.ofNat

/-- How `format!` prints a `u32`. -/
def displayU32 (n : UInt32) : Text := Nat.toDigits 10 n.toNat

section Splitting

variable {w s t : Text}

/-- What is left after a prefix. -/
theorem slice_append : slice (len s) (s ++ t) = some t := by
  induction s with
  | nil => cases t <;> rfl
  | cons c s ih =>
      have size : 0 < c.utf8Size := c.utf8Size_pos
      have length : len (c :: s) = c.utf8Size + len s := rfl
      obtain ⟨n, same⟩ : ∃ n, c.utf8Size + len s = n + 1 :=
        ⟨c.utf8Size + len s - 1, by omega⟩
      have fits : c.utf8Size ≤ n + 1 := by omega
      have rest : n + 1 - c.utf8Size = len s := by omega
      rw [length, same, List.cons_append, slice, if_pos fits, rest, ih]

/-- Rust's whitespace is whitespace in Python as well. -/
theorem isSpace_of_isWhitespace {c : Char} (h : isWhitespace c = true) :
    PyText.isSpace c = true := by
  have subset : ∀ n ∈ whitespace, n ∈ PyText.spaces := by decide
  exact List.contains_iff_mem.mpr (subset _ (List.contains_iff_mem.mp h))

theorem trim_word (h : PyText.Word w) : trim w = w := by
  have plain : ∀ c ∈ w, ¬ isWhitespace c = true := by
    intro c inside white
    have spaced := isSpace_of_isWhitespace white
    rw [h.2 c inside] at spaced
    cases spaced
  have front : w.dropWhile isWhitespace = w := by
    refine List.dropWhile_eq_self_iff.mpr ?_
    intro some
    exact plain _ (List.getElem_mem some)
  rw [trim, front]
  exact List.rdropWhile_eq_self_iff.mpr fun some => plain _ (List.getLast_mem some)

theorem splitn_two (noSpace : ' ' ∉ w) : splitn 2 (w ++ ' ' :: s) = [w, s] :=
  CText.tokens_cons 0 noSpace

theorem splitn_two_word (noSpace : ' ' ∉ w) : splitn 2 w = [w] :=
  CText.tokens_word 1 noSpace

/-- The words of a list are found again, and an empty list has one empty token. -/
theorem split_joinSpace {words : List Text} (noSpace : ∀ word ∈ words, ' ' ∉ word) :
    split (PyText.joinSpace words) = if words = [] then [[]] else words := by
  split
  · next empty =>
      subst empty
      rfl
  · next some => exact CText.tokens_joinSpace some noSpace (Nat.le_refl _)

end Splitting

section Numbers

variable {s : Text} {value : Nat}

/-- A number only grows as digits are added. -/
theorem le_ofDigitChars : value ≤ Nat.ofDigitChars 10 s value := by
  induction s generalizing value with
  | nil => rw [Nat.ofDigitChars_nil]
  | cons c s ih =>
      rw [Nat.ofDigitChars_cons]
      have grown : 10 * value + (c.toNat - '0'.toNat) ≤
          Nat.ofDigitChars 10 s (10 * value + (c.toNat - '0'.toNat)) := ih
      omega

/-- Digits that make a `u32` are read without overflow. -/
theorem pushDigits_of_lt (digits : ∀ c ∈ s, c.isDigit = true)
    (fits : Nat.ofDigitChars 10 s value < UInt32.size) :
    s.foldlM pushDigit value = some (Nat.ofDigitChars 10 s value) := by
  induction s generalizing value with
  | nil =>
      rw [Nat.ofDigitChars_nil]
      rfl
  | cons c s ih =>
      rw [Nat.ofDigitChars_cons] at fits ⊢
      have grown : 10 * value + (c.toNat - '0'.toNat) ≤
          Nat.ofDigitChars 10 s (10 * value + (c.toNat - '0'.toNat)) := le_ofDigitChars
      have pushed : pushDigit value c = some (10 * value + (c.toNat - '0'.toNat)) :=
        if_pos ⟨digits c List.mem_cons_self, Nat.lt_of_le_of_lt grown fits⟩
      rw [List.foldlM_cons, pushed]
      exact ih (fun d inside => digits d (List.mem_cons_of_mem _ inside)) fits

theorem isDigit_of_pushDigits {value' : Nat} (h : s.foldlM pushDigit value = some value') :
    ∀ c ∈ s, c.isDigit = true := by
  induction s generalizing value with
  | nil =>
      intro c inside
      cases inside
  | cons d s ih =>
      rw [List.foldlM_cons] at h
      unfold pushDigit at h
      split at h
      · next digit =>
          intro c inside
          rcases List.mem_cons.mp inside with rfl | later
          · exact digit.1
          · exact ih h c later
      · cases h

theorem unsigned_of_digits (digits : ∀ c ∈ s, c.isDigit = true) : unsigned s = s := by
  unfold unsigned
  split
  · next rest => exact absurd (digits '+' List.mem_cons_self) (by decide)
  · rfl

/-- What is printed is read again. -/
theorem parseU32_displayU32 (n : UInt32) : parseU32 (displayU32 n) = some n := by
  have digits : ∀ c ∈ displayU32 n, c.isDigit = true :=
    fun c inside => Nat.isDigit_of_mem_toDigits (by decide) (by decide) inside
  have value : Nat.ofDigitChars 10 (displayU32 n) 0 = n.toNat := Nat.ofDigitChars_ten_toDigits
  have read := pushDigits_of_lt digits (by rw [value]; exact n.toNat_lt)
  have some : displayU32 n ≠ [] := Nat.toDigits_ne_nil
  rw [parseU32, unsigned_of_digits digits, if_neg some, read, value, Option.map_some,
    UInt32.ofNat_toNat]

/-- A text that is read as a number is a word. -/
theorem word_of_parseU32 {n : UInt32} (h : parseU32 s = some n) : PyText.Word s := by
  have plain : ∀ c : Char, c.isDigit = true ∨ c = '+' → PyText.isSpace c = false := by
    intro c kind
    have range : 0x21 ≤ c.toNat ∧ c.toNat ≤ 0x7E := by
      rcases kind with digit | rfl
      · rw [Char.isDigit_iff_toNat] at digit
        exact ⟨Nat.le_trans (by decide) digit.1, Nat.le_trans digit.2 (by decide)⟩
      · decide
    rw [PyText.isSpace, ← Bool.not_eq_true, List.contains_iff_mem]
    have outside : ∀ n ∈ PyText.spaces, n < 0x21 ∨ 0x7E < n := by decide
    intro inside
    rcases outside _ inside with low | high
    · omega
    · omega
  unfold parseU32 at h
  split at h
  · cases h
  · next nonempty =>
      obtain ⟨value, read, -⟩ := Option.map_eq_some_iff.mp h
      have digits := isDigit_of_pushDigits read
      cases s with
      | nil => exact absurd rfl nonempty
      | cons c s =>
          refine ⟨List.cons_ne_nil c s, ?_⟩
          intro d inside
          by_cases sign : c = '+'
          · subst sign
            rcases List.mem_cons.mp inside with rfl | later
            · exact plain _ (Or.inr rfl)
            · exact plain d (Or.inl (digits d later))
          · have same : unsigned (c :: s) = c :: s := by
              unfold unsigned
              split
              · next whole => exact absurd (List.cons.inj whole).1 sign
              · rfl
            rw [same] at digits
            exact plain d (Or.inl (digits d inside))

end Numbers

end GstWebrtc.Base.RustText
