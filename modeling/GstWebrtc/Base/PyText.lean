import Mathlib.Data.List.TakeWhile

/-!
# Python strings

Strings are lists of code points.  `splitMax` is `str.split(maxsplit=n)` with
the default separator: runs of whitespace separate, leading whitespace is
dropped, and what is left over after `n` fields keeps its inner and trailing
whitespace.
-/

namespace GstWebrtc.Base

abbrev Text := List Char

namespace PyText

/-- The code points that `str.split()` treats as whitespace. -/
def spaces : List Nat :=
  [0x09, 0x0A, 0x0B, 0x0C, 0x0D, 0x1C, 0x1D, 0x1E, 0x1F, 0x20, 0x85, 0xA0, 0x1680,
   0x2000, 0x2001, 0x2002, 0x2003, 0x2004, 0x2005, 0x2006, 0x2007, 0x2008, 0x2009, 0x200A,
   0x2028, 0x2029, 0x202F, 0x205F, 0x3000]

def isSpace (c : Char) : Bool := spaces.contains c.toNat

def notSpace (c : Char) : Bool := !isSpace c

/-- `s.split(maxsplit=n)`. -/
def splitMax : Nat → Text → List Text
  | 0, s =>
      match s.dropWhile isSpace with
      | [] => []
      | rest => [rest]
  | n + 1, s =>
      match s.dropWhile isSpace with
      | [] => []
      | rest => rest.takeWhile notSpace :: splitMax n (rest.dropWhile notSpace)

/-- `s.split()`: a text has no more fields than characters. -/
def split (s : Text) : List Text := splitMax s.length s

/-- `s.startswith(p)`. -/
def startsWith (s p : Text) : Bool := p.isPrefixOf s

/-- `part in s`. -/
def occursIn (part : Text) : Text → Bool
  | [] => part.isEmpty
  | c :: rest => startsWith (c :: rest) part || occursIn part rest

/-- `' '.join(fields)`. -/
def joinSpace : List Text → Text
  | [] => []
  | [field] => field
  | field :: rest => field ++ ' ' :: joinSpace rest

/-- A non-empty text without whitespace. -/
def Word (w : Text) : Prop := w ≠ [] ∧ ∀ c ∈ w, isSpace c = false

instance (w : Text) : Decidable (Word w) :=
  @instDecidableAnd _ _ inferInstance (List.decidableBAll (fun c => isSpace c = false) w)

@[simp] theorem notSpace_eq_true {c : Char} : notSpace c = true ↔ isSpace c = false := by
  simp [notSpace]

@[simp] theorem isSpace_space : isSpace ' ' = true := by decide

theorem startsWith_iff {s p : Text} : startsWith s p = true ↔ p <+: s :=
  List.isPrefixOf_iff_prefix

theorem occursIn_iff {part s : Text} : occursIn part s = true ↔ part <:+: s := by
  induction s with
  | nil => rw [occursIn, List.isEmpty_iff, List.infix_nil]
  | cons c rest ih => rw [occursIn, Bool.or_eq_true, startsWith_iff, ih, List.infix_cons_iff]

/-- A literal that ends in a space, as the command that it begins with. -/
theorem spaced {literal command rest : Text} (same : literal = command ++ [' ']) :
    literal ++ rest = command ++ ' ' :: rest := by
  rw [same, List.append_assoc, List.singleton_append]

/-- A text that begins in one way does not begin in another. -/
theorem not_prefix_append {p q rest : Text} (apart : ¬ p <+: q) (apart' : ¬ q <+: p) :
    ¬ p <+: q ++ rest := by
  intro starts
  rcases List.prefix_or_prefix_of_prefix starts (List.prefix_append q rest) with before | after
  · exact apart before
  · exact apart' after

theorem Word.ne_nil {w : Text} (h : Word w) : w ≠ [] := h.1

theorem Word.space_not_mem {w : Text} (h : Word w) : ' ' ∉ w := by
  intro inside
  have no := h.2 ' ' inside
  rw [isSpace_space] at no
  cases no

/-- A text that does not begin with whitespace is not shortened by stripping. -/
theorem dropSpaces_of_head {c : Char} {s : Text} (h : isSpace c = false) :
    (c :: s).dropWhile isSpace = c :: s :=
  List.dropWhile_cons_of_neg (by simp [h])

theorem dropSpaces_word {w s : Text} (h : Word w) :
    (w ++ s).dropWhile isSpace = w ++ s := by
  cases w with
  | nil => exact absurd rfl h.1
  | cons c rest => exact dropSpaces_of_head (h.2 c List.mem_cons_self)

theorem takeWord {w s : Text} {c : Char} (h : Word w) (hc : isSpace c = true) :
    (w ++ c :: s).takeWhile notSpace = w := by
  rw [List.takeWhile_append_of_pos (fun a ha => notSpace_eq_true.mpr (h.2 a ha)),
    List.takeWhile_cons_of_neg (by simp [notSpace, hc]), List.append_nil]

theorem dropWord {w s : Text} {c : Char} (h : Word w) (hc : isSpace c = true) :
    (w ++ c :: s).dropWhile notSpace = c :: s := by
  rw [List.dropWhile_append_of_pos (fun a ha => notSpace_eq_true.mpr (h.2 a ha)),
    List.dropWhile_cons_of_neg (by simp [notSpace, hc])]

theorem splitMax_strip (n : Nat) {c : Char} (s : Text) (hc : isSpace c = true) :
    splitMax n (c :: s) = splitMax n s := by
  cases n <;> simp only [splitMax, List.dropWhile_cons_of_pos hc]

/-- The first field is a word that is followed by whitespace. -/
theorem splitMax_word_space (n : Nat) {w : Text} {c : Char} (s : Text)
    (h : Word w) (hc : isSpace c = true) :
    splitMax (n + 1) (w ++ c :: s) = w :: splitMax n s := by
  have stripped := dropSpaces_word (s := c :: s) h
  rw [splitMax, stripped]
  split
  · next empty => exact absurd empty (by simp)
  · rw [takeWord h hc, dropWord h hc, splitMax_strip n s hc]

/-- What is left over is kept as it stands. -/
theorem splitMax_zero {c : Char} (s : Text) (hc : isSpace c = false) :
    splitMax 0 (c :: s) = [c :: s] := by
  rw [splitMax, dropSpaces_of_head hc]

theorem splitMax_word (n : Nat) {w : Text} (h : Word w) : splitMax n w = [w] := by
  have all : ∀ c ∈ w, notSpace c = true := fun c hc => notSpace_eq_true.mpr (h.2 c hc)
  cases w with
  | nil => exact absurd rfl h.1
  | cons c rest =>
      have head : isSpace c = false := h.2 c List.mem_cons_self
      cases n with
      | zero => exact splitMax_zero rest head
      | succ n =>
          rw [splitMax, dropSpaces_of_head head]
          simp only [List.takeWhile_eq_self_iff.mpr all, List.dropWhile_eq_nil_iff.mpr all]
          cases n <;> rfl

/-- A command, a word and a rest that does not begin with whitespace are found again. -/
theorem splitMax_two {command w rest : Text} {c : Char} (hc : Word command) (hw : Word w)
    (head : isSpace c = false) :
    splitMax 2 (command ++ ' ' :: (w ++ ' ' :: c :: rest)) = [command, w, c :: rest] := by
  rw [splitMax_word_space 1 _ hc isSpace_space, splitMax_word_space 0 _ hw isSpace_space,
    splitMax_zero _ head]

/-- Words that were joined by spaces are found again. -/
theorem splitMax_joinSpace {words : List Text} {n : Nat} (h : ∀ w ∈ words, Word w)
    (enough : (joinSpace words).length ≤ n) : splitMax n (joinSpace words) = words := by
  induction words generalizing n with
  | nil => cases n <;> rfl
  | cons w rest ih =>
      have first : Word w := h w List.mem_cons_self
      cases rest with
      | nil => exact splitMax_word n first
      | cons next more =>
          have joined : joinSpace (w :: next :: more) = w ++ ' ' :: joinSpace (next :: more) := rfl
          cases n with
          | zero => simp [joined] at enough
          | succ n =>
              rw [joined, splitMax_word_space n _ first isSpace_space]
              refine congrArg _ (ih ?_ ?_)
              · intro other inside
                exact h other (List.mem_cons_of_mem _ inside)
              · simp only [joined, List.length_append, List.length_cons] at enough
                omega

/-- A command and the words of a list. -/
theorem split_list {command : Text} {words : List Text} (hc : Word command)
    (h : ∀ w ∈ words, Word w) : split (command ++ ' ' :: joinSpace words) = command :: words := by
  have length : (command ++ ' ' :: joinSpace words).length =
      command.length + (joinSpace words).length + 1 := by
    simp only [List.length_append, List.length_cons]
    omega
  rw [split, length, splitMax_word_space _ _ hc isSpace_space]
  exact congrArg _ (splitMax_joinSpace h (Nat.le_add_left _ _))

/-- The fields that are followed by another field have no whitespace in them. -/
theorem splitMax_head_word {n : Nat} {s field : Text} {rest : List Text}
    (h : splitMax (n + 1) s = field :: rest) : Word field := by
  rw [splitMax] at h
  split at h
  · cases h
  · next tail nonempty =>
      obtain ⟨hfield, -⟩ := List.cons.inj h
      subst hfield
      cases htail : s.dropWhile isSpace with
      | nil => exact absurd htail nonempty
      | cons c cs =>
          have head : isSpace c = false := by
            have stop := List.head_dropWhile_not isSpace (l := s) (by rw [htail]; simp)
            simpa [htail] using stop
          refine ⟨?_, fun d hd => notSpace_eq_true.mp (List.mem_takeWhile_imp hd)⟩
          rw [List.takeWhile_cons_of_pos (notSpace_eq_true.mpr head)]
          simp

/-- Splitting makes no new characters. -/
theorem mem_of_mem_splitMax {n : Nat} {s field : Text} (h : field ∈ splitMax n s) {c : Char}
    (inside : c ∈ field) : c ∈ s := by
  induction n generalizing s with
  | zero =>
      rw [splitMax] at h
      split at h
      · cases h
      · next rest nonempty =>
          rw [List.mem_singleton] at h
          subst h
          exact (List.dropWhile_suffix _).subset inside
  | succ n ih =>
      rw [splitMax] at h
      split at h
      · cases h
      · rcases List.mem_cons.mp h with rfl | later
        · exact (List.dropWhile_suffix _).subset ((List.takeWhile_prefix _).subset inside)
        · exact (List.dropWhile_suffix _).subset ((List.dropWhile_suffix _).subset (ih later))

/-- A word that a text begins with is the beginning of its first field. -/
theorem prefix_field_of_prefix {n : Nat} {s field p : Text} {rest : List Text} (h : Word p)
    (fields : splitMax (n + 1) s = field :: rest) (starts : p <+: s) : p <+: field := by
  obtain ⟨t, rfl⟩ := starts
  rw [splitMax, dropSpaces_word h] at fields
  split at fields
  · cases fields
  · obtain ⟨hfield, -⟩ := List.cons.inj fields
    rw [← hfield, List.takeWhile_append_of_pos fun c hc => notSpace_eq_true.mpr (h.2 c hc)]
    exact List.prefix_append _ _

/-- A text of three fields splits into two when it is split once. -/
theorem splitMax_one_of_two {s first second third : Text}
    (h : splitMax 2 s = [first, second, third]) : ∃ rest, splitMax 1 s = [first, rest] := by
  cases stripped : s.dropWhile isSpace with
  | nil => simp [splitMax, stripped] at h
  | cons c cs =>
      simp only [splitMax, stripped, List.cons.injEq] at h ⊢
      obtain ⟨hfirst, tail⟩ := h
      cases remains : ((c :: cs).dropWhile notSpace).dropWhile isSpace with
      | nil => simp [remains] at tail
      | cons d ds => exact ⟨d :: ds, hfirst, rfl⟩

/-- `s.split() == [s]` accepts exactly the words. -/
theorem split_eq_singleton_iff {s : Text} : split s = [s] ↔ Word s := by
  constructor
  · intro h
    unfold split at h
    cases s with
    | nil => simp [splitMax] at h
    | cons c cs => exact splitMax_head_word h
  · exact splitMax_word _

/-- Two texts that agree up to the first space begin with the same word. -/
theorem word_eq_of_prefix {v w s t : Text} (hv : ' ' ∉ v) (hw : ' ' ∉ w)
    (h : v ++ ' ' :: s <+: w ++ ' ' :: t) : v = w := by
  induction v generalizing w with
  | nil =>
      cases w with
      | nil => rfl
      | cons d w =>
          rw [List.nil_append, List.cons_append, List.cons_prefix_cons] at h
          exact absurd (h.1 ▸ List.mem_cons_self) hw
  | cons c v ih =>
      cases w with
      | nil =>
          rw [List.nil_append, List.cons_append, List.cons_prefix_cons] at h
          exact absurd (h.1 ▸ List.mem_cons_self) hv
      | cons d w =>
          rw [List.cons_append, List.cons_append, List.cons_prefix_cons] at h
          rw [h.1, ih (fun m => hv (List.mem_cons_of_mem _ m))
            (fun m => hw (List.mem_cons_of_mem _ m)) h.2]

/-! ## Commands and their arguments -/

/-- Whitespace between two fields. -/
def Gap (gap : Text) : Prop := gap ≠ [] ∧ ∀ c ∈ gap, isSpace c = true

/-- A text that does not begin with whitespace. -/
def Trimmed (s : Text) : Prop := ∃ c rest, s = c :: rest ∧ isSpace c = false

theorem Word.trimmed {w : Text} (h : Word w) (s : Text) : Trimmed (w ++ s) := by
  cases w with
  | nil => exact absurd rfl h.1
  | cons c rest => exact ⟨c, rest ++ s, rfl, h.2 c List.mem_cons_self⟩

theorem splitMax_gap (n : Nat) {gap : Text} (h : ∀ c ∈ gap, isSpace c = true) (s : Text) :
    splitMax n (gap ++ s) = splitMax n s := by
  induction gap with
  | nil => rfl
  | cons c gap ih =>
      rw [List.cons_append, splitMax_strip n _ (h c List.mem_cons_self)]
      exact ih fun d inside => h d (List.mem_cons_of_mem _ inside)

theorem splitMax_word_gap (n : Nat) {w gap : Text} (hw : Word w) (hgap : Gap gap) (s : Text) :
    splitMax (n + 1) (w ++ gap ++ s) = w :: splitMax n s := by
  obtain ⟨nonempty, spaces⟩ := hgap
  cases gap with
  | nil => exact absurd rfl nonempty
  | cons c gap =>
      rw [List.append_assoc, List.cons_append,
        splitMax_word_space n _ hw (spaces c List.mem_cons_self),
        splitMax_gap n fun d inside => spaces d (List.mem_cons_of_mem _ inside)]

/-- A field with another one after it: the field, whitespace, and the text of the others. -/
theorem splitMax_cons {n : Nat} {s field : Text} {rest : List Text} (trimmed : Trimmed s)
    (fields : splitMax (n + 1) s = field :: rest) (more : rest ≠ []) :
    ∃ gap tail, Gap gap ∧ Trimmed tail ∧ s = field ++ gap ++ tail ∧ splitMax n tail = rest := by
  obtain ⟨c, cs, rfl, head⟩ := trimmed
  rw [splitMax, dropSpaces_of_head head] at fields
  obtain ⟨hfield, hrest⟩ := List.cons.inj fields
  obtain ⟨after, left⟩ : ∃ after, (c :: cs).dropWhile notSpace = after := ⟨_, rfl⟩
  rw [left] at hrest
  have whole : field ++ after = c :: cs := by
    rw [← hfield, ← left]
    exact List.takeWhile_append_dropWhile
  have spaces : ∀ d ∈ after.takeWhile isSpace, isSpace d = true :=
    fun d inside => List.mem_takeWhile_imp inside
  have parts : after.takeWhile isSpace ++ after.dropWhile isSpace = after :=
    List.takeWhile_append_dropWhile
  have tail : splitMax n (after.dropWhile isSpace) = rest := by
    rw [← hrest, ← splitMax_gap n spaces, parts]
  cases found : after.dropWhile isSpace with
  | nil =>
      refine absurd ?_ more
      rw [← tail, found]
      cases n <;> rfl
  | cons d ds =>
      have stop : isSpace d = false := by
        have head := List.head_dropWhile_not isSpace (l := after) (by rw [found]; simp)
        simpa [found] using head
      refine ⟨after.takeWhile isSpace, d :: ds, ⟨?_, spaces⟩, ⟨d, ds, rfl, stop⟩, ?_, ?_⟩
      · intro empty
        rw [empty, found, List.nil_append] at parts
        have ends := List.head_dropWhile_not notSpace (l := c :: cs) (by rw [left, ← parts]; simp)
        simp only [left, ← parts, List.head_cons] at ends
        simp [notSpace, stop] at ends
      · rw [← whole, List.append_assoc, ← found, parts]
      · rw [← found]
        exact tail

/-- The text is the word `name`, whitespace, and the word `arg`. -/
def IsCommand (name arg msg : Text) : Prop :=
  Word arg ∧ ∃ gap, Gap gap ∧ msg = name ++ gap ++ arg

/-- The text is the word `name`, the word `arg` and more, separated by whitespace. -/
def IsCommandWith (name arg payload msg : Text) : Prop :=
  Word arg ∧ Trimmed payload ∧
    ∃ gap gap', Gap gap ∧ Gap gap' ∧ msg = name ++ gap ++ (arg ++ gap' ++ payload)

theorem isCommand_iff {name arg msg : Text} (hname : Word name) :
    IsCommand name arg msg ↔ name <+: msg ∧ splitMax 1 msg = [name, arg] ∧ Word arg := by
  constructor
  · rintro ⟨word, gap, hgap, rfl⟩
    refine ⟨⟨gap ++ arg, (List.append_assoc _ _ _).symm⟩, ?_, word⟩
    rw [splitMax_word_gap 0 hname hgap, splitMax_word 0 word]
  · rintro ⟨⟨rest, rfl⟩, fields, word⟩
    obtain ⟨gap, tail, hgap, ⟨c, cs, rfl, head⟩, same, last⟩ :=
      splitMax_cons (hname.trimmed rest) fields (by simp)
    rw [splitMax_zero cs head] at last
    cases last
    exact ⟨word, gap, hgap, same⟩

theorem isCommandWith_iff {name arg payload msg : Text} (hname : Word name) :
    IsCommandWith name arg payload msg ↔
      name <+: msg ∧ splitMax 2 msg = [name, arg, payload] := by
  constructor
  · rintro ⟨word, ⟨c, cs, rfl, head⟩, gap, gap', hgap, hgap', rfl⟩
    refine ⟨⟨gap ++ (arg ++ gap' ++ c :: cs), (List.append_assoc _ _ _).symm⟩, ?_⟩
    rw [splitMax_word_gap 1 hname hgap, splitMax_word_gap 0 word hgap', splitMax_zero cs head]
  · rintro ⟨⟨rest, rfl⟩, fields⟩
    obtain ⟨gap, tail, hgap, trimmed, same, others⟩ :=
      splitMax_cons (hname.trimmed rest) fields (by simp)
    have word : Word arg := splitMax_head_word others
    obtain ⟨gap', last, hgap', ⟨c, cs, rfl, head⟩, rfl, payloads⟩ :=
      splitMax_cons trimmed others (by simp)
    rw [splitMax_zero cs head] at payloads
    cases payloads
    exact ⟨word, ⟨c, cs, rfl, head⟩, gap, gap', hgap, hgap', same⟩

/-- Two fields of which the second is a word: a command behind optional whitespace. -/
theorem splitMax_one_eq_pair_iff {name arg msg : Text} (hname : Word name) :
    splitMax 1 msg = [name, arg] ∧ Word arg ↔
      ∃ lead text, (∀ c ∈ lead, isSpace c = true) ∧ msg = lead ++ text ∧
        IsCommand name arg text := by
  constructor
  · rintro ⟨fields, word⟩
    have spaces : ∀ c ∈ msg.takeWhile isSpace, isSpace c = true :=
      fun c inside => List.mem_takeWhile_imp inside
    have parts : msg.takeWhile isSpace ++ msg.dropWhile isSpace = msg :=
      List.takeWhile_append_dropWhile
    refine ⟨_, _, spaces, parts.symm, ?_⟩
    rw [← parts, splitMax_gap 1 spaces] at fields
    cases stripped : msg.dropWhile isSpace with
    | nil =>
        rw [stripped] at fields
        cases fields
    | cons c rest =>
        have head : isSpace c = false := by
          have stop := List.head_dropWhile_not isSpace (l := msg) (by rw [stripped]; simp)
          simpa [stripped] using stop
        rw [stripped] at fields
        obtain ⟨gap, tail, -, -, same, -⟩ := splitMax_cons ⟨c, rest, rfl, head⟩ fields (by simp)
        refine (isCommand_iff hname).mpr ⟨?_, fields, word⟩
        rw [same, List.append_assoc]
        exact List.prefix_append _ _
  · rintro ⟨lead, text, spaces, rfl, command⟩
    rw [splitMax_gap 1 spaces]
    exact ((isCommand_iff hname).mp command).2

end PyText

end GstWebrtc.Base
