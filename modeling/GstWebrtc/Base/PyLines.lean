import GstWebrtc.Base.PyText

/-!
# Lines of Python strings

`str.splitlines()` ends a line at more characters than the line ends of text
protocols.  A line of such a protocol is split once more at those in it.
-/

namespace GstWebrtc.Base.PyText

/-- The code points at which `str.splitlines()` ends a line. -/
def lineBreaks : List Nat :=
  [0x0A, 0x0B, 0x0C, 0x0D, 0x1C, 0x1D, 0x1E, 0x85, 0x2028, 0x2029]

def isLineBreak (c : Char) : Bool := lineBreaks.contains c.toNat

/--
The lines of a text, where `line` has been read of the current one and
`afterCr` tells that the line before it was ended by a carriage return.
-/
def linesFrom : Bool → Text → Text → List Text
  | _, line, [] => if line.isEmpty then [] else [line]
  | afterCr, line, c :: rest =>
      -- the second character of CR LF
      if afterCr && c == '\n' then linesFrom false line rest
      else if isLineBreak c then line :: linesFrom (c == '\r') [] rest
      else linesFrom false (line ++ [c]) rest

/-- `s.splitlines()`. -/
def splitlines (s : Text) : List Text := linesFrom false [] s

/-- The line ends of text protocols. -/
inductive LineEnd where
  | lf
  | crlf
  deriving DecidableEq

def LineEnd.text : LineEnd → Text
  | .lf => ['\n']
  | .crlf => ['\r', '\n']

theorem linesFrom_end (line : Text) (ended : LineEnd) (rest : Text) :
    linesFrom false line (ended.text ++ rest) = line :: linesFrom false [] rest := by
  cases ended <;> rfl

/-- The breaks inside a line split it, whatever ends it. -/
theorem linesFrom_line {content : Text} (noCr : '\r' ∉ content) (line : Text) (ended : LineEnd)
    (rest : Text) :
    linesFrom false line (content ++ (ended.text ++ rest)) =
      (content.splitOnP isLineBreak).modifyHead (line ++ ·) ++ linesFrom false [] rest := by
  induction content generalizing line with
  | nil =>
      rw [List.nil_append, linesFrom_end, List.splitOnP_nil, List.modifyHead_cons,
        List.append_nil, List.singleton_append]
  | cons c content ih =>
      rw [List.mem_cons, not_or] at noCr
      have tail := ih noCr.2
      rw [List.cons_append, linesFrom, Bool.false_and, if_neg Bool.false_ne_true,
        List.splitOnP_cons_eq_if_modifyHead]
      split
      · have unchanged : (fun before => [] ++ before : Text → Text) = id :=
          funext List.nil_append
        rw [beq_eq_false_iff_ne.mpr fun same => noCr.1 same.symm, tail, unchanged,
          List.modifyHead_id, List.modifyHead_cons, List.append_nil, List.cons_append, id]
      · have extended : (fun before => line ++ [c] ++ before : Text → Text) =
            (line ++ ·) ∘ List.cons c :=
          funext fun before => List.append_assoc line [c] before
        rw [tail, List.modifyHead_modifyHead, extended]

/-- The lines of a text whose lines are ended by LF or CR LF. -/
theorem splitlines_lines (lines : List (Text × LineEnd))
    (noCr : ∀ line ∈ lines, '\r' ∉ line.1) :
    splitlines (lines.flatMap fun line => line.1 ++ line.2.text) =
      lines.flatMap fun line => line.1.splitOnP isLineBreak := by
  induction lines with
  | nil => rfl
  | cons line rest ih =>
      have tail := ih fun other inside => noCr other (List.mem_cons_of_mem _ inside)
      rw [splitlines] at tail ⊢
      rw [List.flatMap_cons, List.flatMap_cons, List.append_assoc,
        linesFrom_line (noCr line List.mem_cons_self), tail]
      exact congrArg (· ++ _) (congrFun List.modifyHead_id _)

/-- A text without breaks that a line begins with is the beginning of its first piece. -/
theorem prefix_head_splitOnP {content literal piece : Text} {pieces : List Text}
    (noBreak : ∀ c ∈ literal, isLineBreak c = false)
    (split : content.splitOnP isLineBreak = piece :: pieces) :
    literal <+: content ↔ literal <+: piece := by
  induction content generalizing literal piece with
  | nil =>
      cases split
      rfl
  | cons c content ih =>
      rw [List.splitOnP_cons_eq_if_modifyHead] at split
      cases literal with
      | nil => exact iff_of_true List.nil_prefix List.nil_prefix
      | cons d literal =>
          rw [List.forall_mem_cons] at noBreak
          split at split
          · next breaks =>
              cases split
              refine iff_of_false ?_ (by simp)
              intro starts
              rw [List.cons_prefix_cons] at starts
              rw [← starts.1, noBreak.1] at breaks
              cases breaks
          · obtain ⟨first, others, found⟩ :=
              List.exists_cons_of_ne_nil (List.splitOnP_ne_nil isLineBreak content)
            rw [found, List.modifyHead_cons] at split
            cases split
            rw [List.cons_prefix_cons, List.cons_prefix_cons, ih noBreak.2 found]

end GstWebrtc.Base.PyText
