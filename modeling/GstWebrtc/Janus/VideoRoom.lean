import GstWebrtc.Base.PyLines

/-!
# Candidates in the answer of the video room

`extract_ice_from_sdp` looks for candidates in the lines of an answer and counts
the media sections before them.  The lines that it looks at are the pieces that
`splitlines` leaves of the lines of the SDP.
-/

namespace GstWebrtc.Janus

open GstWebrtc.Base GstWebrtc.Base.PyText

/-- The arguments of `add-ice-candidate`. -/
structure IceCandidate where
  mlineindex : Int
  candidate : Text
  deriving DecidableEq

def isCandidate (line : Text) : Bool := startsWith line "a=candidate".toList

def isMedia (line : Text) : Bool := startsWith line "m=".toList

/-- The loop of `extract_ice_from_sdp` over the lines that are left. -/
def extractFrom : Int → List Text → List IceCandidate
  | _, [] => []
  | mlineindex, line :: rest =>
      if isCandidate line then
        -- a candidate before any m= line is printed and passed over
        if mlineindex < 0 then extractFrom mlineindex rest
        else ⟨mlineindex, line.drop 2⟩ :: extractFrom mlineindex rest
      else if isMedia line then extractFrom (mlineindex + 1) rest
      else extractFrom mlineindex rest

/-- The calls of `add-ice-candidate` that `extract_ice_from_sdp` makes. -/
def extractIceFromSdp (sdp : Text) : List IceCandidate := extractFrom (-1) (splitlines sdp)

/-! ## What is documented -/

/-- A line of an SDP. -/
structure SdpLine where
  content : Text
  ended : LineEnd
  valid : ∀ c ∈ content, c ≠ '\x00' ∧ c ≠ '\r' ∧ c ≠ '\n'

def sdpText (lines : List SdpLine) : Text :=
  lines.flatMap fun line => line.content ++ line.ended.text

/-- The call for the line at a position, if it is a candidate behind an `m=` line. -/
def callAt (lines : List Text) (line : Text) (i : Nat) : Option IceCandidate :=
  let sections := (lines.take i).countP isMedia
  if isCandidate line ∧ 0 < sections then some ⟨(sections : Int) - 1, line.drop 2⟩ else none

/-- One call for each candidate behind an `m=` line, with the number of its section. -/
def documentedCalls (lines : List Text) : List IceCandidate :=
  lines.zipIdx.filterMap fun entry => callAt lines entry.1 entry.2

/-- A piece of a line; the first one begins where the line does. -/
structure Piece where
  text : Text
  line : Text
  first : Bool

/-- The pieces that `splitlines` makes of a line. -/
def pieces (line : Text) : List Piece :=
  match line.splitOnP isLineBreak with
  | [] => []
  | head :: others => ⟨head, line, true⟩ :: others.map fun text => ⟨text, line, false⟩

def Piece.Whole (piece : Piece) : Prop := piece.first = true ∧ piece.text = piece.line

/-- An `m=` piece before a candidate piece begins its line, and the candidate is a whole line. -/
def Undisturbed (lines : List Text) : Prop :=
  (lines.flatMap pieces).Pairwise fun piece later =>
    isMedia piece.text = true → isCandidate later.text = true → piece.first = true ∧ later.Whole

/-! ## Lines that are whole -/

variable {m m' : Int} {line : Text} {rest lines : List Text}

theorem isMedia_of_isCandidate (candidate : isCandidate line = true) : isMedia line = false := by
  cases media : isMedia line with
  | false => rfl
  | true =>
      rcases List.prefix_or_prefix_of_prefix (startsWith_iff.mp candidate)
        (startsWith_iff.mp media) with before | after
      · exact absurd before (by decide)
      · exact absurd after (by decide)

theorem extractFrom_early (candidate : isCandidate line = true) (early : m < 0) :
    extractFrom m (line :: rest) = extractFrom m rest := by
  rw [extractFrom, if_pos candidate, if_pos early]

theorem extractFrom_candidate (candidate : isCandidate line = true) (behind : 0 ≤ m) :
    extractFrom m (line :: rest) = ⟨m, line.drop 2⟩ :: extractFrom m rest := by
  rw [extractFrom, if_pos candidate, if_neg (Int.not_lt.mpr behind)]

theorem extractFrom_media (media : isMedia line = true) :
    extractFrom m (line :: rest) = extractFrom (m + 1) rest := by
  have other : isCandidate line ≠ true := by
    intro candidate
    rw [isMedia_of_isCandidate candidate] at media
    cases media
  rw [extractFrom, if_neg other, if_pos media]

theorem extractFrom_other (candidate : isCandidate line = false) (media : isMedia line = false) :
    extractFrom m (line :: rest) = extractFrom m rest := by
  rw [extractFrom, candidate, media, if_neg Bool.false_ne_true, if_neg Bool.false_ne_true]

/-- The running index is the number of `m=` lines passed, minus one. -/
theorem extractFrom_eq (before rest : List Text) :
    extractFrom ((before.countP isMedia : Int) - 1) rest =
      (rest.zipIdx before.length).filterMap fun entry =>
        callAt (before ++ rest) entry.1 entry.2 := by
  induction rest generalizing before with
  | nil => rfl
  | cons line rest ih =>
      have tail := ih (before ++ [line])
      rw [List.append_assoc, List.singleton_append, List.length_append, List.length_singleton,
        List.countP_append, List.countP_singleton] at tail
      have here : callAt (before ++ line :: rest) line before.length =
          if isCandidate line ∧ 0 < before.countP isMedia then
            some ⟨(before.countP isMedia : Int) - 1, line.drop 2⟩ else none := by
        rw [callAt, List.take_left]
      rw [List.zipIdx_cons, List.filterMap_cons, here, ← tail]
      cases candidate : isCandidate line with
      | true =>
          rw [isMedia_of_isCandidate candidate, if_neg Bool.false_ne_true, Nat.add_zero]
          split
          · next none =>
              have early : ¬ 0 < before.countP isMedia := by
                intro behind
                rw [if_pos ⟨rfl, behind⟩] at none
                cases none
              exact extractFrom_early candidate (by omega)
          · next call some =>
              split at some
              · next behind =>
                  cases some
                  exact extractFrom_candidate candidate (by omega)
              · cases some
      | false =>
          rw [if_neg (by simp)]
          cases media : isMedia line with
          | true =>
              rw [extractFrom_media media, if_pos rfl]
              congr 1
              omega
          | false => rw [extractFrom_other candidate media, if_neg Bool.false_ne_true, Nat.add_zero]

theorem extractFrom_documented (lines : List Text) :
    extractFrom (-1) lines = documentedCalls lines := extractFrom_eq [] lines

/-! ## Lines in pieces -/

/-- The lines that begin with the pieces. -/
def ownLines (ps : List Piece) : List Text :=
  (ps.filter Piece.first).map Piece.line

/-- The first piece of a line tells what the line begins with. -/
def Piece.Tells (piece : Piece) : Prop :=
  piece.first = true →
    isCandidate piece.line = isCandidate piece.text ∧ isMedia piece.line = isMedia piece.text

theorem startsWith_head {line piece literal : Text} {others : List Text}
    (noBreak : ∀ c ∈ literal, isLineBreak c = false)
    (split : line.splitOnP isLineBreak = piece :: others) :
    startsWith line literal = startsWith piece literal := by
  rw [Bool.eq_iff_iff, startsWith_iff, startsWith_iff]
  exact prefix_head_splitOnP noBreak split

theorem pieces_eq (line : Text) : ∃ head others,
    line.splitOnP isLineBreak = head :: others ∧
      pieces line = ⟨head, line, true⟩ :: others.map fun text => ⟨text, line, false⟩ := by
  obtain ⟨head, others, split⟩ :=
    List.exists_cons_of_ne_nil (List.splitOnP_ne_nil isLineBreak line)
  refine ⟨head, others, split, ?_⟩
  rw [pieces, split]

theorem pieces_text (line : Text) :
    (pieces line).map Piece.text = line.splitOnP isLineBreak := by
  obtain ⟨head, others, split, same⟩ := pieces_eq line
  rw [same, split, List.map_cons, List.map_map]
  exact congrArg _ (List.map_id' others)

theorem pieces_ownLines (line : Text) : ownLines (pieces line) = [line] := by
  obtain ⟨head, others, -, same⟩ := pieces_eq line
  have no : (others.map fun text => (⟨text, line, false⟩ : Piece)).filter Piece.first = [] := by
    rw [List.filter_eq_nil_iff]
    intro piece inside
    obtain ⟨text, -, rfl⟩ := List.mem_map.mp inside
    exact Bool.false_ne_true
  rw [ownLines, same, List.filter_cons_of_pos rfl, no]
  rfl

theorem pieces_tells (line : Text) : ∀ piece ∈ pieces line, piece.Tells := by
  obtain ⟨head, others, split, same⟩ := pieces_eq line
  rw [same, List.forall_mem_cons]
  constructor
  · intro _
    have noBreak : (∀ c ∈ "a=candidate".toList, isLineBreak c = false) ∧
        ∀ c ∈ "m=".toList, isLineBreak c = false := by simp [isLineBreak, lineBreaks]
    exact ⟨startsWith_head noBreak.1 split, startsWith_head noBreak.2 split⟩
  · intro piece inside first
    obtain ⟨text, -, rfl⟩ := List.mem_map.mp inside
    cases first

theorem ownLines_flatMap (lines : List Text) : ownLines (lines.flatMap pieces) = lines := by
  induction lines with
  | nil => rfl
  | cons line rest ih =>
      rw [ownLines] at ih
      rw [List.flatMap_cons, ownLines, List.filter_append, List.map_append, ih, ← ownLines,
        pieces_ownLines, List.singleton_append]

/-- The lines that the code sees are the pieces of the lines of the SDP. -/
theorem splitlines_sdpText (lines : List SdpLine) :
    splitlines (sdpText lines) =
      ((lines.map SdpLine.content).flatMap pieces).map Piece.text := by
  have noCr : ∀ line ∈ lines.map fun line => (line.content, line.ended), '\r' ∉ line.1 := by
    intro line inside
    obtain ⟨whole, -, rfl⟩ := List.mem_map.mp inside
    exact fun cr => (whole.valid '\r' cr).2.1 rfl
  have split := splitlines_lines (lines.map fun line => (line.content, line.ended)) noCr
  rw [List.flatMap_map, List.flatMap_map] at split
  rw [sdpText, split, List.map_flatMap, List.flatMap_map]
  simp only [pieces_text]

/-! ## The calls for pieces -/

section Calls

variable {ps : List Piece} {piece : Piece}

theorem ownLines_cons_first (first : piece.first = true) :
    ownLines (piece :: ps) = piece.line :: ownLines ps := by
  rw [ownLines, List.filter_cons_of_pos first, List.map_cons, ownLines]

theorem ownLines_cons_later (later : piece.first = false) :
    ownLines (piece :: ps) = ownLines ps := by
  rw [ownLines, List.filter_cons_of_neg (by rw [later]; exact Bool.false_ne_true), ownLines]

theorem length_extractFrom_le (m : Int) (lines : List Text) :
    (extractFrom m lines).length ≤ lines.countP isCandidate := by
  induction lines generalizing m with
  | nil => exact Nat.le_refl _
  | cons line rest ih =>
      rw [extractFrom, List.countP_cons]
      split
      · split
        · exact (ih m).trans (Nat.le_add_right _ _)
        · exact Nat.add_le_add_right (ih m) 1
      · split
        · exact ih (m + 1)
        · exact ih m

/-- Behind an `m=` line every candidate gives a call. -/
theorem length_extractFrom (behind : 0 ≤ m) (lines : List Text) :
    (extractFrom m lines).length = lines.countP isCandidate := by
  induction lines generalizing m with
  | nil => rfl
  | cons line rest ih =>
      rw [extractFrom, List.countP_cons, if_neg (Int.not_lt.mpr behind)]
      split
      · exact congrArg (· + 1) (ih behind)
      · split
        · exact ih (by omega)
        · exact ih behind

theorem countP_ownLines_le (tells : ∀ piece ∈ ps, piece.Tells) :
    (ownLines ps).countP isCandidate ≤ (ps.map Piece.text).countP isCandidate := by
  induction ps with
  | nil => exact Nat.le_refl _
  | cons piece ps ih =>
      rw [List.forall_mem_cons] at tells
      rw [List.map_cons, List.countP_cons]
      cases first : piece.first with
      | true =>
          rw [ownLines_cons_first first, List.countP_cons, (tells.1 first).1]
          exact Nat.add_le_add_right (ih tells.2) _
      | false =>
          rw [ownLines_cons_later first]
          exact (ih tells.2).trans (Nat.le_add_right _ _)

/-- A call too many is not made up for later. -/
theorem call_too_many (tells : ∀ piece ∈ ps, piece.Tells) (behind : 0 ≤ m) (call : IceCandidate)
    (m' : Int) : call :: extractFrom m (ps.map Piece.text) ≠ extractFrom m' (ownLines ps) := by
  intro same
  have lengths := congrArg List.length same
  rw [List.length_cons, length_extractFrom behind] at lengths
  have bound := length_extractFrom_le m' (ownLines ps)
  have fewer := countP_ownLines_le tells
  omega

theorem text_step (other : isCandidate line = false) :
    extractFrom m (line :: rest) = extractFrom (if isMedia line then m + 1 else m) rest := by
  cases media : isMedia line with
  | true => exact extractFrom_media media
  | false => exact extractFrom_other other media

theorem own_step (tells : piece.Tells) (other : isCandidate piece.text = false) :
    extractFrom m (ownLines (piece :: ps)) =
      extractFrom (if piece.first && isMedia piece.text then m + 1 else m) (ownLines ps) := by
  cases first : piece.first with
  | true =>
      obtain ⟨candidate, media⟩ := tells first
      rw [ownLines_cons_first first, text_step (candidate.trans other), media, Bool.true_and]
  | false => rw [ownLines_cons_later first]; rfl

/-- Once the code is ahead of the sections, only a text without candidates is read alike. -/
theorem ahead_iff (tells : ∀ piece ∈ ps, piece.Tells) (ahead : m' < m) (behind : 0 ≤ m) :
    extractFrom m (ps.map Piece.text) = extractFrom m' (ownLines ps) ↔
      ∀ piece ∈ ps, isCandidate piece.text = false := by
  induction ps generalizing m m' with
  | nil => exact iff_of_true rfl (by simp)
  | cons piece ps ih =>
      rw [List.forall_mem_cons] at tells
      rw [List.map_cons, List.forall_mem_cons]
      cases candidate : isCandidate piece.text with
      | true =>
          rw [extractFrom_candidate candidate behind]
          refine iff_of_false ?_ (fun none => by cases none.1)
          cases first : piece.first with
          | false =>
              rw [ownLines_cons_later first]
              exact call_too_many tells.2 behind _ _
          | true =>
              have own := (tells.1 first).1.trans candidate
              rw [ownLines_cons_first first]
              rcases Int.lt_or_le m' 0 with early | late
              · rw [extractFrom_early own early]
                exact call_too_many tells.2 behind _ _
              · rw [extractFrom_candidate own late]
                intro same
                have index := congrArg IceCandidate.mlineindex (List.cons.inj same).1
                exact Int.ne_of_lt ahead index.symm
      | false =>
          rw [text_step candidate, own_step tells.1 candidate, and_iff_right rfl]
          refine ih tells.2 ?_ ?_
          · cases isMedia piece.text <;> cases piece.first <;> simp <;> omega
          · split <;> omega

theorem drop_eq_iff {text : Text} (candidate : isCandidate text = true)
    (own : isCandidate line = true) : text.drop 2 = line.drop 2 ↔ text = line := by
  obtain ⟨rest, rfl⟩ := startsWith_iff.mp candidate
  obtain ⟨rest', rfl⟩ := startsWith_iff.mp own
  rw [List.drop_append_of_le_length (by decide), List.drop_append_of_le_length (by decide),
    List.append_cancel_left_eq, List.append_cancel_left_eq]

/-- A candidate piece is read as its own line exactly when it is the whole line. -/
theorem candidate_step (tells : ∀ other ∈ piece :: ps, other.Tells)
    (candidate : isCandidate piece.text = true) (behind : 0 ≤ m) :
    extractFrom m ((piece :: ps).map Piece.text) = extractFrom m (ownLines (piece :: ps)) ↔
      piece.Whole ∧ extractFrom m (ps.map Piece.text) = extractFrom m (ownLines ps) := by
  rw [List.forall_mem_cons] at tells
  rw [List.map_cons, extractFrom_candidate candidate behind, Piece.Whole]
  cases first : piece.first with
  | false =>
      rw [ownLines_cons_later first]
      refine iff_of_false (call_too_many tells.2 behind _ _) ?_
      rintro ⟨⟨whole, -⟩, -⟩
      cases whole
  | true =>
      have own := (tells.1 first).1.trans candidate
      rw [ownLines_cons_first first, extractFrom_candidate own behind, List.cons.injEq,
        IceCandidate.mk.injEq, and_iff_right rfl, drop_eq_iff candidate own, and_iff_right rfl]

/-- Before the first `m=` line a candidate is passed over. -/
theorem early_step (tells : piece.Tells) (candidate : isCandidate piece.text = true)
    (early : m < 0) : extractFrom m (ownLines (piece :: ps)) = extractFrom m (ownLines ps) := by
  cases first : piece.first with
  | true =>
      rw [ownLines_cons_first first, extractFrom_early ((tells first).1.trans candidate) early]
  | false => rw [ownLines_cons_later first]

/-- While the two counts agree, the calls agree exactly when no piece disturbs a later one. -/
theorem abreast_iff (tells : ∀ piece ∈ ps, piece.Tells) (start : -1 ≤ m) :
    extractFrom m (ps.map Piece.text) = extractFrom m (ownLines ps) ↔
      (0 ≤ m → ∀ piece ∈ ps, isCandidate piece.text = true → piece.Whole) ∧
        ps.Pairwise fun piece later => isMedia piece.text = true →
          isCandidate later.text = true → piece.first = true ∧ later.Whole := by
  induction ps generalizing m with
  | nil => exact iff_of_true rfl (by simp)
  | cons piece ps ih =>
      have tail := (List.forall_mem_cons.mp tells).2
      have head := (List.forall_mem_cons.mp tells).1
      rw [List.pairwise_cons, List.forall_mem_cons]
      cases candidate : isCandidate piece.text with
      | true =>
          have quiet : ∀ later ∈ ps, isMedia piece.text = true →
              isCandidate later.text = true → piece.first = true ∧ later.Whole := by
            intro later _ media
            rw [isMedia_of_isCandidate candidate] at media
            cases media
          rw [and_iff_right quiet]
          rcases Int.lt_or_le m 0 with early | behind
          · rw [List.map_cons, extractFrom_early candidate early, early_step head candidate early,
              ih tail start]
            simp only [Int.not_le.mpr early, false_imp_iff]
          · rw [candidate_step tells candidate behind, ih tail start]
            simp only [behind, true_imp_iff, and_assoc]
      | false =>
          rw [List.map_cons, text_step candidate, own_step head candidate]
          cases media : isMedia piece.text with
          | false =>
              rw [Bool.and_false, if_neg Bool.false_ne_true, ih tail start]
              simp
          | true =>
              cases first : piece.first with
              | true =>
                  rw [Bool.and_self, if_pos rfl, ih tail (by omega)]
                  constructor
                  · rintro ⟨whole, apart⟩
                    have all := whole (by omega)
                    exact ⟨fun _ => ⟨nofun, all⟩,
                      fun later inside _ call => ⟨rfl, all later inside call⟩, apart⟩
                  · rintro ⟨-, whole, apart⟩
                    exact ⟨fun _ later inside call => (whole later inside rfl call).2, apart⟩
              | false =>
                  rw [Bool.false_and, if_pos rfl, if_neg Bool.false_ne_true,
                    ahead_iff tail (by omega) (by omega)]
                  constructor
                  · intro none
                    have no : ∀ later ∈ ps, isCandidate later.text ≠ true := by
                      intro later inside call
                      rw [none later inside] at call
                      cases call
                    exact ⟨fun _ => ⟨nofun, fun later inside call => absurd call (no later inside)⟩,
                      fun later inside _ call => absurd call (no later inside),
                      List.pairwise_of_forall_mem_list
                        fun _ _ later inside _ call => absurd call (no later inside)⟩
                  · rintro ⟨-, whole, -⟩ later inside
                    rw [← Bool.not_eq_true]
                    intro call
                    cases (whole later inside rfl call).1

end Calls

/--
The calls are the documented ones exactly when no `m=` piece that does not begin
its line is before a candidate, and no candidate behind an `m=` piece is broken.
-/
theorem extract_ice_iff (lines : List SdpLine) :
    extractIceFromSdp (sdpText lines) = documentedCalls (lines.map SdpLine.content) ↔
      Undisturbed (lines.map SdpLine.content) := by
  have tells : ∀ piece ∈ (lines.map SdpLine.content).flatMap pieces, piece.Tells := by
    intro piece inside
    obtain ⟨line, -, here⟩ := List.mem_flatMap.mp inside
    exact pieces_tells line piece here
  have same := abreast_iff tells (Int.le_refl (-1))
  rw [ownLines_flatMap] at same
  rw [extractIceFromSdp, splitlines_sdpText, ← extractFrom_documented, same, Undisturbed]
  exact and_iff_right fun behind => absurd behind (by decide)

theorem separatedName_valid :
    (∀ c ∈ "m=audio 9".toList, c ≠ '\x00' ∧ c ≠ '\r' ∧ c ≠ '\n') ∧
    ∀ c ∈ "s=-\u2028a=candidate:1".toList, c ≠ '\x00' ∧ c ≠ '\r' ∧ c ≠ '\n' := by simp

/-- A line feed of another kind (U+2028) in the name of the session begins a candidate. -/
def separatedName : List SdpLine :=
  [⟨"m=audio 9".toList, .crlf, separatedName_valid.1⟩,
    ⟨"s=-\u2028a=candidate:1".toList, .crlf, separatedName_valid.2⟩]

theorem separated_name_is_a_candidate :
    extractIceFromSdp (sdpText separatedName) ≠
      documentedCalls (separatedName.map SdpLine.content) := by decide

/-- Lines without other line breaks are read as they are documented. -/
theorem extract_ice_of_unbroken (lines : List SdpLine)
    (unbroken : ∀ line ∈ lines, ∀ c ∈ line.content, isLineBreak c = false) :
    extractIceFromSdp (sdpText lines) = documentedCalls (lines.map SdpLine.content) := by
  have whole : (lines.map SdpLine.content).flatMap (fun line => (pieces line).map Piece.text) =
      lines.map SdpLine.content := by
    rw [List.flatMap_map]
    induction lines with
    | nil => rfl
    | cons line rest ih =>
        rw [List.forall_mem_cons] at unbroken
        rw [List.flatMap_cons, List.map_cons, ih unbroken.2, pieces_text,
          List.splitOnP_eq_singleton unbroken.1, List.singleton_append]
  rw [extractIceFromSdp, splitlines_sdpText, List.map_flatMap, whole, extractFrom_documented]

end GstWebrtc.Janus
