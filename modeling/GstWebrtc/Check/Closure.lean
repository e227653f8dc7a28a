import GstWebrtc.Check.Steps

/-!
# Every order of the steps

The thread of the scenario, the callbacks of `webrtcbin`, the texts that arrive
and the promises of the page go on in any order.  What the two ends may come to
is closed under their steps, and so it is all that a test comes to.
-/

namespace GstWebrtc.Check

open GstWebrtc.Base GstWebrtc.Browser

/-! ## What the ends may come to -/

/-- Which of the two actions that ask for a description have been executed. -/
inductive Phase where
  | start
  | offering
  | answering

/-- The answer may be asked for. -/
def Met (initiator : Which) (c : ClientView) (p : PageView) : Prop :=
  .offerSet ∈ c.history ∨ initiator = .local ∧ .offerSet ∈ statesOf p.reports

theorem Met.mono {initiator : Which} {c c' : ClientView} {p p' : PageView}
    (met : Met initiator c p) (history : c.history <+: c'.history)
    (reports : p.reports <+: p'.reports) : Met initiator c' p' := by
  rcases met with own | ⟨rfl, told⟩
  · exact Or.inl (history.subset own)
  · exact Or.inr ⟨rfl, (reports.filterMap _).subset told⟩

/-- The ends have the same offer and answer. -/
def Negotiated : Which → PeerConnection → PeerConnection → Prop
  | .local, client, page => ∃ o a,
      client = (Offerer.settled o a).connection ∧ page = (Answerer.settled o a).connection
  | .remote, client, page => ∃ o a,
      client = (Answerer.settled o a).connection ∧ page = (Offerer.settled o a).connection

/-- The ends have come to all that is waited for in the phase. -/
def Complete (initiator : Which) (c : ClientView) (p : PageView) : Phase → Prop
  | .start => True
  | .offering => ∀ awaited ∈ waitsBefore initiator, awaited.2 ∈ story c p awaited.1
  | .answering => (∀ awaited ∈ waitsAfter initiator, awaited.2 ∈ story c p awaited.1) ∧
      ∃ pc, p.connection = some pc ∧ Negotiated initiator c.connection pc

/-- What the ends may come to, with the steps that are left at them, is closed under their
steps. -/
structure Closed (initiator : Which) (At : Phase → ClientView → PageView → Nat → Prop) :
    Prop where
  start : At .start .new .load 17
  offers : ∀ {c p m}, At .start c p m → At .offering (c.ask .createOffer initiator) p m
  answers : ∀ {c p m}, At .offering c p m → Told c p → Met initiator c p →
    At .answering (c.ask .createAnswer initiator.other) p m
  pcThread : ∀ {phase c p m generated c'}, At phase c p m → c.pcThread generated = some c' →
    ∃ m', At phase c' p m' ∧ m' + 1 + c'.commands.length = m + c.commands.length
  hears : ∀ {phase c p m d}, At phase c p m → Told c p →
    c.received ++ [d] <+: descriptionsOf p.reports → At phase (c.hear d) p m
  takes : ∀ {phase c p m item}, At phase c p m → Told c p →
    p.received ++ [item] <+: c.commands → At phase c (p.take item) m
  waiting : ∀ {phase c p m p'}, At phase c p m → p.runWaiting = some p' →
    ∃ m', At phase c p' m' ∧ m' + 1 = m
  operate : ∀ {phase c p m generated p'}, At phase c p m → p.operate generated = some p' →
    ∃ m', At phase c p' m' ∧ m' + 1 + p'.reports.length = m + p.reports.length
  gathers : ∀ {phase c p m}, At phase c p m → c.connection.localDescription.isSome = true →
    ∃ d, .description d ∈ c.commands
  hearsCandidates : ∀ {phase c p m d}, At phase c p m → .description d ∈ p.received →
    ∃ pc, p.connection = some pc ∧ hearsCandidates pc = true
  ordered : ∀ {phase c p m}, At phase c p m →
    ∀ which, (story c p which).Sublist NegotiationState.order
  sound : ∀ {phase c p m}, At phase c p m →
    c.connection.Sound ∧ ∀ pc, p.connection = some pc → pc.Sound
  rest : ∀ {phase c p m}, At phase c p m → c.pcThread [] = none → p.runWaiting = none →
    p.operate [] = none → p.received = c.commands → c.received = descriptionsOf p.reports →
    Complete initiator c p phase

/-! ## A run -/

/-- The wait returns only when the answer may be asked for. -/
def Key (initiator : Which) (awaited : Which × NegotiationState) : Prop :=
  awaited = (initiator.other, .offerSet) ∨ initiator = .local ∧ awaited = (.local, .offerSet)

/-- What is left of the scenario. -/
inductive Reads (initiator : Which) (before after : List (Which × NegotiationState)) (met : Prop) :
    Phase → List Action → Prop where
  | start : Reads initiator before after met .start (offerAnswer initiator before after)
  | offering {gone rest} (split : before = gone ++ rest)
      (safe : ∀ awaited ∈ gone, Key initiator awaited → met) :
      Reads initiator before after met .offering
        (rest.map wait ++ .createAnswer initiator.other :: after.map wait)
  | answering {gone rest} (split : after = gone ++ rest) :
      Reads initiator before after met .answering (rest.map wait)

theorem Reads.mono {initiator : Which} {before after : List (Which × NegotiationState)}
    {met met' : Prop} {phase : Phase} {script : List Action}
    (reads : Reads initiator before after met phase script) (weaker : met → met') :
    Reads initiator before after met' phase script := by
  cases reads with
  | start => exact .start
  | offering split safe => exact .offering split fun x inside key => weaker (safe x inside key)
  | answering split => exact .answering split

theorem work_waits (waits : List (Which × NegotiationState)) :
    ((waits.map wait).map Action.work).sum = waits.length := by
  induction waits with
  | nil => rfl
  | cons awaited rest ih =>
      rw [List.map_cons, List.map_cons, List.sum_cons, ih, List.length_cons]
      exact Nat.add_comm _ _

theorem work_offerAnswer (initiator : Which) (before after : List (Which × NegotiationState)) :
    ((offerAnswer initiator before after).map Action.work).sum =
      3 + before.length + after.length := by
  rw [offerAnswer, List.map_cons, List.map_append, List.map_cons, List.sum_cons, List.sum_append,
    List.sum_cons, work_waits, work_waits]
  cases initiator <;> simp only [Action.work, Which.other] <;> omega

theorem finished {w : Test} (script : w.script = []) : w.step .scenario = none := by
  rw [Test.step]
  split
  · next here => cases script.symm.trans here
  · rfl

/-- How a test goes on, with the steps that are left. -/
inductive Goes (initiator : Which) (before after : List (Which × NegotiationState))
    (At : Phase → ClientView → PageView → Nat → Prop) (w : Test) : Nat → Prop where
  | mk {phase c p m} (ends : Ends w c p) (at' : At phase c p m)
      (reads : Reads initiator before after (Met initiator c p) phase w.script)
      (later : ∀ which, (waits which w.script).Sublist NegotiationState.order) :
      Goes initiator before after At w (w.queued + m)

namespace Goes

variable {initiator : Which} {before after : List (Which × NegotiationState)}
  {At : Phase → ClientView → PageView → Nat → Prop} {w w' : Test} {m : Nat}

theorem start (closed : Closed initiator At) (some_before : before.Sublist (waitsBefore initiator))
    (some_after : after.Sublist (waitsAfter initiator)) (title : Text)
    (options : List (Text × Json)) :
    Goes initiator before after At (test (offerAnswer initiator before after) title options).init
      (23 + before.length + after.length) := by
  have ends : Ends (test (offerAnswer initiator before after) title options).init .new .load :=
    { running := rfl
      listening := rfl
      connected := rfl
      webrtcbin := rfl
      callback := rfl
      peerConnection := rfl
      waiting := rfl
      down := ⟨[], .cons (pageReads_title title) (.cons (pageReads_options options) .nil), .nil _⟩
      up := ⟨[], [], .nil, rfl, rfl, .new _ _⟩
      watches := .new _ _ }
  have goes := Goes.mk ends closed.start .start (waits_offerAnswer some_before some_after)
  refine Eq.mp (congrArg _ ?_) goes
  rw [Test.queued, test, work_offerAnswer]
  simp only [List.length_cons, List.length_nil, streamWork, TestPage.load, Bool.false_eq_true,
    if_false]
  omega

/-- The next action of a scenario is executed, or its wait returns. -/
theorem scenario (closed : Closed initiator At) (enough : ∃ awaited ∈ before, Key initiator awaited)
    (goes : Goes initiator before after At w m) (fires : w.step .scenario = some w') :
    ∃ m', Goes initiator before after At w' m' ∧ m' + 1 = m := by
  obtain @⟨phase, c, p, k, ends, at', reads, later⟩ := goes
  have fewer (less : w'.script.Sublist w.script) :
      ∀ which, (waits which w'.script).Sublist NegotiationState.order :=
    fun which => (less.filterMap _).trans (later which)
  generalize whole : w.script = script at reads fewer
  cases reads with
  | start =>
      obtain ⟨next, steps, ends', rest, counts⟩ := ends.asks whole (.offer initiator)
      cases steps.symm.trans fires
      refine ⟨_, .mk ends' (closed.offers at') ?_ (fewer (rest ▸ List.sublist_cons_self _ _)),
        by omega⟩
      rw [rest]
      exact @Reads.offering _ _ _ _ [] before rfl (by simp)
  | @offering gone rest split safe =>
      cases rest with
      | nil =>
          obtain ⟨next, steps, ends', script, counts⟩ :=
            ends.asks whole (.answer initiator.other)
          cases steps.symm.trans fires
          obtain ⟨awaited, inside, key⟩ := enough
          rw [split, List.append_nil] at inside
          have answers := closed.answers at' ends.told (safe awaited inside key)
          refine ⟨_, .mk ends' answers ?_ (fewer (script ▸ List.sublist_cons_self _ _)), by omega⟩
          rw [script]
          exact @Reads.answering _ _ _ _ [] after rfl
      | cons awaited rest =>
          obtain ⟨ends', script, counts, come⟩ := ends.waits whole (closed.ordered at') later fires
          refine ⟨_, .mk ends' at' ?_ (fewer (script ▸ List.sublist_cons_self _ _)), by omega⟩
          rw [script]
          refine @Reads.offering _ _ _ _ (gone ++ [awaited]) rest (by simp [split])
            fun x inside key => ?_
          rcases List.mem_append.mp inside with earlier | now
          · exact safe x earlier key
          · cases List.mem_singleton.mp now
            rcases key with rfl | ⟨rfl, rfl⟩
            · cases initiator with
              | «local» => exact Or.inr ⟨rfl, come⟩
              | remote => exact Or.inl come
            · exact Or.inl come
  | @answering gone rest split =>
      cases rest with
      | nil => cases (finished whole).symm.trans fires
      | cons awaited rest =>
          obtain ⟨ends', script, counts, -⟩ := ends.waits whole (closed.ordered at') later fires
          refine ⟨_, .mk ends' at' ?_ (fewer (script ▸ List.sublist_cons_self _ _)), by omega⟩
          rw [script]
          exact @Reads.answering _ _ _ _ (gone ++ [awaited]) rest (by simp [split])

theorem step (closed : Closed initiator At) (enough : ∃ awaited ∈ before, Key initiator awaited)
    {act : Test.Act} (usual : act.Usual) (goes : Goes initiator before after At w m)
    (fires : w.step act = some w') :
    ∃ m', Goes initiator before after At w' m' ∧
      (act.gathers = true ∧ m' = m + 1 ∨ act.gathers = false ∧ m' + 1 = m) := by
  by_cases executes : act = .scenario
  · subst executes
    obtain ⟨m', goes', less⟩ := scenario closed enough goes fires
    exact ⟨m', goes', Or.inr ⟨rfl, less⟩⟩
  obtain @⟨phase, c, p, k, ends, at', reads, later⟩ := goes
  cases act with
  | scenario => exact absurd rfl executes
  | pcThread generated =>
      obtain ⟨c', runs, ends', script, counts⟩ := ends.pcThread fires
      obtain ⟨k', at'', work⟩ := closed.pcThread at' runs
      have reads' := reads.mono fun met => met.mono (ClientView.history_prefix runs) List.prefix_rfl
      exact ⟨_, .mk ends' at'' (script ▸ reads') (script ▸ later), Or.inr ⟨rfl, by omega⟩⟩
  | asyncio =>
      obtain ⟨script, counts, ends' | ⟨d, told, ends'⟩⟩ := ends.asyncio fires
      · exact ⟨_, .mk ends' at' (script ▸ reads) (script ▸ later), Or.inr ⟨rfl, by omega⟩⟩
      · have hears := closed.hears at' ends.told told
        exact ⟨_, .mk ends' hears (script ▸ reads) (script ▸ later), Or.inr ⟨rfl, by omega⟩⟩
  | clientCandidate mline candidate =>
      obtain ⟨script, counts, ends'⟩ := ends.clientCandidate fires (closed.gathers at')
      exact ⟨_, .mk ends' at' (script ▸ reads) (script ▸ later), Or.inl ⟨rfl, by omega⟩⟩
  | pageReceives =>
      obtain ⟨script, counts, ends' | ⟨item, told, ends'⟩⟩ :=
        ends.pageReceives fires fun d => closed.hearsCandidates at'
      · exact ⟨_, .mk ends' at' (script ▸ reads) (script ▸ later), Or.inr ⟨rfl, by omega⟩⟩
      · have takes := closed.takes at' ends.told told
        have reads' := reads.mono fun met => met.mono List.prefix_rfl (p.reports_take item)
        exact ⟨_, .mk ends' takes (script ▸ reads') (script ▸ later), Or.inr ⟨rfl, by omega⟩⟩
  | stream ok =>
      cases usual
      obtain ⟨script, counts, ends'⟩ := ends.stream fires
      exact ⟨_, .mk ends' at' (script ▸ reads) (script ▸ later), Or.inr ⟨rfl, by omega⟩⟩
  | waiting =>
      obtain ⟨p', runs, ends', script, counts⟩ := ends.runWaiting fires
      obtain ⟨k', at'', work⟩ := closed.waiting at' runs
      have reads' := reads.mono fun met =>
        met.mono List.prefix_rfl (PageView.reports_runWaiting runs)
      exact ⟨_, .mk ends' at'' (script ▸ reads') (script ▸ later), Or.inr ⟨rfl, by omega⟩⟩
  | operation generated =>
      obtain ⟨p', operates, ends', script, counts⟩ := ends.operate fires
      obtain ⟨k', at'', work⟩ := closed.operate at' operates
      have reads' := reads.mono fun met =>
        met.mono List.prefix_rfl (PageView.reports_operate operates)
      exact ⟨_, .mk ends' at'' (script ▸ reads') (script ▸ later), Or.inr ⟨rfl, by omega⟩⟩
  | pageCandidate candidate =>
      obtain ⟨script, counts, ends'⟩ := ends.pageCandidate usual fires
      exact ⟨_, .mk ends' at' (script ▸ reads) (script ▸ later), Or.inl ⟨rfl, by omega⟩⟩

/-- Every step but a candidate leaves one step less. -/
theorem run (closed : Closed initiator At) (enough : ∃ awaited ∈ before, Key initiator awaited)
    {script : List Action} {title : Text} {options : List (Text × Json)} (acts : List Test.Act)
    (usual : ∀ act ∈ acts, act.Usual) (goes : Goes initiator before after At w m)
    (done : (test script title options).exec w acts = some w') :
    ∃ m', Goes initiator before after At w' m' ∧
      acts.length + m' = m + 2 * acts.countP Test.Act.gathers := by
  induction acts generalizing w m with
  | nil =>
      cases done
      exact ⟨m, goes, by simp⟩
  | cons act rest ih =>
      obtain ⟨next, fires, tail⟩ := Option.bind_eq_some_iff.mp done
      obtain ⟨k, middle, counts⟩ := goes.step closed enough (usual act List.mem_cons_self) fires
      obtain ⟨m', last, bound⟩ :=
        ih (fun later inside => usual later (List.mem_cons_of_mem _ inside)) middle tail
      refine ⟨m', last, ?_⟩
      rw [List.countP_cons, List.length_cons]
      rcases counts with ⟨gathers, more⟩ | ⟨gathers, less⟩
      · rw [if_pos gathers]
        omega
      · rw [gathers, if_neg Bool.false_ne_true]
        omega

/-- When nothing is left to be done the scenario is done. -/
theorem rest (closed : Closed initiator At) (goes : Goes initiator before after At w m)
    (some_before : before.Sublist (waitsBefore initiator))
    (some_after : after.Sublist (waitsAfter initiator))
    (idle : w.AtRest) :
    w.script = [] ∧ ∃ pc, w.page.peerConnection = some pc ∧ Negotiated initiator w.webrtcbin pc := by
  obtain @⟨phase, c, p, k, ends, at', reads, later⟩ := goes
  have executes := idle .scenario rfl
  obtain ⟨silent, told⟩ := ends.rest idle
  have complete := closed.rest at' (ends.pcThread_none idle) (ends.runWaiting_none idle)
    (ends.operate_none idle) told.1 told.2
  generalize whole : w.script = script at reads
  cases reads with
  | start =>
      obtain ⟨next, steps, -⟩ := ends.asks whole (.offer initiator)
      cases steps.symm.trans executes
  | @offering gone left split safe =>
      cases left with
      | nil =>
          obtain ⟨next, steps, -⟩ := ends.asks whole (.answer initiator.other)
          cases steps.symm.trans executes
      | cons awaited left =>
          have inside : awaited ∈ before := by simp [split]
          exact absurd executes
            (ends.returns whole silent (complete awaited (some_before.subset inside)))
  | @answering gone left split =>
      cases left with
      | nil =>
          obtain ⟨-, pc, page, negotiated⟩ := complete
          exact ⟨rfl, pc, ends.peerConnection.trans page, ends.webrtcbin ▸ negotiated⟩
      | cons awaited left =>
          have inside : awaited ∈ after := by simp [split]
          exact absurd executes
            (ends.returns whole silent (complete.1 awaited (some_after.subset inside)))

end Goes

end GstWebrtc.Check
