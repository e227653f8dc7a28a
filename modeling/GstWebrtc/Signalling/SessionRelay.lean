import GstWebrtc.Signalling.Identity

/-!
# The relay of a session

As long as `sessions[a]` is `b` and both are registered with status `'session'`,
the handler of `a` does one thing with a message: it sends the text on to `b`.
Other handlers take turns in between, but none of them can send it again.
-/

namespace GstWebrtc.Signalling

open GstWebrtc.Base GstWebrtc.Base.PyText WebRTCSimpleServer

/-- A text that is sent is put on its connection, and no send raises. -/
structure SendsSucceed (w : World) (act : Act) : Prop where
  delivered : ∀ srv target reply phase, w.turn act = some (.send srv target reply phase) →
    w.socket target ≠ .closed
  returns : ∀ k pick, act = .resume k true pick → (w.phase k).inSend = false

/-- The runs in which each uid is used by one connection and sends succeed. -/
def Lossless (w : World) (act : Act) : Prop := OneConnection w act ∧ SendsSucceed w act

/-- `sessions[a]` is `b`, and both have the status `'session'`. -/
structure InSession (w : World) (a b : Uid) : Prop where
  linked : w.server.sessions a = some b
  sender : ∃ ws, w.server.peers a = some ⟨ws, some inSession⟩
  partner : ∃ ws, w.server.peers b = some ⟨ws, some inSession⟩

/-- A part of a run in all of whose states the session lasts. -/
inductive Interval (a b : Uid) : World → List Act → World → Prop where
  | nil {w} (lasts : InSession w a b) : Interval a b w [] w
  | cons {w act v acts w'} (lasts : InSession w a b) (permitted : Lossless w act)
      (fires : w.step act = some v) (rest : Interval a b v acts w') :
      Interval a b w (act :: acts) w'

/-- The messages that the server reads on connection `k`. -/
def readOn (k : ConnId) (acts : List Act) : List Text :=
  acts.filterMap fun
    | .recv j msg _ _ => if j = k then some msg else none
    | _ => none

/-- What the handler of connection `k` puts on any connection while `acts` are performed. -/
def sentBy (k : ConnId) : World → List Act → List (ConnId × Reply)
  | _, [] => []
  | w, act :: acts =>
      match w.step act with
      | none => []
      | some w' =>
          (if act.conn = k then w'.log.drop w.log.length else []) ++ sentBy k w' acts

def Reply.isRelay : Reply → Bool
  | relay _ => true
  | _ => false

/-- What becomes of the messages on connection `ka` during an interval. -/
structure Relayed (a b : Uid) (ka kb : ConnId) (w : World) (acts : List Act) (w' : World) :
    Prop where
  /-- The handler relays what it reads, in this order and to `kb` only. -/
  sent : (sentBy ka w acts).filter (fun entry => entry.2.isRelay) =
    (readOn ka acts).map fun msg => (kb, .relay msg)
  /-- No other handler relays anything but what it reads itself. -/
  others : ∀ j, (((sentBy j w acts).filter fun entry => entry.2.isRelay).map Prod.snd).Sublist
    ((readOn j acts).map Reply.relay)
  /-- They reach connection `kb` in this order. -/
  arrive : ∃ more, w'.mailTo kb = w.mailTo kb ++ more ∧
    ((readOn ka acts).map Reply.relay).Sublist more
  /-- No table is changed. -/
  untouched : ∀ before msg order pick after, acts = before ++ .recv ka msg order pick :: after →
    ∃ v v', Interval a b w before v ∧ v.step (.recv ka msg order pick) = some v' ∧
      v'.server = v.server

section Step

variable {w w' : World} {act : Act} {a b : Uid} {ka kb : ConnId}

/-- A message of a session, whatever its text. -/
theorem relay_step (inv : Identified w) (linked : w.server.sessions a = some b)
    (sender : w.server.peers a = some ⟨ka, some inSession⟩)
    (partner : w.server.peers b = some ⟨kb, some inSession⟩) {msg : Text} {order : List Uid}
    {pick : Option Uid} (succeeds : SendsSucceed w (.recv ka msg order pick))
    (h : w.step (.recv ka msg order pick) = some w') :
    w'.server = w.server ∧ w'.log = w.log ++ [(kb, .relay msg)] := by
  obtain ⟨roomId, waiting⟩ := inv.running_of_recv sender h
  have relays : w.turn (.recv ka msg order pick) =
      some (.send w.server kb (.relay msg) (.running a roomId .sent)) := by
    simp [World.turn, waiting, connectionHandler, sender, relayToSession, linked, partner, Body.turn]
  have opened := succeeds.delivered _ _ _ _ relays
  simp only [World.step, relays, Option.map_some] at h
  cases h
  refine ⟨World.apply_server _ _ _, ?_⟩
  rw [World.apply_log, World.delivered, if_neg opened]

/-- Only the handler that reads a text relays it, at once and to a partner in a session. -/
theorem Fires.relay {srv : WebRTCSimpleServer} {target : ConnId} {msg : Text} {phase : Phase}
    (fires : Fires w act (.send srv target (.relay msg) phase)) :
    (∃ order pick, act = .recv act.conn msg order pick) ∧
      ∃ u, w.server.peers u = some ⟨target, some inSession⟩ := by
  rcases fires.sends_message with hello | ⟨u, joined | left⟩ |
    ⟨k, uid, roomId, roomId', order, pick, msg, next, rfl, waiting, rfl, handled⟩
  · cases hello
  · cases joined
  · cases left
  · cases handled with
    | @relay peer other partner registered busy linked found partnerBusy =>
        refine ⟨⟨_, _, rfl⟩, other, ?_⟩
        rw [found, ← partnerBusy]

/-- What a step adds to the log. -/
theorem log_step (h : w.step act = some w') :
    w'.log = w.log ∨ ∃ k reply, w'.log = w.log ++ [(k, reply)] ∧
      ∀ msg, reply = .relay msg → ∃ order pick, act = .recv act.conn msg order pick := by
  rcases step_cases h with ⟨j, -, -, rfl⟩ | ⟨j, -, -, rfl⟩ | ⟨t, fires, rfl⟩
  · exact Or.inl rfl
  · exact Or.inl rfl
  · rw [World.apply_log]
    cases t with
    | send srv target reply phase =>
        rw [World.delivered]
        split
        · exact Or.inl (List.append_nil _)
        · refine Or.inr ⟨target, reply, rfl, ?_⟩
          rintro msg rfl
          exact fires.relay.1
    | _ => exact Or.inl (List.append_nil _)

theorem readOn_cons (k : ConnId) (act : Act) (acts : List Act) :
    readOn k (act :: acts) = readOn k [act] ++ readOn k acts :=
  List.filterMap_append (l := [act])

theorem sentBy_cons (fires : w.step act = some w') (k : ConnId) (acts : List Act) :
    sentBy k w (act :: acts) = sentBy k w [act] ++ sentBy k w' acts := by
  simp only [sentBy, fires, List.append_nil]

/-- A handler relays a text only in the step that reads it. -/
theorem relays_step (fires : w.step act = some w') (j : ConnId) :
    (((sentBy j w [act]).filter fun entry => entry.2.isRelay).map Prod.snd).Sublist
      ((readOn j [act]).map Reply.relay) := by
  by_cases own : act.conn = j
  · have sent : sentBy j w [act] = w'.log.drop w.log.length := by
      simp only [sentBy, fires, if_pos own, List.append_nil]
    rw [sent]
    rcases log_step fires with same | ⟨k, reply, grown, read⟩
    · rw [same, List.drop_length]
      exact List.nil_sublist _
    · rw [grown, List.drop_left]
      cases reply with
      | relay msg =>
          obtain ⟨order, pick, reads⟩ := read msg rfl
          have same : readOn j [act] = [msg] := by
            rw [reads, own]
            simp [readOn]
          rw [same]
          exact List.Sublist.refl _
      | _ => exact List.nil_sublist _
  · have sent : sentBy j w [act] = [] := by
      simp only [sentBy, fires, if_neg own, List.append_nil]
    rw [sent]
    exact List.nil_sublist _

/-- What is read is relayed, and nothing else is, in one step of a session. -/
theorem relays_of_session (inv : Identified w) (lasts : InSession w a b)
    (permitted : Lossless w act) (fires : w.step act = some w')
    (usedA : (w.phase ka).used? = some a) (usedB : (w.phase kb).used? = some b) :
    ((sentBy ka w [act]).filter fun entry => entry.2.isRelay) =
        ((readOn ka [act]).map fun msg => (kb, .relay msg)) ∧
      ∃ more, w'.mailTo kb = w.mailTo kb ++ more ∧
        ((readOn ka [act]).map Reply.relay).Sublist more := by
  obtain ⟨linked, ⟨wsA, sender⟩, ⟨wsB, partner⟩⟩ := lasts
  have ownA : wsA = ka := inv.ws_eq usedA sender
  have ownB : wsB = kb := inv.ws_eq usedB partner
  subst wsA wsB
  cases reads : readOn ka [act] with
  | nil =>
      have none := relays_step fires ka
      rw [reads, List.map_nil, List.sublist_nil, List.map_eq_nil_iff] at none
      obtain ⟨more, grown⟩ := World.mailTo_step fires kb
      exact ⟨none, more, grown, List.nil_sublist _⟩
  | cons msg rest =>
      obtain ⟨order, pick, rfl⟩ : ∃ order pick, act = .recv ka msg order pick := by
        cases act with
        | recv j msg' order pick =>
            by_cases own : j = ka
            · subst own
              have same : readOn j [.recv j msg' order pick] = [msg'] := by simp [readOn]
              cases same.symm.trans reads
              exact ⟨order, pick, rfl⟩
            · simp [readOn, own] at reads
        | _ => simp [readOn] at reads
      have same : readOn ka [.recv ka msg order pick] = [msg] := by simp [readOn]
      cases same.symm.trans reads
      obtain ⟨-, log⟩ := relay_step inv linked sender partner permitted.2 fires
      refine ⟨?_, [.relay msg], ?_, List.Sublist.refl _⟩
      · simp only [sentBy, fires, Act.conn, if_true, log, List.drop_left, List.append_nil]
        rfl
      · rw [World.mailTo_of_log log]
        simp

end Step

/-! ## A whole interval -/

namespace Interval

variable {w w' : World} {acts : List Act} {a b : Uid} {ka kb : ConnId}

theorem relayed (interval : Interval a b w acts w') (inv : Identified w)
    (usedA : (w.phase ka).used? = some a) (usedB : (w.phase kb).used? = some b) :
    Relayed a b ka kb w acts w' := by
  induction interval with
  | @nil w lasts =>
      refine ⟨rfl, fun j => List.nil_sublist _, ⟨[], (List.append_nil _).symm, List.nil_sublist _⟩, ?_⟩
      intro before msg order pick after split
      simp at split
  | @cons w act v acts w' lasts permitted fires rest ih =>
      obtain ⟨sent, others, ⟨more, arrive, later⟩, untouched⟩ :=
        ih (inv.step permitted.1 fires) (used_kept fires usedA) (used_kept fires usedB)
      obtain ⟨sentNow, moreNow, arriveNow, now⟩ :=
        relays_of_session inv lasts permitted fires usedA usedB
      refine ⟨?_, ?_, ⟨moreNow ++ more, ?_, ?_⟩, ?_⟩
      · rw [readOn_cons, sentBy_cons fires, List.filter_append, List.map_append, sentNow, sent]
      · intro j
        rw [readOn_cons, sentBy_cons fires, List.filter_append, List.map_append, List.map_append]
        exact (relays_step fires j).append (others j)
      · rw [arrive, arriveNow, List.append_assoc]
      · rw [readOn_cons, List.map_append]
        exact now.append later
      · intro before msg order pick after split
        cases before with
        | nil =>
            obtain ⟨reads, -⟩ := List.cons.inj split
            subst reads
            have begins : Interval a b w [] w := .nil lasts
            obtain ⟨linked, ⟨wsA, sender⟩, ⟨wsB, partner⟩⟩ := lasts
            have own : wsA = ka := inv.ws_eq usedA sender
            subst own
            exact ⟨w, v, begins, fires,
              (relay_step inv linked sender partner permitted.2 fires).1⟩
        | cons first before =>
            obtain ⟨head, tail⟩ := List.cons.inj split
            subst head
            obtain ⟨u, u', part, reads, same⟩ := untouched before msg order pick after tail
            exact ⟨u, u', .cons lasts permitted fires part, reads, same⟩

end Interval

/--
While a session lasts, whatever the handler of `a` reads is sent on to the
socket of `b` as it stands, once, in order and to nobody else, and no table is
changed by it.
-/
theorem session_relay_faithful {w w' : World} {acts : List Act} {a b : Uid} {ka kb : ConnId}
    {statusA statusB : Option Text} (run : interleaved.Reachable Lossless w)
    (interval : Interval a b w acts w') (sender : w.server.peers a = some ⟨ka, statusA⟩)
    (partner : w.server.peers b = some ⟨kb, statusB⟩) : Relayed a b ka kb w acts w' := by
  have inv := Identified.of_reachable (run.mono fun _ _ allowed => allowed.1)
  exact interval.relayed inv (inv.owner a _ sender) (inv.owner b _ partner)

/-- `Lossless` on the first `n` connections, the only ones in use. -/
def losslessBelow (n : Nat) (w : World) (act : Act) : Bool :=
  decide (act.conn < n) && oneBelow n w act &&
    (match w.turn act with
      | some (.send _ target _ _) => w.socket target != .closed
      | _ => true) &&
    match act with
    | .resume k true _ => !(w.phase k).inSend
    | _ => true

theorem lossless_of_below {n : Nat} {w : World} {act : Act} (absent : AbsentFrom n w)
    (ok : losslessBelow n w act = true) : Lossless w act := by
  obtain ⟨ok, raises⟩ := Bool.and_eq_true_iff.mp ok
  obtain ⟨ok, sends⟩ := Bool.and_eq_true_iff.mp ok
  refine ⟨oneConnection_of_below absent (Bool.and_eq_true_iff.mp ok).2, ?_, ?_⟩
  · intro srv target reply phase turn
    simpa [turn] using sends
  · rintro k pick rfl
    simpa using raises

/-- A text that looks like a command passes through a session. -/
theorem session_relay_command :
    ∃ w w', Relayed "x".toList "y".toList 0 1 w [.recv 0 "ROOM r".toList [] none] w' := by
  have below : ∀ w act, losslessBelow 2 w act = true → act.conn < 2 := by
    intro w act ok
    simp only [losslessBelow, Bool.and_eq_true, decide_eq_true_eq] at ok
    exact ok.1.1.1
  obtain ⟨w, run, absent, test⟩ := exists_below below (fun w act => lossless_of_below)
    (greeting 0 "x" ++ greeting 1 "y" ++ [.recv 0 "SESSION y".toList [] none, .resume 0 false none])
    (fun w => w.server.sessions "x".toList = some "y".toList &&
      w.server.peers "x".toList = some ⟨0, some inSession⟩ &&
      w.server.peers "y".toList = some ⟨1, some inSession⟩ &&
      losslessBelow 2 w (.recv 0 "ROOM r".toList [] none) &&
      (w.step (.recv 0 "ROOM r".toList [] none)).isSome)
    (by decide)
  simp only [Bool.and_eq_true, decide_eq_true_eq] at test
  obtain ⟨⟨⟨⟨linked, sender⟩, partner⟩, permitted⟩, steps⟩ := test
  obtain ⟨w', fires⟩ := Option.isSome_iff_exists.mp steps
  have lossless := lossless_of_below absent permitted
  have inv := Identified.of_reachable (run.mono fun _ _ allowed => allowed.1)
  have same := (relay_step inv linked sender partner lossless.2 fires).1
  have before : InSession w "x".toList "y".toList := ⟨linked, ⟨0, sender⟩, ⟨1, partner⟩⟩
  have after : InSession w' "x".toList "y".toList := by
    refine ⟨?_, ⟨0, ?_⟩, ⟨1, ?_⟩⟩
    · rw [same, linked]
    · rw [same, sender]
    · rw [same, partner]
  exact ⟨w, w', session_relay_faithful run (.cons before lossless fires (.nil after)) sender partner⟩

end GstWebrtc.Signalling
