import GstWebrtc.Multiparty.PeerList

/-!
# Departures

All connections run the multiparty program for one room, and the server handles
one message at a time.  An `ERROR` reaches a member only when its message to a
peer and the notice of that peer's departure have crossed.
-/

namespace GstWebrtc.Multiparty

open GstWebrtc.Base GstWebrtc.Base.CText GstWebrtc.Base.PyText GstWebrtc.Signalling Client

/-- Every connection is made by a program that joins `room`. -/
def OneRoom (setup : Setup) (room : Text) : Prop :=
  ∀ k, ∃ prog, setup.program k = some prog ∧ prog.roomId.text = room

/-- The server handles each message to completion. -/
def Completed (s : Conference) : Move → Prop
  | .server act => Sequential s.world act
  | _ => True

/-! ## What the programs have said -/

/-- A message to a peer that was in the list when it was sent. -/
def Addressed (setup : Setup) (k : ConnId) (s : Conference) (letter : Letter) : Prop :=
  ∃ peer body, letter.text = sendRoomPeerMsg ('\x7b' :: body) peer ∧
    letter.seen ≤ (s.world.mailTo k).length ∧
    peer ∈ (((s.world.mailTo k).take letter.seen).map fun r => r.text setup.repr).foldl
      peersAfter []

/-- The program at connection `k` does not expect the answer to its `HELLO` any more. -/
def Registered (k : ConnId) (s : Conference) : Prop :=
  ∀ cl, s.client k = .ok cl → cl.looping = true → cl.appState ≠ .serverRegistering

/-- What waits for the handler, given how far the handshake has come. -/
inductive Spoken (setup : Setup) (prog : Program) (k : ConnId) (s : Conference) : Prop where
  | absent (phase : s.world.phase k = .absent) (outbox : s.outbox k = [])
      (mail : s.world.mailTo k = []) : Spoken setup prog k s
  | calling {letter} (phase : s.world.phase k = .hello) (outbox : s.outbox k = [letter])
      (text : letter.text = "HELLO ".toList ++ prog.localId.text)
      (mail : s.world.mailTo k = []) : Spoken setup prog k s
  | waiting (phase : (s.world.phase k).unasked = true) (outbox : s.outbox k = []) :
      Spoken setup prog k s
  | asking {letter} (phase : (s.world.phase k).unasked = true) (outbox : s.outbox k = [letter])
      (text : letter.text = "ROOM ".toList ++ prog.roomId.text) (registered : Registered k s) :
      Spoken setup prog k s
  | talking {u room point} (phase : s.world.phase k = .running u (some room) point)
      (letters : ∀ letter ∈ s.outbox k, Addressed setup k s letter)
      (registered : Registered k s) : Spoken setup prog k s
  | ended (phase : (s.world.phase k).ended = true) : Spoken setup prog k s

structure Gathered (setup : Setup) (s : Conference) : Prop where
  follows : ∀ k, Follows k s
  spoken : ∀ k prog, setup.program k = some prog → Spoken setup prog k s
  commands : ∀ k, ∀ letter ∈ s.outbox k, ¬ "SESSION".toList <+: letter.text
  clean : ∀ k u, s.world.phase k = .ack u → '\x00' ∉ u

section Spoken

variable {setup : Setup} {prog : Program} {s s' : Conference} {k : ConnId} {act : Act}

theorem Addressed.mono {letter : Letter} {more : List Reply} (h : Addressed setup k s letter)
    (mail : s'.world.mailTo k = s.world.mailTo k ++ more) : Addressed setup k s' letter := by
  obtain ⟨peer, body, text, seen, listed⟩ := h
  refine ⟨peer, body, text, ?_, ?_⟩
  · rw [mail, List.length_append]
    exact seen.trans (Nat.le_add_right _ _)
  · rwa [mail, List.take_append_of_le_length seen]

theorem Registered.of_client (h : Registered k s) (same : s'.client k = s.client k) :
    Registered k s' := by
  intro cl client
  exact h cl (same ▸ client)

/-- A handler that was asked for no room has sent its client nothing about one. -/
theorem unasked_silent {w : World} (heard : Heard k w) (phase : (w.phase k).unasked = true)
    (room : RoomId) : ¬ SentRoomOk w k room := by
  intro sent
  have greets := (heard.orderly.mail.greeted k room sent).1
  generalize own : w.phase k = p at phase greets
  cases p with
  | ack u => cases greets
  | running u roomId point =>
      cases roomId with
      | some other => cases phase
      | none =>
          have standing := heard.orderly.views.tables.standing k
          rw [own] at standing
          obtain ⟨status, found, -⟩ := standing
          have seat := heard.orderly.mail.seats k u none point own
          have apart := (heard.orderly.mail.greeted k room sent).2
          rcases seat.answered room status sent found with rfl | here
          · cases seat.assigned room found apart
          · cases seat.asked room here
  | _ => cases phase

/-- The handler goes on without reading a message. -/
theorem Spoken.unread (h : Spoken setup prog k s) (own : act.conn = k)
    (advances : Advances act (s.world.phase k) (s'.world.phase k))
    (unread : ∀ msg order pick, act ≠ .recv k msg order pick)
    (client : s'.client k = s.client k) (outbox : s'.outbox k = s.outbox k)
    (letters : ∀ letter, Addressed setup k s letter → Addressed setup k s' letter) :
    Spoken setup prog k s' := by
  subst own
  generalize here : s'.world.phase act.conn = after at advances
  cases h with
  | absent phase empty mail =>
      rw [phase] at advances
      cases advances with
      | ends ended => exact .ended (here ▸ ended)
      | waits was still named => cases was
  | calling phase first text mail =>
      rw [phase] at advances
      cases advances with
      | ends ended => exact .ended (here ▸ ended)
      | greets read fields => exact absurd read (unread _ _ _)
      | waits was still named => cases was
  | waiting phase empty =>
      generalize s.world.phase act.conn = before at advances phase
      cases advances with
      | ends ended => exact .ended (here ▸ ended)
      | greets read fields => exact absurd read (unread _ _ _)
      | waits was still named => exact .waiting (here ▸ still) (outbox.trans empty)
      | asks read command => exact absurd read (unread _ _ _)
      | stays => cases phase
  | asking phase first text registered =>
      generalize s.world.phase act.conn = before at advances phase
      cases advances with
      | ends ended => exact .ended (here ▸ ended)
      | greets read fields => exact absurd read (unread _ _ _)
      | waits was still named =>
          exact .asking (here ▸ still) (outbox.trans first) text (registered.of_client client)
      | asks read command => exact absurd read (unread _ _ _)
      | stays => cases phase
  | talking phase addressed registered =>
      rw [phase] at advances
      cases advances with
      | ends ended => exact .ended (here ▸ ended)
      | waits was still named => cases was
      | stays =>
          refine .talking here ?_ (registered.of_client client)
          rw [outbox]
          exact fun letter inside => letters letter (addressed letter inside)
  | ended phase => exact .ended (here ▸ advances.ended phase)

/-- The handler reads the first letter. -/
theorem Spoken.read (h : Spoken setup prog k s) (own : act.conn = k)
    (advances : Advances act (s.world.phase k) (s'.world.phase k)) {letter : Letter}
    {rest : List Letter} (client : s'.client k = s.client k)
    (first : s.outbox k = letter :: rest) (outbox : s'.outbox k = rest)
    (letters : ∀ letter, Addressed setup k s letter → Addressed setup k s' letter) :
    Spoken setup prog k s' := by
  subst own
  generalize here : s'.world.phase act.conn = after at advances
  cases h with
  | absent phase empty mail => cases empty.symm.trans first
  | calling phase only text mail =>
      cases only.symm.trans first
      rw [phase] at advances
      cases advances with
      | ends ended => exact .ended (here ▸ ended)
      | greets read fields => exact .waiting (here ▸ rfl) outbox
      | waits was still named => cases was
  | waiting phase empty => cases empty.symm.trans first
  | asking phase only text registered =>
      cases only.symm.trans first
      generalize s.world.phase act.conn = before at advances phase
      cases advances with
      | ends ended => exact .ended (here ▸ ended)
      | greets read fields => cases phase
      | waits was still named => exact .waiting (here ▸ still) outbox
      | asks read command =>
          refine .talking here ?_ (registered.of_client client)
          rw [outbox]
          exact fun letter inside => absurd inside List.not_mem_nil
      | stays => cases phase
  | talking phase addressed registered =>
      rw [phase] at advances
      cases advances with
      | ends ended => exact .ended (here ▸ ended)
      | waits was still named => cases was
      | stays =>
          refine .talking here ?_ (registered.of_client client)
          rw [outbox]
          intro other inside
          exact letters other (addressed other (first ▸ List.mem_cons_of_mem _ inside))
  | ended phase => exact .ended (here ▸ advances.ended phase)

/-- The server's part of a step. -/
theorem Spoken.serve (h : Spoken setup prog k s) (heard : Heard k s.world)
    (moves : Moves setup k prog s s' (.server act)) (fires : s.world.step act = some s'.world) :
    Spoken setup prog k s' := by
  obtain ⟨more, mail⟩ := World.mailTo_step fires k
  have letters : ∀ letter, Addressed setup k s letter → Addressed setup k s' letter :=
    fun letter addressed => addressed.mono mail
  cases moves with
  | apart client outbox taken unread unmade =>
      rcases phase_step fires k with ⟨same, -⟩ | ⟨rfl, -⟩ | ⟨-, own, advances⟩
      · cases h with
        | absent phase empty none =>
            have here := same.trans phase
            exact .absent here (outbox.trans empty) (mail_of_fresh heard none fires (Or.inl here))
        | calling phase first text none =>
            have here := same.trans phase
            exact .calling here (outbox.trans first) text
              (mail_of_fresh heard none fires (Or.inr here))
        | waiting phase empty => exact .waiting (same ▸ phase) (outbox.trans empty)
        | asking phase first text registered =>
            exact .asking (same ▸ phase) (outbox.trans first) text (registered.of_client client)
        | talking phase addressed registered =>
            refine .talking (same.trans phase) ?_ (registered.of_client client)
            rw [outbox]
            exact fun letter inside => letters letter (addressed letter inside)
        | ended phase => exact .ended (same ▸ phase)
      · exact absurd rfl unmade
      · refine h.unread own advances ?_ client outbox letters
        rintro msg order pick rfl
        exact unread msg order pick rfl
  | started client outbox taken =>
      obtain ⟨absent, hello⟩ := phase_connect fires
      cases h with
      | absent phase empty none =>
          rw [empty] at outbox
          exact .calling hello outbox rfl (mail_of_fresh heard none fires (Or.inr hello))
      | calling phase first text none => cases absent.symm.trans phase
      | waiting phase empty =>
          rw [absent] at phase
          cases phase
      | asking phase first text registered =>
          rw [absent] at phase
          cases phase
      | talking phase addressed registered => cases absent.symm.trans phase
      | ended phase =>
          rw [absent] at phase
          cases phase
  | @handed letter rest order pick client first outbox taken =>
      rcases phase_step fires k with ⟨-, unread⟩ | ⟨other, -⟩ | ⟨-, own, advances⟩
      · exact absurd rfl (unread _ _ _)
      · cases other
      · exact h.read own advances client first outbox letters

/-- The program does something that sends nothing. -/
theorem Spoken.keep (h : Spoken setup prog k s) (same : s'.world = s.world)
    (outbox : s'.outbox k = s.outbox k) (registered : Registered k s → Registered k s') :
    Spoken setup prog k s' := by
  have letters : ∀ letter, Addressed setup k s letter → Addressed setup k s' letter :=
    fun letter addressed => addressed.mono (by rw [same, List.append_nil])
  cases h with
  | absent phase empty mail =>
      exact .absent (same ▸ phase) (outbox.trans empty) (same ▸ mail)
  | calling phase first text mail =>
      exact .calling (same ▸ phase) (outbox.trans first) text (same ▸ mail)
  | waiting phase empty => exact .waiting (same ▸ phase) (outbox.trans empty)
  | asking phase first text done =>
      exact .asking (same ▸ phase) (outbox.trans first) text (registered done)
  | talking phase addressed done =>
      refine .talking (same ▸ phase) ?_ (registered done)
      rw [outbox]
      exact fun letter inside => letters letter (addressed letter inside)
  | ended phase => exact .ended (same ▸ phase)

/-- The client has nothing to take before its handler has read `HELLO`. -/
theorem inbox_of_mail (mail : s.world.mailTo k = []) : s.inbox setup k = [] := by
  rw [Conference.inbox, mail, List.drop_nil, List.map_nil]

theorem Spoken.took (h : Spoken setup prog k s) (same : s'.world = s.world) {cl : Client}
    {gst : Gst} {data : Text} {rest : List Text} (client : s.client k = .ok cl)
    (looping : cl.looping = true) (inbox : s.inbox setup k = data :: rest)
    (called : Called k s s' (cl.onServerMessage prog setup.parse gst data)) :
    Spoken setup prog k s' := by
  generalize result : cl.onServerMessage prog setup.parse gst data = outcome at called
  cases called with
  | @returned cl' texts client' outbox =>
      rcases onServerMessage_handshake result with ⟨rfl, state⟩ | ⟨registering, rfl, joining⟩
      · refine h.keep same (by rw [outbox, List.map_nil, List.append_nil]) ?_
        intro registered cl'' returned looping' registering
        cases client'.symm.trans returned
        exact registered cl client looping (state looping' registering)
      · have done : Registered k s' := by
          intro cl'' returned looping'
          cases client'.symm.trans returned
          simp [joining]
        cases h with
        | absent phase empty mail =>
            rw [inbox_of_mail mail] at inbox
            cases inbox
        | calling phase first text mail =>
            rw [inbox_of_mail mail] at inbox
            cases inbox
        | waiting phase empty =>
            rw [empty] at outbox
            exact .asking (same ▸ phase) outbox rfl done
        | asking phase first text registered =>
            exact absurd registering (registered cl client looping)
        | talking phase addressed registered =>
            exact absurd registering (registered cl client looping)
        | ended phase => exact .ended (same ▸ phase)
  | faulted client' outbox =>
      refine h.keep same outbox fun _ cl'' returned => ?_
      cases client'.symm.trans returned

theorem Spoken.reported (h : Spoken setup prog k s) (follows : Follows k s)
    (same : s'.world = s.world) {cl : Client} {gst : Gst} {event : Event}
    (client : s.client k = .ok cl) (looping : cl.looping = true) (listed : event.peerId ∈ cl.peers)
    (taken : s'.taken k = s.taken k) (called : Called k s s' (cl.onEvent gst event)) :
    Spoken setup prog k s' := by
  obtain ⟨r, told, named⟩ := follows.named client looping listed
  have silent : s.world.mailTo k ≠ [] := by
    intro none
    rw [none] at told
    cases told
  have asked : (s.world.phase k).unasked = true → False := by
    intro phase
    obtain ⟨room, sent⟩ := follows.heard.heard r told (Reply.ofRoom_of_names named)
    exact unasked_silent follows.heard phase room sent
  cases h with
  | absent phase empty mail => exact absurd mail silent
  | calling phase first text mail => exact absurd mail silent
  | waiting phase empty => exact (asked phase).elim
  | asking phase first text registered => exact (asked phase).elim
  | @talking u room point phase addressed registered =>
      have letters : ∀ letter ∈ s.outbox k, Addressed setup k s' letter :=
        fun letter inside => (addressed letter inside).mono (by rw [same, List.append_nil])
      generalize result : cl.onEvent gst event = outcome at called
      cases called with
      | @returned cl' texts client' outbox =>
          refine .talking (same ▸ phase) ?_ ?_
          · rw [outbox]
            intro letter inside
            rcases List.mem_append.mp inside with before | now
            · exact letters letter before
            · obtain ⟨text, written, rfl⟩ := List.mem_map.mp now
              obtain ⟨body, shape⟩ := (onEvent_sent result).2 text written
              rw [taken]
              refine ⟨event.peerId, body, shape, same ▸ follows.taken, ?_⟩
              rw [same]
              rw [follows.fold_take]
              exact follows.peers cl client looping ▸ listed
          · intro cl'' returned looping' registering
            cases client'.symm.trans returned
            exact registered cl client looping (onEvent_state result looping' registering)
      | faulted client' outbox =>
          refine .talking (same ▸ phase) (outbox ▸ letters) ?_
          intro cl'' returned
          cases client'.symm.trans returned
  | ended phase => exact .ended (same ▸ phase)

theorem Spoken.hello (h : Spoken setup prog k s) (phase : s.world.phase k = .hello)
    {letter : Letter} {rest : List Letter} (first : s.outbox k = letter :: rest) :
    letter.text = "HELLO ".toList ++ prog.localId.text := by
  cases h with
  | absent absent empty mail => cases absent.symm.trans phase
  | calling calling only text mail =>
      cases only.symm.trans first
      exact text
  | waiting unasked empty =>
      rw [phase] at unasked
      cases unasked
  | asking unasked only text registered =>
      rw [phase] at unasked
      cases unasked
  | talking running addressed registered => cases running.symm.trans phase
  | ended ended =>
      rw [phase] at ended
      cases ended

end Spoken

/-! ## The invariant -/

namespace Gathered

variable {setup : Setup} {room : Text} {s s' : Conference} {move : Move}

/-- The programs register clean uids, and open no session. -/
theorem tame (inv : Gathered setup s) (everyone : OneRoom setup room)
    (allowed : Completed s move) (h : s.step setup move = some s') : Tame s move := by
  cases move with
  | take k gst => trivial
  | report k gst event => trivial
  | server act =>
      refine ⟨⟨allowed, ?_⟩, ?_⟩
      · cases act with
        | recv k msg order pick =>
            obtain ⟨prog, own, -⟩ := everyone k
            cases Conference.step_moves own h with
            | apart client outbox taken unread unmade => exact absurd rfl (unread _ _ _)
            | handed client first outbox taken =>
                have plain := inv.commands k _ (first ▸ List.mem_cons_self)
                rw [noSession, Bool.not_eq_true', Bool.eq_false_iff]
                exact fun starts => plain (startsWith_iff.mp starts)
        | _ => rfl
      · unfold nulFree
        split
        · next k pick =>
            split
            · next u waiting => exact decide_eq_true (inv.clean k u waiting)
            · rfl
        · rfl

theorem commands_step (inv : Gathered setup s) {k : ConnId} {prog : Program}
    (moves : Moves setup k prog s s' move) :
    ∀ letter ∈ s'.outbox k, ¬ "SESSION".toList <+: letter.text := by
  have all := inv.commands k
  have more : ∀ (texts : List Text) (seen : Nat),
      (∀ text ∈ texts, ¬ "SESSION".toList <+: text) →
      ∀ letter ∈ s.outbox k ++ texts.map fun text => ⟨text, seen⟩,
        ¬ "SESSION".toList <+: letter.text := by
    intro texts seen plain letter inside
    rcases List.mem_append.mp inside with before | now
    · exact all letter before
    · obtain ⟨text, written, rfl⟩ := List.mem_map.mp now
      exact plain text written
  cases moves with
  | apart client outbox taken unread unmade => exact outbox ▸ all
  | started client outbox taken =>
      rw [outbox]
      refine more ["HELLO ".toList ++ prog.localId.text] _ fun text written => ?_
      rw [List.mem_singleton.mp written]
      exact not_prefix_append (by decide) (by decide)
  | handed client first outbox taken =>
      rw [outbox]
      exact fun letter inside => all letter (first ▸ List.mem_cons_of_mem _ inside)
  | @took gst cl data rest client looping inbox taken called =>
      generalize result : cl.onServerMessage prog setup.parse gst data = outcome at called
      cases called with
      | @returned cl' texts client' outbox =>
          rw [outbox]
          refine more texts _ fun text written => ?_
          rw [onServerMessage_sent result text written]
          exact not_prefix_append (by decide) (by decide)
      | faulted client' outbox => exact outbox ▸ all
  | @reported gst cl event client looping listed taken called =>
      generalize result : cl.onEvent gst event = outcome at called
      cases called with
      | @returned cl' texts client' outbox =>
          rw [outbox]
          refine more texts _ fun text written => ?_
          obtain ⟨body, shape⟩ := (onEvent_sent result).2 text written
          rw [shape]
          exact sendRoomPeerMsg_plain
      | faulted client' outbox => exact outbox ▸ all

/-- What a program is registered with comes from its `HELLO`. -/
theorem clean_step (inv : Gathered setup s) (everyone : OneRoom setup room)
    (h : s.step setup move = some s') (k : ConnId) (u : Uid)
    (waiting : s'.world.phase k = .ack u) : '\x00' ∉ u := by
  obtain ⟨prog, own, -⟩ := everyone k
  rcases Conference.step_world h with ⟨act, rfl, fires⟩ | ⟨-, same⟩
  · rcases phase_step fires k with ⟨same, -⟩ | ⟨-, -, hello⟩ | ⟨-, rfl, advances⟩
    · exact inv.clean k u (same ▸ waiting)
    · cases hello.symm.trans waiting
    · rw [waiting] at advances
      generalize phase : s.world.phase act.conn = before at advances
      cases advances with
      | ends ended => cases ended
      | @greets msg order pick uid read fields =>
          intro inside
          have moves := Conference.step_moves own h
          rw [read] at moves
          cases moves with
          | apart client outbox taken unread unmade => exact absurd rfl (unread _ _ _)
          | @handed letter rest order pick client first outbox taken =>
              have whole := mem_of_mem_splitMax
                (fields ▸ List.mem_cons_of_mem _ List.mem_cons_self) inside
              rw [(inv.spoken _ prog own).hello phase first, List.mem_append] at whole
              rcases whole with command | name
              · exact absurd command (by decide)
              · exact prog.localId.noNul name
      | waits was still named =>
          rw [named u rfl] at phase
          exact inv.clean _ u phase
  · exact inv.clean k u (same ▸ waiting)

theorem step (inv : Gathered setup s) (everyone : OneRoom setup room)
    (allowed : Completed s move) (h : s.step setup move = some s') : Gathered setup s' := by
  have tame := inv.tame everyone allowed h
  refine ⟨?_, ?_, ?_, inv.clean_step everyone h⟩
  · intro k
    obtain ⟨prog, own, -⟩ := everyone k
    exact (inv.follows k).step own tame h
  · intro k prog own
    have moves := Conference.step_moves own h
    have heard := (inv.follows k).heard
    have spoken := inv.spoken k prog own
    rcases Conference.step_world h with ⟨act, rfl, fires⟩ | ⟨notServer, same⟩
    · exact spoken.serve heard moves fires
    · cases moves with
      | apart client outbox taken unread unmade =>
          exact spoken.keep same outbox fun registered => registered.of_client client
      | started client outbox taken => exact absurd rfl (notServer _)
      | handed client first outbox taken => exact absurd rfl (notServer _)
      | took client looping inbox taken called => exact spoken.took same client looping inbox called
      | reported client looping listed taken called =>
          exact spoken.reported (inv.follows k) same client looping listed taken called
  · intro k
    obtain ⟨prog, own, -⟩ := everyone k
    exact inv.commands_step (Conference.step_moves own h)

theorem of_reachable (everyone : OneRoom setup room)
    (run : (composed setup).Reachable Completed s) : Gathered setup s := by
  have start : Gathered setup Conference.empty := by
    refine ⟨?_, fun k prog own => .absent rfl rfl rfl, ?_, ?_⟩
    · intro k
      obtain ⟨prog, own, -⟩ := everyone k
      exact Follows.of_reachable own .refl
    · exact fun k letter inside => absurd inside List.not_mem_nil
    · rintro k u ⟨⟩
  exact run.invariant start fun _ _ _ inv allowed fires => inv.step everyone allowed fires

end Gathered

/-! ## Errors -/

/-- An error is the answer to a message of the client that is sent it. -/
theorem error_answers {w : World} {act : Act} {srv : WebRTCSimpleServer} {k : ConnId}
    {reply : Reply} {phase : Phase} (fires : Fires w act (.send srv k reply phase))
    (error : reply.IsError) :
    ∃ u roomId roomId' msg order pick, act = .recv k msg order pick ∧
      w.phase k = .running u roomId .recv ∧
      Handled w.server k u roomId order msg (.send srv roomId' k reply .sent) := by
  generalize turn : Turn.send srv k reply phase = t at fires
  cases fires with
  | greeted waiting fields absent word =>
      cases turn
      exact error.elim
  | @sends act u roomId srv' roomId' target reply' next runs =>
      cases turn
      cases runs with
      | @message j msg order pick body waiting handled =>
          generalize sends : Body.send srv roomId' k reply next = body at handled
          have shown := handled
          cases handled with
          | relay registered busy linked found partnerBusy =>
              cases sends
              exact error.elim
          | peerMsg registered member command fields found assigned sameRoom =>
              cases sends
              exact error.elim
          | sessionOk registered idle command fields found =>
              cases sends
              exact error.elim
          | newRoom registered idle command fields valid notSession absent lists =>
              cases sends
              exact error.elim
          | oldRoom registered idle command fields valid notSession found fresh lists =>
              cases sends
              exact error.elim
          | raise reason => cases sends
          | ignored registered idle notSession notRoom => cases sends
          | _ =>
              cases sends
              exact ⟨_, _, _, _, _, _, rfl, waiting, shown⟩
      | room mayReturn waiting entered =>
          cases entered with
          | entered registered found announced =>
              obtain ⟨rfl, -⟩ := announced.sends
              exact error.elim
      | joined mayReturn waiting announced =>
          obtain ⟨rfl, -⟩ := announced.sends
          exact error.elim
  | leaves runs removed =>
      subst turn
      obtain ⟨room, -, left⟩ := removed.sends
      rw [left.notice] at error
      exact error.elim
  | partnerClosed mayReturn waiting removed =>
      subst turn
      obtain ⟨room, -, left⟩ := removed.sends
      rw [left.notice] at error
      exact error.elim
  | leftSent mayReturn waiting announced =>
      subst turn
      rw [announced.sends.notice] at error
      exact error.elim
  | _ => cases turn

/-- Who was in the view of some mail, and is not in that of all of it, was announced as gone. -/
theorem left_of_lost {mail : List Reply} {seen : Nat} {peer : Uid} (grown : Grown Reply.Fits mail)
    (had : peer ∈ Notice.view (Reply.notices (mail.take seen)))
    (lost : peer ∉ Notice.view (Reply.notices mail)) : .peerLeft peer ∈ mail.drop seen := by
  have whole : Reply.notices mail =
      Reply.notices (mail.take seen) ++ Reply.notices (mail.drop seen) := by
    rw [← Reply.notices_append, List.take_append_drop]
  have fits := Reply.notices_grown grown
  rw [whole] at lost fits
  have told := Notice.left_mem_of_lost had lost ?_
  · obtain ⟨r, inside, notice⟩ := List.mem_filterMap.mp told
    cases r with
    | peerLeft uid =>
        cases notice
        exact inside
    | _ => cases notice
  · -- a list of the room comes before everything else
    intro members listed
    obtain ⟨before, after, split⟩ := List.append_of_mem listed
    rw [split, ← List.append_assoc] at fits
    obtain ⟨nothing, -⟩ := fits.fits
    rw [(List.append_eq_nil_iff.mp nothing).1] at had
    cases had

/--
The error answers a message to a peer that was in the sender's list when it was
sent, and whose departure had been announced to the sender, but was not taken by
it, at that time.
-/
def Crossed (setup : Setup) (s : Conference) (k : ConnId) (act : Act) (reply : Reply) : Prop :=
  ∃ letter rest order pick peer body,
    act = .recv k letter.text order pick ∧ s.outbox k = letter :: rest ∧
    letter.text = sendRoomPeerMsg ('\x7b' :: body) peer ∧
    peer ∈ (((s.world.mailTo k).take letter.seen).map fun r => r.text setup.repr).foldl
      peersAfter [] ∧
    .peerLeft peer ∈ (s.world.mailTo k).drop letter.seen ∧
    (reply = .notFound peer ∨ reply = .notInRoom peer)

section Errors

variable {setup : Setup} {s : Conference} {k : ConnId} {u peer : Uid} {room : RoomId}
  {letter : Letter}

/-- A peer that was in the list and is not in the room any more was announced as gone. -/
theorem left_of_absent (follows : Follows k s) (quiet : s.world.Quiet)
    (member : u ∈ s.world.server.members room)
    (own : s.world.server.peers u = some ⟨k, some room⟩)
    (listed : peer ∈ (((s.world.mailTo k).take letter.seen).map
      fun r => r.text setup.repr).foldl peersAfter [])
    (gone : peer ∉ s.world.server.members room) :
    .peerLeft peer ∈ (s.world.mailTo k).drop letter.seen := by
  rw [follows.fold_take, ← List.mem_toFinset,
    (Notice.kept_of_grown (Reply.notices_grown (follows.grown_take _))).2] at listed
  refine left_of_lost follows.heard.grown listed ?_
  obtain ⟨peer', found, view⟩ := follows.heard.orderly.views.agree quiet room u member
  cases own.symm.trans found
  rw [World.view_mailTo, view]
  exact fun inside => gone (Finset.mem_of_mem_erase inside)

/-- What a program that is in a room has written is addressed to a peer. -/
theorem Spoken.addressed {prog : Program} {rest : List Letter} {point : LoopPoint}
    (h : Spoken setup prog k s) (phase : s.world.phase k = .running u (some room) point)
    (first : s.outbox k = letter :: rest) : Addressed setup k s letter := by
  cases h with
  | absent absent empty mail => cases absent.symm.trans phase
  | calling calling only text mail => cases calling.symm.trans phase
  | waiting unasked empty =>
      rw [phase] at unasked
      cases unasked
  | asking unasked only text registered =>
      rw [phase] at unasked
      cases unasked
  | talking running letters registered => exact letters letter (first ▸ List.mem_cons_self)
  | ended ended =>
      rw [phase] at ended
      cases ended

/-- A member that is sent an error for a message has addressed nobody in its room. -/
theorem absent_of_error {server srv : WebRTCSimpleServer} {roomId : Option RoomId} {reply : Reply}
    {order : List Uid} {body : Text}
    (entries : ∀ v ∈ server.members room, ∃ k', server.peers v = some ⟨k', some room⟩)
    (own : server.peers u = some ⟨k, some room⟩) (word : Word peer)
    (handled : Handled server k u (some room) order (sendRoomPeerMsg ('\x7b' :: body) peer)
      (.send srv roomId k reply .sent)) (error : reply.IsError) :
    peer ∉ server.members room ∧ (reply = .notFound peer ∨ reply = .notInRoom peer) := by
  have command : Word "ROOM_PEER_MSG".toList := by decide
  have head : isSpace '\x7b' = false := by decide
  have literal : "ROOM_PEER_MSG ".toList = "ROOM_PEER_MSG".toList ++ [' '] := by decide
  have text : sendRoomPeerMsg ('\x7b' :: body) peer =
      "ROOM_PEER_MSG".toList ++ ' ' :: (peer ++ ' ' :: '\x7b' :: body) := by
    unfold sendRoomPeerMsg
    rw [List.append_assoc]
    exact spaced literal
  have parsed : splitMax 2 (sendRoomPeerMsg ('\x7b' :: body) peer) =
      ["ROOM_PEER_MSG".toList, peer, '\x7b' :: body] := by
    rw [text]
    exact splitMax_two command word head
  generalize sends : Body.send srv roomId k reply .sent = outcome at handled
  cases handled with
  | notFound registered status starts fields absent =>
      cases sends
      cases fields.symm.trans parsed
      refine ⟨fun inside => ?_, Or.inl rfl⟩
      obtain ⟨k', found⟩ := entries peer inside
      cases found.symm.trans absent
  | notInRoom registered status starts fields found assigned elsewhere =>
      cases sends
      cases fields.symm.trans parsed
      cases assigned
      refine ⟨fun inside => ?_, Or.inr rfl⟩
      obtain ⟨k', found'⟩ := entries peer inside
      cases found.symm.trans found'
      exact elsewhere rfl
  | alreadyInRoom registered status other =>
      refine absurd ?_ other
      rw [text]
      exact List.prefix_append _ _
  | calleeAbsent registered idle starts fields absent =>
      cases registered.symm.trans own
      cases idle
  | invalidRoom registered idle starts fields invalid =>
      cases registered.symm.trans own
      cases idle
  | raise reason => cases sends
  | ignored registered idle notSession notRoom => cases sends
  | newRoom registered idle starts fields valid notSession absent lists => cases sends
  | oldRoom registered idle starts fields valid notSession found fresh lists => cases sends
  | sessionOk registered idle starts fields found => cases sends
  | _ =>
      cases sends
      exact error.elim

end Errors

/--
In a room of multiparty programs a member is sent an error only when its message
has crossed the notice of the addressee's departure, and nothing else that it is
sent is taken for an error.
-/
theorem error_only_when_crossed {setup : Setup} {room r : Text} {s s' : Conference} {act : Act}
    {k : ConnId} {u : Uid} (everyone : OneRoom setup room)
    (run : (composed setup).Reachable Completed s) (allowed : Sequential s.world act)
    (h : s.step setup (.server act) = some s') (member : u ∈ s.world.server.members r)
    (own : s.world.server.peers u = some ⟨k, some r⟩) :
    (∀ reply, s'.world.log = s.world.log ++ [(k, reply)] → reply.IsError →
      Crossed setup s k act reply) ∧
    (∀ reply ∈ s.world.mailTo k, hasPrefix (ofData (reply.text setup.repr)) "ERROR".toList = true →
      reply.IsError) := by
  have inv := Gathered.of_reachable everyone run
  have heard := (inv.follows k).heard
  refine ⟨?_, ?_⟩
  · intro reply sent error
    obtain ⟨act', same, fires⟩ := (Conference.step_world h).resolve_right fun other =>
      other.1 act rfl
    cases same
    obtain ⟨srv, phase, turns, -⟩ := send_of_log fires sent
    obtain ⟨v, roomId, roomId', msg, order, pick, rfl, waiting, handled⟩ :=
      error_answers turns error
    have quiet : s.world.Quiet := allowed
    obtain ⟨-, notSession, k', _, point, own', running⟩ :=
      heard.orderly.views.tables.member r u member
    cases own.symm.trans own'
    cases waiting.symm.trans running
    cases (heard.orderly.mail.seats k u roomId _ waiting).assigned r own notSession
    obtain ⟨prog, program, -⟩ := everyone k
    cases Conference.step_moves program h with
    | apart client outbox taken unread unmade => exact absurd rfl (unread _ _ _)
    | @handed letter rest order pick client first outbox taken =>
        obtain ⟨peer, body, text, seen, listed⟩ :=
          (inv.spoken k prog program).addressed waiting first
        have follows := inv.follows k
        have kept := listed
        rw [follows.fold_take] at kept
        obtain ⟨p, inside, named⟩ := told_of_kept kept
        have word := (heard.clean p (List.mem_of_mem_take inside) peer named).1
        have entries : ∀ v ∈ s.world.server.members r, ∃ k',
            s.world.server.peers v = some ⟨k', some r⟩ := by
          intro v inside
          obtain ⟨-, -, k', _, _, found, -⟩ := heard.orderly.views.tables.member r v inside
          exact ⟨k', found⟩
        rw [text] at handled
        have gone := absent_of_error entries own word handled error
        exact ⟨letter, rest, order, pick, peer, body, rfl, first, text, listed,
          left_of_absent follows quiet member own listed gone.1, gone.2⟩
  · intro reply inside starts
    have whole : "ERROR".toList <+: reply.text setup.repr :=
      (hasPrefix_iff.mp starts).trans (List.takeWhile_prefix _)
    exact Reply.isError_of_text_prefix (heard.not_relay inside) whole

/-! ## A run -/

/-- `Completed` on the first `n` connections, the only ones in use. -/
def completedBelow (n : Nat) (s : Conference) : Move → Bool
  | .server act => sequentialBelow n s.world act
  | _ => true

theorem exists_completed (setup : Setup) (n : Nat) (moves : List Move) (test : Conference → Bool)
    (passes : ((composed setup).execIf (completedBelow n) Conference.empty moves).any test = true) :
    ∃ s, (composed setup).Reachable Completed s ∧ AbsentFrom n s.world ∧ test s = true := by
  refine exists_checked ?_ ?_ moves test passes
  · intro s act ok
    exact of_decide_eq_true (Bool.and_eq_true_iff.mp ok).1
  · intro s move absent ok
    cases move with
    | server act => exact sequential_of_below absent ok
    | _ => trivial

/-- The client with the id `y`. -/
def programY : Program := ⟨⟨"y".toList, by decide⟩, roomR⟩

/-- Programs for one room, the first one with the id `x` and the others with `y`. -/
def duet : Setup where
  repr := id
  parse _ := some (.object [])
  program k := if k = 0 then some programX else some programY

theorem duet_oneRoom : OneRoom duet "r".toList := by
  intro k
  unfold duet
  dsimp only
  split
  · exact ⟨_, rfl, rfl⟩
  · exact ⟨_, rfl, rfl⟩

/-- The program at connection `k` joins the room. -/
def joining (k : ConnId) (uid : String) (order : List Uid) (pick : Option Uid) : List Move :=
  (greeting k uid).map .server ++ [.take k ⟨true, true⟩,
    .server (.recv k "ROOM r".toList order none), .server (.resume k false pick)]

/-- The JSON text of a candidate, without its first brace. -/
def candidateBody : Text :=
  ("\"ice\":\x7b\"candidate\":\"candidate:1 1 UDP 1 10.0.0.2 40000 typ host\"," ++
    "\"sdpMLineIndex\":0\x7d\x7d").toList

/-- The message with which the candidate is sent to `y`. -/
def candidateMsg : Text := sendRoomPeerMsg ('\x7b' :: candidateBody) "y".toList

/-- A candidate for the peer that has just left is on its way when the notice is. -/
theorem candidate_crosses :
    ∃ s s', (composed duet).Reachable Completed s ∧
      Sequential s.world (.recv 0 candidateMsg [] none) ∧
      s.step duet (.server (.recv 0 candidateMsg [] none)) = some s' ∧
      "x".toList ∈ s.world.server.members "r".toList ∧
      s.world.server.peers "x".toList = some ⟨0, some "r".toList⟩ ∧
      s'.world.log = s.world.log ++ [(0, .notFound "y".toList)] := by
  obtain ⟨s, run, absent, test⟩ := exists_completed duet 2
    (joining 1 "y" [] none ++ joining 0 "x" ["y".toList] (some "y".toList) ++
      [.server (.resume 0 false none), .take 0 ⟨true, true⟩, .server (.lose 1),
        .server (.closed 1 (some "x".toList)), .server (.resume 1 false none),
        .server (.resume 1 false none),
        .report 0 ⟨true, true⟩ (.iceCandidate "y".toList candidateBody)])
    (fun s => quietBelow 2 s.world && "x".toList ∈ s.world.server.members "r".toList &&
      s.world.server.peers "x".toList = some ⟨0, some "r".toList⟩ &&
      (s.step duet (.server (.recv 0 candidateMsg [] none))).any fun s' =>
        s'.world.log = s.world.log ++ [(0, .notFound "y".toList)])
    (by decide)
  simp only [Bool.and_eq_true, decide_eq_true_eq, Option.any_eq_true] at test
  obtain ⟨⟨⟨idle, member⟩, own⟩, s', h, sent⟩ := test
  exact ⟨s, s', run, absent.quiet idle, h, member, own, sent⟩

theorem error_only_when_crossed_candidate :
    ∃ s act, Crossed duet s 0 act (.notFound "y".toList) := by
  obtain ⟨s, s', run, allowed, h, member, own, sent⟩ := candidate_crosses
  exact ⟨s, _, (error_only_when_crossed duet_oneRoom run allowed h member own).1 _ sent
    True.intro⟩

theorem departure_reported_as_error :
    ¬ ∀ (setup : Setup) (room r : Text) (s s' : Conference) (act : Act) (k : ConnId) (u : Uid)
      (reply : Reply), OneRoom setup room → (composed setup).Reachable Completed s →
      Sequential s.world act → s.step setup (.server act) = some s' →
      u ∈ s.world.server.members r → s.world.server.peers u = some ⟨k, some r⟩ →
      s'.world.log = s.world.log ++ [(k, reply)] → ¬ reply.IsError := by
  intro spared
  obtain ⟨s, s', run, allowed, h, member, own, sent⟩ := candidate_crosses
  exact spared duet _ _ s s' _ 0 _ _ duet_oneRoom run allowed h member own sent True.intro

end GstWebrtc.Multiparty
